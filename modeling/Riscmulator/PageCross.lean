import Riscmulator.StoreCuts
import Riscmulator.RamBytes

/-! Virtual accesses to two pages, byte by byte: each byte is translated by the entry of
the page that its own address lies in. -/

namespace Riscmulator

open Bytes

variable {δ : Type}

/-! ### Addresses -/

/-- Physical address of byte `i` of an access that starts on the page of `entry0` and
ends on that of `entry1`. -/
def crossAddr (entry0 entry1 : RvTlbEntry) (vaddr : U64) (i : Nat) : U64 :=
  let byteAddr := vaddr + BitVec.ofNat 64 i
  rvTranslate (if byteAddr / rvCpuPageSize = vaddr / rvCpuPageSize then entry0 else entry1) byteAddr

theorem rvTranslate_eq_add (entry : RvTlbEntry) (vaddr : U64) :
    rvTranslate entry vaddr =
      (rvPtePpn entry.pte <<< rvCpuPageSizeExp) + vaddr % rvCpuPageSize := by
  have disjoint : (rvPtePpn entry.pte <<< rvCpuPageSizeExp) &&& (vaddr % rvCpuPageSize) = 0 := by
    apply BitVec.eq_of_getLsbD_eq
    intro i inside
    rw [BitVec.getLsbD_and, BitVec.getLsbD_shiftLeft]
    by_cases offset : i < rvCpuPageSizeExp
    · simp [offset]
    · have small : (vaddr % rvCpuPageSize).toNat < 2 ^ i := by
        have page : (vaddr % rvCpuPageSize).toNat = vaddr.toNat % 2 ^ 12 := BitVec.toNat_umod
        have power : 2 ^ 12 ≤ 2 ^ i := Nat.pow_le_pow_right (by decide) (not_lt.mp offset)
        have below : vaddr.toNat % 2 ^ 12 < 2 ^ 12 := Nat.mod_lt _ (by decide)
        omega
      have clear : (vaddr % rvCpuPageSize).getLsbD i = false := Nat.testBit_lt_two_pow small
      rw [clear, Bool.and_false]
      exact BitVec.getLsbD_zero.symm
  rw [rvTranslate, ← BitVec.add_eq_or_of_and_eq_zero _ _ disjoint]

/-- Within a page a translation moves every address by the same distance. -/
theorem rvTranslate_add (entry : RvTlbEntry) {vaddr : U64} {k : Nat}
    (inside : vaddr.toNat % 4096 + k < 4096) :
    rvTranslate entry (vaddr + BitVec.ofNat 64 k) =
      rvTranslate entry vaddr + BitVec.ofNat 64 k := by
  have page : rvCpuPageSize = 4096#64 := rfl
  have within (x : U64) : (x % 4096#64).toNat = x.toNat % 4096 := BitVec.toNat_umod
  have offset : (vaddr + BitVec.ofNat 64 k) % 4096#64 = vaddr % 4096#64 + BitVec.ofNat 64 k := by
    apply BitVec.eq_of_toNat_eq
    rw [within, BitVec.toNat_add, BitVec.toNat_add, within, BitVec.toNat_ofNat]
    omega
  rw [rvTranslate_eq_add, rvTranslate_eq_add, page, offset, BitVec.add_assoc]

/-! ### The boundary -/

section Boundary

variable {vaddr size : U64} {size0 size1 : Nat} (entry0 entry1 : RvTlbEntry)

/-- Before the boundary the bytes follow the start on the first page. -/
theorem crossAddr_first (boundary : CrossesAt vaddr size size0 size1) {i : Nat}
    (before : i < size0) :
    crossAddr entry0 entry1 vaddr i = rvTranslate entry0 vaddr + BitVec.ofNat 64 i := by
  have offset := boundary.offset
  have number (x : U64) : (x / rvCpuPageSize).toNat = x.toNat / 4096 := BitVec.toNat_udiv
  have samePage : (vaddr + BitVec.ofNat 64 i) / rvCpuPageSize = vaddr / rvCpuPageSize := by
    apply BitVec.eq_of_toNat_eq
    rw [number, number, BitVec.toNat_add, BitVec.toNat_ofNat]
    omega
  rw [crossAddr, if_pos samePage, rvTranslate_add entry0 (by omega)]

/-- After it they follow the start of the second page. -/
theorem crossAddr_second (boundary : CrossesAt vaddr size size0 size1) (small : size.toNat ≤ 8)
    {j : Nat} (inside : j < size1) :
    crossAddr entry0 entry1 vaddr (size0 + j) =
      rvTranslate entry1 (rvNextPage vaddr) + BitVec.ofNat 64 j := by
  rcases boundary with ⟨first, second, total, pos0, pos1, offset⟩
  have number (x : U64) : (x / rvCpuPageSize).toNat = x.toNat / 4096 := BitVec.toNat_udiv
  have start := rvNextPage_offset vaddr
  have address : vaddr + BitVec.ofNat 64 (size0 + j) = rvNextPage vaddr + BitVec.ofNat 64 j := by
    bv_omega
  have otherPage : ¬(vaddr + BitVec.ofNat 64 (size0 + j)) / rvCpuPageSize =
      vaddr / rvCpuPageSize := by
    intro same
    have pages := congrArg BitVec.toNat same
    rw [number, number, BitVec.toNat_add, BitVec.toNat_ofNat] at pages
    omega
  rw [crossAddr, if_neg otherPage, address, rvTranslate_add entry1 (by omega)]

end Boundary

/-! ### Bytes of an outcome -/

/-- The access loads the bytes at these physical addresses of RAM into the start of its
buffer, and leaves the machine as it is. -/
structure LoadsBytes (mc : EmuConfig δ) (m : EmuMachine δ) (addr : Nat → U64) (size : Nat)
    (data : U64) (out : MemOutcome δ) : Prop where
  res : out.res = .ok
  machine : out.machine = m
  bytes : ∃ buffer, out.data = some buffer ∧ ∀ i < 8,
    byte buffer i = if i < size then m.ram (addr i - mc.ramStart) else byte data i

/-- The access stores the bytes of its buffer at these physical addresses of RAM, and
changes nothing else. -/
structure StoresBytes (mc : EmuConfig δ) (m : EmuMachine δ) (addr : Nat → U64) (size : Nat)
    (data : U64) (out : MemOutcome δ) : Prop where
  res : out.res = .ok
  buffer : out.data = some data
  others : out.machine = { m with ram := out.machine.ram }
  stored : ∀ i < size, out.machine.ram (addr i - mc.ramStart) = byte data i
  kept : ∀ idx, (∀ i < size, idx ≠ addr i - mc.ramStart) → out.machine.ram idx = m.ram idx

section TwoPages

variable {mc : EmuConfig δ} {m : EmuMachine δ} {h : Nat} {vaddr size data : U64}
  {size0 size1 : Nat} {mode : RvAccess} {entry0 entry1 : RvTlbEntry}

/-- All bytes of the access are in RAM. -/
def CrossInRam (mc : EmuConfig δ) (entry0 entry1 : RvTlbEntry) (vaddr size : U64) : Prop :=
  ∀ i < size.toNat, mc.ramStart ≤ crossAddr entry0 entry1 vaddr i ∧
    crossAddr entry0 entry1 vaddr i < mc.ramEnd

theorem crossInRam_first (boundary : CrossesAt vaddr size size0 size1)
    (inRam : CrossInRam mc entry0 entry1 vaddr size) :
    mc.ramStart ≤ rvTranslate entry0 vaddr ∧
      (rvTranslate entry0 vaddr).toNat + size0 ≤ mc.ramEnd.toNat := by
  have offset := rvTranslate_offset entry0 vaddr
  have start := (inRam 0 (by have := boundary.total; have := boundary.pos0; omega)).1
  have last := (inRam (size0 - 1) (by have := boundary.total; have := boundary.pos1; omega)).2
  rw [crossAddr_first entry0 entry1 boundary boundary.pos0] at start
  rw [crossAddr_first entry0 entry1 boundary (by have := boundary.pos0; omega)] at last
  rcases boundary with ⟨_, _, _, pos0, _, room⟩
  constructor
  · simpa using start
  · bv_omega

theorem crossInRam_second (boundary : CrossesAt vaddr size size0 size1) (small : size.toNat ≤ 8)
    (inRam : CrossInRam mc entry0 entry1 vaddr size) :
    mc.ramStart ≤ rvTranslate entry1 (rvNextPage vaddr) ∧
      (rvTranslate entry1 (rvNextPage vaddr)).toNat + size1 ≤ mc.ramEnd.toNat := by
  have offset := rvTranslate_offset entry1 (rvNextPage vaddr)
  have aligned := rvNextPage_offset vaddr
  have total := boundary.total
  have pos1 := boundary.pos1
  have start := (inRam (size0 + 0) (by omega)).1
  have last := (inRam (size0 + (size1 - 1)) (by omega)).2
  rw [crossAddr_second entry0 entry1 boundary small pos1] at start
  rw [crossAddr_second entry0 entry1 boundary small (by omega)] at last
  constructor
  · simpa using start
  · bv_omega

/-- The two transfers of an access whose bytes are in RAM. -/
theorem rvAccessTwoPages_ram (boundary : CrossesAt vaddr size size0 size1)
    (small : size.toNat ≤ 8) (inRam : CrossInRam mc entry0 entry1 vaddr size) :
    rvAccessTwoPages mc m h vaddr data size mode entry0 entry1 =
      let out0 := ramTransfer mc m (rvTranslate entry0 vaddr) (some data) (rvNextPage vaddr - vaddr)
        mode
      let out1 := ramTransfer mc out0.machine (rvTranslate entry1 (rvNextPage vaddr))
        (some (out0.data.getD data >>> (8 * size0))) (vaddr + size - rvNextPage vaddr) mode
      { out1 with
        data := some (((out1.data.getD 0) <<< (8 * size0)) ||| lowBytes (out0.data.getD data) size0)
        touched := out0.touched ++ out1.touched } := by
  obtain ⟨low0, high0⟩ := crossInRam_first boundary inRam
  obtain ⟨low1, high1⟩ := crossInRam_second boundary small inRam
  rcases boundary with ⟨first, second, _, pos0, pos1, _⟩
  have part0 (data : U64) := misalignedTwoPass_ram mc m data mode (first ▸ pos0) low0
    (first ▸ high0)
  have part1 (m : EmuMachine δ) (data : U64) := misalignedTwoPass_ram mc m data mode
    (second ▸ pos1) low1 (second ▸ high1)
  simp only [rvAccessTwoPages, rvAccessPhysPartial, Bool.not_true, Bool.false_and,
    Bool.false_eq_true, if_false, part0, part1, ramTransfer_ok, ne_eq, not_true_eq_false, first]

theorem rvAccessTwoPages_loads (boundary : CrossesAt vaddr size size0 size1)
    (small : size.toNat ≤ 8) (inRam : CrossInRam mc entry0 entry1 vaddr size)
    (load : mode ≠ .store) :
    LoadsBytes mc m (crossAddr entry0 entry1 vaddr) size.toNat data
      (rvAccessTwoPages mc m h vaddr data size mode entry0 entry1) := by
  have total := boundary.total
  rw [rvAccessTwoPages_ram boundary small inRam]
  simp only [ramTransfer_load load, Option.getD_some, boundary.first, boundary.second]
  constructor
  · rfl
  · rfl
  · refine ⟨_, rfl, ?_⟩
    intro i word
    rw [byte_or, byte_lowBytes _ (by omega)]
    by_cases before : i < size0
    · have here : i < size.toNat := by omega
      rw [byte_shiftLeft_low _ before, if_pos before, if_pos here,
        byte_spliceLow_ramLoad m.ram data _ word, if_pos before,
        crossAddr_first entry0 entry1 boundary before, BitVec.zero_or, index_add]
    · obtain ⟨j, rfl⟩ := Nat.exists_eq_add_of_le (not_lt.mp before)
      rw [byte_shiftLeft _ (by omega), if_neg before,
        byte_spliceLow_ramLoad m.ram _ _ (by omega), BitVec.or_zero]
      by_cases after : j < size1
      · have here : size0 + j < size.toNat := by omega
        rw [if_pos after, if_pos here, crossAddr_second entry0 entry1 boundary small after,
          index_add]
      · have past : ¬size0 + j < size.toNat := by omega
        rw [if_neg after, if_neg past, byte_ushiftRight,
          byte_spliceLow_ramLoad m.ram data _ word, if_neg before]

/-- RAM after the two parts of a store. -/
def crossRam (mc : EmuConfig δ) (entry0 entry1 : RvTlbEntry) (vaddr data : U64) (size0 size1 : Nat)
    (ram : U64 → U8) : U64 → U8 :=
  ramStore (ramStore ram (rvTranslate entry0 vaddr - mc.ramStart) data size0)
    (rvTranslate entry1 (rvNextPage vaddr) - mc.ramStart) (data >>> (8 * size0)) size1

/-- The second part, at the start of a page, does not reach the first, at the end of one. -/
theorem crossRam_stored (boundary : CrossesAt vaddr size size0 size1) (small : size.toNat ≤ 8)
    (ram : U64 → U8) {i : Nat} (inside : i < size.toNat) :
    crossRam mc entry0 entry1 vaddr data size0 size1 ram
      (crossAddr entry0 entry1 vaddr i - mc.ramStart) = byte data i := by
  have total := boundary.total
  rw [crossRam]
  by_cases before : i < size0
  · have apart : size1 ≤ (rvTranslate entry0 vaddr - mc.ramStart + BitVec.ofNat 64 i -
        (rvTranslate entry1 (rvNextPage vaddr) - mc.ramStart)).toNat := by
      have offset0 := rvTranslate_offset entry0 vaddr
      have offset1 := rvTranslate_offset entry1 (rvNextPage vaddr)
      have start := rvNextPage_offset vaddr
      have room := boundary.offset
      generalize rvTranslate entry0 vaddr = paddr0 at offset0
      generalize rvTranslate entry1 (rvNextPage vaddr) = paddr1 at offset1
      bv_omega
    rw [crossAddr_first entry0 entry1 boundary before, index_add, ramStore_other _ _ _ apart,
      ramStore_byte _ _ _ before (by omega)]
  · obtain ⟨j, rfl⟩ := Nat.exists_eq_add_of_le (not_lt.mp before)
    have after : j < size1 := by omega
    rw [crossAddr_second entry0 entry1 boundary small after, index_add,
      ramStore_byte _ _ _ after (by omega), byte_ushiftRight]

theorem crossRam_kept (boundary : CrossesAt vaddr size size0 size1) (small : size.toNat ≤ 8)
    (ram : U64 → U8) {idx : U64}
    (elsewhere : ∀ i < size.toNat, idx ≠ crossAddr entry0 entry1 vaddr i - mc.ramStart) :
    crossRam mc entry0 entry1 vaddr data size0 size1 ram idx = ram idx := by
  have total := boundary.total
  have outside1 : size1 ≤
      (idx - (rvTranslate entry1 (rvNextPage vaddr) - mc.ramStart)).toNat := by
    by_contra inside
    have position := elsewhere (size0 + (idx - (rvTranslate entry1 (rvNextPage vaddr) -
      mc.ramStart)).toNat) (by omega)
    rw [crossAddr_second entry0 entry1 boundary small (by omega), index_add,
      BitVec.ofNat_toNat, BitVec.setWidth_eq] at position
    exact position (by bv_omega)
  have outside0 : size0 ≤ (idx - (rvTranslate entry0 vaddr - mc.ramStart)).toNat := by
    by_contra inside
    have position := elsewhere (idx - (rvTranslate entry0 vaddr - mc.ramStart)).toNat (by omega)
    rw [crossAddr_first entry0 entry1 boundary (by omega), index_add,
      BitVec.ofNat_toNat, BitVec.setWidth_eq] at position
    exact position (by bv_omega)
  rw [crossRam, ramStore_other _ _ _ outside1, ramStore_other _ _ _ outside0]

theorem rvAccessTwoPages_stores (boundary : CrossesAt vaddr size size0 size1)
    (small : size.toNat ≤ 8) (inRam : CrossInRam mc entry0 entry1 vaddr size) :
    StoresBytes mc m (crossAddr entry0 entry1 vaddr) size.toNat data
      (rvAccessTwoPages mc m h vaddr data size .store entry0 entry1) := by
  have total := boundary.total
  rw [rvAccessTwoPages_ram boundary small inRam]
  simp only [ramTransfer_store, Option.getD_some, boundary.first, boundary.second]
  constructor
  · rfl
  · exact congrArg some (shiftedBuffer_eq data (by omega))
  · rfl
  · intro i inside
    exact crossRam_stored boundary small m.ram inside
  · intro idx elsewhere
    exact crossRam_kept boundary small m.ram elsewhere

end TwoPages

/-! ### A whole access -/

def BothCanonical (cpu : RvCpu) (vaddr : U64) : Prop :=
  rvIsCanonVaddr cpu vaddr = true ∧ rvIsCanonVaddr cpu (rvNextPage vaddr) = true

/-- The lookup of the second page, on the machine that the first lookup leaves. -/
def secondLookup (mc : EmuConfig δ) (m : EmuMachine δ) (h : Nat) (vaddr : U64) (mode : RvAccess) :
    LookupOutcome δ :=
  rvPagingLookup mc (rvPagingLookup mc m h vaddr mode).machine h (rvNextPage vaddr) mode

/-- Both lookups succeed, and every byte they lead to is in RAM. -/
structure BothMapped (mc : EmuConfig δ) (m : EmuMachine δ) (h : Nat) (vaddr size : U64)
    (mode : RvAccess) : Prop where
  canonical : BothCanonical (m.cpus h) vaddr
  first : (rvPagingLookup mc m h vaddr mode).res = .ok
  second : (secondLookup mc m h vaddr mode).res = .ok
  inRam : CrossInRam mc (rvPagingLookup mc m h vaddr mode).entry
    (secondLookup mc m h vaddr mode).entry vaddr size

/-- What an access that leaves its page does: it faults before it transfers anything
where a page is not canonical or its lookup faults, and otherwise it loads or stores its
bytes one by one, on the machine that the two lookups leave. -/
structure CrossesRight (mc : EmuConfig δ) (m : EmuMachine δ) (h : Nat) (vaddr data : U64)
    (sizeExp : Fin 4) (mode : RvAccess) (out : MemOutcome δ) : Prop where
  outside : ¬BothCanonical (m.cpus h) vaddr → out = ⟨.pageFault, m, some data, []⟩
  first : BothCanonical (m.cpus h) vaddr → (rvPagingLookup mc m h vaddr mode).res ≠ .ok →
    out = ⟨(rvPagingLookup mc m h vaddr mode).res, (rvPagingLookup mc m h vaddr mode).machine,
      some data, []⟩
  second : BothCanonical (m.cpus h) vaddr → (rvPagingLookup mc m h vaddr mode).res = .ok →
    (secondLookup mc m h vaddr mode).res ≠ .ok →
      out = ⟨(secondLookup mc m h vaddr mode).res, (secondLookup mc m h vaddr mode).machine,
        some data, []⟩
  loads : BothMapped mc m h vaddr (bit sizeExp.val) mode → mode ≠ .store →
    LoadsBytes mc (secondLookup mc m h vaddr mode).machine
      (crossAddr (rvPagingLookup mc m h vaddr mode).entry (secondLookup mc m h vaddr mode).entry
        vaddr) (2 ^ sizeExp.val) data out
  stores : BothMapped mc m h vaddr (bit sizeExp.val) mode → mode = .store →
    StoresBytes mc (secondLookup mc m h vaddr mode).machine
      (crossAddr (rvPagingLookup mc m h vaddr mode).entry (secondLookup mc m h vaddr mode).entry
        vaddr) (2 ^ sizeExp.val) data out

section Access

variable {mc : EmuConfig δ} {m : EmuMachine δ} {h : Nat} {vaddr data : U64} {sizeExp : Fin 4}
  {mode : RvAccess}

theorem rvAccessVirtPageboundary_mapped
    (mapped : BothMapped mc m h vaddr (bit sizeExp.val) mode) :
    rvAccessVirtPageboundary mc m h vaddr data sizeExp mode =
      rvAccessTwoPages mc (secondLookup mc m h vaddr mode).machine h vaddr data (bit sizeExp.val)
        mode (rvPagingLookup mc m h vaddr mode).entry (secondLookup mc m h vaddr mode).entry := by
  have first := mapped.first
  have second := mapped.second
  rw [secondLookup] at second ⊢
  simp only [rvAccessVirtPageboundary, mapped.canonical.2, first, second, Bool.not_true,
    Bool.false_eq_true, if_false, ne_eq, not_true_eq_false]

/-- An access that leaves its page, by the pages that are canonical. -/
theorem rvAccessVirt_entered (paged : rvIsBare (m.cpus h) mode = false)
    (crosses : vaddr / rvCpuPageSize ≠ (vaddr + bit sizeExp.val - 1) / rvCpuPageSize) :
    rvAccessVirt mc m h vaddr data sizeExp mode =
      if rvIsCanonVaddr (m.cpus h) vaddr then
        rvAccessVirtPageboundary mc m h vaddr data sizeExp mode
      else ⟨.pageFault, m, some data, []⟩ := by
  rw [rvAccessVirt, rvAccessVirtBy, paged, if_neg Bool.false_ne_true, if_pos crosses]
  by_cases canonical : rvIsCanonVaddr (m.cpus h) vaddr = true
  · simp only [canonical, Bool.not_true, Bool.false_eq_true, if_true, if_false]
  · simp only [canonical, Bool.not_false, Bool.false_eq_true, if_true, if_false]

end Access

end Riscmulator
