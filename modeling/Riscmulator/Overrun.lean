import Riscmulator.HostMemory
import Riscmulator.RamBytes
import Riscmulator.TlbAddress

/-! An eviction past the last slot of the TLB, run by a program in U-mode. Loads from one
page after another of the same row drive `next_column` as far as they like, since each
evicts; from another full row the next eviction stores its tag and its PTE over words of
the core. -/

namespace Riscmulator

open Transition

/-! ### Rows that fill up -/

/-- The valid bits of a row that `k` lookups have missed in. -/
def rowFilled (k : Nat) : U16 := BitVec.ofNat 16 (2 ^ min k rvTlbColumns - 1)

section Rows

variable {tlb : RvTlb} {row k : Nat}

theorem rowFilled_open : ∀ k < rvTlbColumns,
    ((List.range rvTlbColumns).find? fun col => !(rowFilled k).getLsbD col) = some k ∧
      (rowFilled k ||| (1#16 <<< k)) = rowFilled (k + 1) := by decide

theorem rowFilled_full (full : rvTlbColumns ≤ k) : rowFilled k = BitVec.allOnes 16 := by
  rw [rowFilled, Nat.min_eq_right full]
  decide

theorem rvTlbInsert_open (entry : RvTlbEntry) (valid : tlb.valid row = rowFilled k)
    (room : k < rvTlbColumns) :
    rvTlbInsert tlb row entry = ((tlb.write (tlbSlot row k) entry).setValid row k, tlbSlot row k) := by
  have first : ((List.range rvTlbColumns).find? fun col => !tlb.isValid row col) = some k := by
    simp only [RvTlb.isValid, valid]
    exact (rowFilled_open k room).1
  simp only [rvTlbInsert, first, tlbSlot]

theorem setValid_filled {slot : Nat} {entry : RvTlbEntry} (valid : tlb.valid row = rowFilled k)
    (room : k < rvTlbColumns) :
    ((tlb.write slot entry).setValid row k).valid row = rowFilled (k + 1) := by
  have set : ((tlb.write slot entry).setValid row k).valid row = tlb.valid row ||| (1#16 <<< k) :=
    Function.update_self row _ _
  rw [set, valid]
  exact (rowFilled_open k room).2

theorem rvTlbInsert_full (entry : RvTlbEntry) (valid : tlb.valid row = rowFilled k)
    (full : rvTlbColumns ≤ k) :
    rvTlbInsert tlb row entry =
      ({ tlb.write (tlbSlot row tlb.nextColumn.toNat) entry with nextColumn := tlb.nextColumn + 1 },
        tlbSlot row tlb.nextColumn.toNat) := by
  have taken : ((List.range rvTlbColumns).find? fun col => !tlb.isValid row col) = none := by
    simp only [RvTlb.isValid, valid, rowFilled_full full]
    decide
  simp only [rvTlbInsert, taken, tlbSlot]

end Rows

/-! ### The program -/

/-- 1 GiB of RAM. -/
def spillConfig : EmuConfig Unit := EmuConfig.ramOnly 0 0x40000000 1

/-- A root entry that maps all of it for U-mode. -/
def spillPte : U64 := 0xd7

def spillRam : U64 → U8 := ramStore (fun _ => 0) 0 spillPte 8

/-- M-mode stores the root entry, locks the first PMP entry on all of memory, turns paging
on and returns to U-mode, with `x1` at a page of row 0, the way to the next one in `x2`
and the way to the last row in `x4`. -/
def spillSetup : List (MachineEvent Unit) :=
  [.insn 0 0x0d700093, -- li x1, 0xd7
   .insn 0 0x00103023, -- sd x1, 0(x0)
   .insn 0 0xfff00093, -- li x1, -1
   .insn 0 0x3b009073, -- csrw pmpaddr0, x1
   .insn 0 0x09f00093, -- li x1, 0x9f
   .insn 0 0x3a009073, -- csrw pmpcfg0, x1
   .insn 0 0x00100093, -- li x1, 1
   .insn 0 0x03f09093, -- slli x1, x1, 63
   .insn 0 0x18009073, -- csrw satp, x1
   .insn 0 0x000400b7, -- lui x1, 0x40
   .insn 0 0x00010137, -- lui x2, 0x10
   .insn 0 0x0000f237, -- lui x4, 0xf
   .insn 0 0x30200073] -- mret

def spillStart : EmuMachine Unit := run (hostStep spillConfig) (emuMachineInit ()) spillSetup

/-- `lw x3, 0(x1)`. -/
def visitLoad : MachineEvent Unit := .insn 0 0x0000a183

/-- `add x1, x1, x2` and `add x1, x1, x4`. -/
def visitNext : MachineEvent Unit := .insn 0 0x002080b3
def visitLastRow : MachineEvent Unit := .insn 0 0x004080b3

def visitPages (count : Nat) : List (MachineEvent Unit) :=
  (List.replicate count [visitLoad, visitNext]).flatten

/-- `k` pages of row 0, as many of the last row as it has columns, and one more of it. -/
def spillVisits (k : Nat) : List (MachineEvent Unit) :=
  visitPages k ++ visitLastRow :: (visitPages rvTlbColumns ++ [visitLoad])

/-- The page that the last load reads. -/
def spillPage (k : Nat) : U64 := 0x14f000 + BitVec.ofNat 64 (0x10000 * k)

/-! ### Lookups of the program -/

def spillCpu : RvCpu := spillStart.cpus 0

def spillEntry (v : U64) : RvTlbEntry := rvLeafEntry spillCpu v spillPte 2

/-- A page of RAM whose translation belongs in the row. -/
structure SpillPage (row : Nat) (v : U64) : Prop where
  place : v.toNat % 0x10000 = 4096 * row
  inside : v.toNat < 0x40000000

/-- The hart after `k` visits to row 0 and `j` to the last row, all to pages below `v`. -/
structure Visiting (k j : Nat) (v : U64) (m : EmuMachine Unit) : Prop where
  ram : m.ram = spillRam
  csr : (m.cpus 0).csr = spillCpu.csr
  privilege : (m.cpus 0).privilege = 0
  level : (m.cpus 0).memPrivilege = 0
  page : (m.cpus 0).xregs 1 = v
  stride : (m.cpus 0).xregs 2 = 0x10000
  lastRow : (m.cpus 0).xregs 4 = 0xf000
  first : (m.cpus 0).tlb.valid 0 = rowFilled k
  last : (m.cpus 0).tlb.valid 15 = rowFilled j
  column : (m.cpus 0).tlb.nextColumn = BitVec.ofNat 8 (k - rvTlbColumns)
  below : ∀ row col, row < rvTlbRows → (m.cpus 0).tlb.isValid row col = true →
    ((m.cpus 0).tlb.entries (tlbSlot row col)).vma &&& rvTlbVpnMask < v

theorem spillStart_visiting : Visiting 0 0 0x40000 spillStart := by
  have empty : ∀ row < rvTlbRows, spillCpu.tlb.valid row = 0 := by decide +kernel
  refine ⟨rfl, rfl, ?_, ?_, ?_, ?_, ?_, empty 0 (by decide), empty 15 (by decide), ?_, ?_⟩
  · decide +kernel
  · decide +kernel
  · decide +kernel
  · decide +kernel
  · decide +kernel
  · decide +kernel
  · intro row col inside valid
    have set : (spillCpu.tlb.valid row).getLsbD col = true := valid
    rw [empty row inside] at set
    simp at set

section Lookup

variable {row k j : Nat} {v : U64} {m : EmuMachine Unit}

theorem SpillPage.aligned (page : SpillPage row v) : v.toNat % 4096 = 0 := by
  have place := page.place
  omega

theorem SpillPage.row_eq (page : SpillPage row v) : rvTlbRow v = row := by
  have place := page.place
  rw [rvTlbRow, BitVec.toNat_umod, BitVec.toNat_udiv]
  change v.toNat / 4096 % 16 = row
  omega

theorem SpillPage.tag (page : SpillPage row v) : v &&& rvTlbVpnMask = v := by
  apply BitVec.eq_of_getLsbD_eq
  intro i word
  rw [BitVec.getLsbD_and, rvTlbVpnMask_bits i word]
  by_cases inside : 12 ≤ i ∧ i < 38
  · simp [inside]
  · have clear : v.getLsbD i = false := by
      rw [BitVec.getLsbD]
      by_cases low : i < 12
      · have zero : v.toNat % 2 ^ 12 = 0 := page.aligned
        have bit := Nat.testBit_mod_two_pow v.toNat 12 i
        rw [zero, Nat.zero_testBit, decide_eq_true low, Bool.true_and] at bit
        exact bit.symm
      · apply Nat.testBit_lt_two_pow
        have power : 2 ^ 30 ≤ 2 ^ i := Nat.pow_le_pow_right (by decide) (by omega)
        have inside := page.inside
        omega
    rw [clear, Bool.false_and]

theorem Visiting.scan (visiting : Visiting k j v m) (page : SpillPage row v) :
    rvTlbScan (m.cpus 0).tlb (rvTlbRow v) v ((rvSatpAsid (m.cpus 0)).setWidth 16) (rvSetfl .load) =
      none := by
  rw [rvTlbScan, List.findSome?_eq_none_iff]
  intro col _
  simp only [rvTlbProbe]
  split
  · rfl
  next valid =>
  have lower := visiting.below (rvTlbRow v) col (rvTlbRow_lt v) (by simpa using valid)
  have other : rvTlbMatch ((m.cpus 0).tlb.entries (rvTlbRow v * rvTlbColumns + col)) v
      ((rvSatpAsid (m.cpus 0)).setWidth 16) = false := by
    rw [rvTlbMatch, page.tag]
    have apart : ((m.cpus 0).tlb.entries (rvTlbRow v * rvTlbColumns + col)).vma &&& rvTlbVpnMask ≠ v :=
      BitVec.ne_of_lt lower
    simp [apart]
  simp [other]

theorem SpillPage.root (page : SpillPage row v) : rvPtePaddr 0 v 2 = 0 := by
  have inside := page.inside
  have index : (v / rvCpuPageSize) >>> (9 * 2) = 0 := by
    apply BitVec.eq_of_toNat_eq
    rw [BitVec.toNat_ushiftRight, BitVec.toNat_udiv, Nat.shiftRight_eq_div_pow]
    change v.toNat / 4096 / 2 ^ 18 = 0
    omega
  rw [rvPtePaddr, index]
  rfl

theorem Visiting.pmp (visiting : Visiting k j v m) (paddr size : U64) :
    rvPmpCheck (m.cpus 0) paddr size false = rvPmpCheck spillCpu paddr size false :=
  rvPmpCheck_congr (congrArg RvCsrState.pmpcfg visiting.csr)
    (congrArg RvCsrState.pmpaddr visiting.csr) paddr size false

theorem Visiting.leafEntry (visiting : Visiting k j v m) :
    rvLeafEntry (m.cpus 0) v spillPte 2 = spillEntry v := by
  simp only [spillEntry, rvLeafEntry, visiting.pmp, rvSatpAsid, visiting.csr]

theorem spillEntry_low (v : U64) :
    ∀ i < 8, (spillEntry v).pte.getLsbD i = spillPte.getLsbD i := by
  intro i low
  have page : i < rvPtePpnBaseBit := lt_trans low (by decide)
  simp [spillEntry, rvLeafEntry, page]

theorem spillEntry_granted (v : U64) :
    (spillEntry v).vma.getLsbD RvAccess.load.pmpBit = true := by
  have granted : (rvPmpCheck spillCpu (rvPtePpn spillPte * rvCpuPageSize) rvCpuPageSize
      false).getLsbD RvAccess.load.pmpBit = true := by
    decide +kernel
  simp only [spillEntry, rvLeafEntry, BitVec.getLsbD_or, BitVec.getLsbD_setWidth, granted]
  simp [RvAccess.pmpBit, rvPmpcfgRBit]

theorem Visiting.granted (visiting : Visiting k j v m) :
    checkAccess (m.cpus 0) (spillEntry v) .load = .ok := by
  have user : (spillEntry v).pte.getLsbD rvPteUBit = true := spillEntry_low v 4 (by decide)
  have read : (spillEntry v).pte.getLsbD RvAccess.load.pteBit = true :=
    spillEntry_low v 1 (by decide)
  simp only [checkAccess, visiting.level, user, read, spillEntry_granted]
  rfl

/-- The walk of the program's pages. -/
theorem Visiting.walk (visiting : Visiting k j v m) (page : SpillPage row v) :
    rvPagingRawLookup spillConfig m 0 v .load = ⟨.ok, m, spillEntry v⟩ := by
  have root : (m.cpus 0).csr.satp &&& rvSatpPpnMask = 0 := by
    rw [visiting.csr]
    decide +kernel
  have readable : (rvPmpCheck (m.cpus 0) 0 8 false).getLsbD rvPmpcfgRBit = true := by
    rw [visiting.pmp]
    decide +kernel
  have inRam : ramHoldsRange spillConfig 0 8 = true := by decide
  obtain ⟨res, machine, data⟩ := rvAccessPhys_load m 0 inRam
  have word : ramTable spillConfig m.ram 0 = spillPte := by
    rw [visiting.ram]
    decide +kernel
  rw [word] at data
  rw [rvPagingRawLookup, root, rvWalk]
  simp only [page.root, readable, res, machine, data, Option.getD_some, Bool.not_true,
    Bool.false_eq_true, if_false, ne_eq, not_true_eq_false]
  rw [if_neg (by decide), if_pos (by decide), rvWalkLeaf, if_neg (by decide)]
  simp only [visiting.leafEntry, visiting.granted, ne_eq, not_true_eq_false, if_false]
  rw [if_neg (by decide)]

/-- A lookup of the program misses, and its walk is stored. -/
theorem Visiting.lookup (visiting : Visiting k j v m) (page : SpillPage row v) :
    rvPagingLookup spillConfig m 0 v .load =
      ⟨.ok, m.setTlb 0 (rvTlbInsert (m.cpus 0).tlb (rvTlbRow v) (spillEntry v)).1, spillEntry v,
        .filled (rvTlbInsert (m.cpus 0).tlb (rvTlbRow v) (spillEntry v)).2⟩ := by
  have valid : (spillEntry v).pte.getLsbD rvPteVBit = true := spillEntry_low v 0 (by decide)
  simp only [rvPagingLookup, visiting.scan page, rvPagingMiss, visiting.walk page, valid]
  rfl

theorem SpillPage.translate (page : SpillPage row v) : rvTranslate (spillEntry v) v = v := by
  have aligned := page.aligned
  have inside := page.inside
  have unmarked : ∀ i, i ≠ 6 → i ≠ 7 → (0 : U64).getLsbD i = false :=
    fun _ _ _ => BitVec.getLsbD_zero
  have leaf := rvLeafEntry_ppn spillCpu v ⟨spillPte, 2⟩ (by decide) unmarked
  have orZero : ∀ x : U64, x ||| 0 = x := fun _ => BitVec.or_zero
  rw [orZero] at leaf
  have ppn : rvPtePpn (spillEntry v).pte = v >>> 12 := by
    rw [spillEntry, leaf]
    have root : rvPtePpn spillPte = 0#64 := by decide
    have mask : Leaf.offsetMask ⟨spillPte, 2⟩ = 0x3ffff#64 := by decide
    rw [root, mask, BitVec.zero_or]
    apply BitVec.eq_of_toNat_eq
    change (v >>> 12).toNat &&& (2 ^ 18 - 1) = _
    rw [Nat.and_two_pow_sub_one_eq_mod, BitVec.toNat_ushiftRight, Nat.shiftRight_eq_div_pow]
    omega
  have offset : v % rvCpuPageSize = 0 := by
    apply BitVec.eq_of_toNat_eq
    rw [BitVec.toNat_umod]
    exact aligned
  rw [rvTranslate, ppn, offset, orZero]
  apply BitVec.eq_of_toNat_eq
  change ((v >>> 12) <<< 12).toNat = _
  rw [BitVec.toNat_shiftLeft, BitVec.toNat_ushiftRight, Nat.shiftRight_eq_div_pow,
    Nat.shiftLeft_eq]
  omega

theorem Visiting.canonical (visiting : Visiting k j v m) (page : SpillPage row v) :
    rvIsCanonVaddr (m.cpus 0) v = true := by
  have inside := page.inside
  have mode : rvSatpMode (m.cpus 0).csr.satp = 8 := by
    rw [visiting.csr]
    decide +kernel
  have lifted : (v <<< 25).toNat = v.toNat * 2 ^ 25 := by
    rw [BitVec.toNat_shiftLeft, Nat.shiftLeft_eq]
    omega
  have positive : (v <<< 25).msb = false := by
    rw [BitVec.msb_eq_decide, lifted]
    exact decide_eq_false (by omega)
  have back : (v <<< 25).sshiftRight 25 = v := by
    rw [BitVec.sshiftRight_eq_of_msb_false positive]
    apply BitVec.eq_of_toNat_eq
    rw [BitVec.toNat_ushiftRight, lifted, Nat.shiftRight_eq_div_pow]
    omega
  simp [rvIsCanonVaddr, mode, back]

/-- An access to a page reads RAM after its lookup. -/
theorem Visiting.access (visiting : Visiting k j v m) (page : SpillPage row v) :
    ∃ value touched, hostAccessVirt spillConfig m 0 v 0 2 .load =
      ⟨.ok, (hostPagingLookup spillConfig m 0 v .load).machine, value, touched⟩ := by
  have paged : ¬rvIsBare (m.cpus 0) .load = true := by
    have mode : (rvSatpMode (m.cpus 0).csr.satp == 0) = false := by
      rw [visiting.csr]
      decide +kernel
    have level : rvEffPriv (m.cpus 0) .load = 0 := visiting.level
    rw [rvIsBare, level, mode]
    decide
  have aligned := page.aligned
  have inside := page.inside
  have samePage : ¬v / rvCpuPageSize ≠ (v + bit (2 : Fin 4).val - 1) / rvCpuPageSize := by
    rw [not_not]
    apply BitVec.eq_of_toNat_eq
    have last : (v + bit (2 : Fin 4).val - 1).toNat = v.toNat + 3 := by
      change (v + 4#64 - 1#64).toNat = _
      bv_omega
    rw [BitVec.toNat_udiv, BitVec.toNat_udiv, last]
    change v.toNat / 4096 = (v.toNat + 3) / 4096
    omega
  have found : (hostPagingLookup spillConfig m 0 v .load).res = .ok ∧
      (hostPagingLookup spillConfig m 0 v .load).entry = spillEntry v := by
    simp only [hostPagingLookup, visiting.lookup page]
    split <;> exact ⟨rfl, rfl⟩
  have inRam : ramHoldsRange spillConfig v (bit (2 : Fin 4).val) = true := by
    simp only [ramHoldsRange, Bool.and_eq_true, decide_eq_true_eq]
    change (0 : U64) ≤ v ∧ v + 4#64 ≤ 0x40000000#64
    constructor <;> bv_omega
  simp only [hostAccessVirt, rvAccessVirtBy, if_neg paged, visiting.canonical page,
    if_neg samePage, found.1, found.2, page.translate, Bool.not_true, Bool.false_eq_true, if_false,
    ne_eq, not_true_eq_false]
  simp only [rvAccessPhys, Bool.not_true, Bool.false_and, Bool.false_eq_true, if_false,
    rvAccessPhysUnchecked, if_pos inRam]
  exact ⟨_, _, ramTransfer_load (by decide) _ v 0 _⟩

theorem Visiting.load (visiting : Visiting k j v m) (page : SpillPage row v) :
    ∃ value, hostStep spillConfig m visitLoad =
      (hostPagingLookup spillConfig m 0 v .load).machine.writeXreg 0 3 value := by
  obtain ⟨value, touched, accessed⟩ := visiting.access page
  have operand : m.xreg 0 (rvInsnRs1 0x0000a183) + rvInsnImm12 0x0000a183 = v := by
    have offset : rvInsnImm12 0x0000a183 = 0#64 := by decide
    rw [offset, BitVec.add_zero]
    exact visiting.page
  have major : rvOpMajOf 0x0000a183 = some .load := by decide
  have size : rvLoadSizeExp (rvInsnFunct3 0x0000a183) = some 2 := by decide
  have int : (rvInsnOpMaj 0x0000a183).getLsbD 0 = false := by decide
  refine ⟨rvLoadExtend (rvInsnFunct3 0x0000a183) (value.getD 0), ?_⟩
  change rvForcefeedInsn spillConfig m 0 0x0000a183 (hostAccessVirt spillConfig) = _
  rw [rvForcefeedInsn, major]
  simp only [rvBaseLoad, rvFpAccessIllegal, int, Bool.false_and, Bool.false_eq_true, if_false, size,
    operand, accessed, ne_eq, not_true_eq_false]
  rfl

/-- A load that stores in the array. -/
theorem Visiting.load_inside (visiting : Visiting k j v m) (page : SpillPage row v)
    (inside : (rvTlbInsert (m.cpus 0).tlb row (spillEntry v)).2 < rvTlbSlots) :
    ∃ value, hostStep spillConfig m visitLoad =
      (m.setTlb 0 (rvTlbInsert (m.cpus 0).tlb row (spillEntry v)).1).writeXreg 0 3 value := by
  obtain ⟨value, loaded⟩ := visiting.load page
  refine ⟨value, ?_⟩
  rw [loaded]
  simp only [hostPagingLookup, visiting.lookup page, page.row_eq, if_pos inside]

theorem visitNext_step (m : EmuMachine Unit) :
    hostStep spillConfig m visitNext = m.writeXreg 0 1 (m.xreg 0 1 + m.xreg 0 2) := rfl

theorem visitLastRow_step (m : EmuMachine Unit) :
    hostStep spillConfig m visitLastRow = m.writeXreg 0 1 (m.xreg 0 1 + m.xreg 0 4) := rfl

end Lookup

/-! ### Visits -/

section Visits

variable {row k j k' j' : Nat} {v : U64} {m : EmuMachine Unit}

theorem Visiting.visit (visiting : Visiting k j v m) (page : SpillPage row v)
    (inside : (rvTlbInsert (m.cpus 0).tlb row (spillEntry v)).2 < rvTlbSlots)
    (first : (rvTlbInsert (m.cpus 0).tlb row (spillEntry v)).1.valid 0 = rowFilled k')
    (last : (rvTlbInsert (m.cpus 0).tlb row (spillEntry v)).1.valid 15 = rowFilled j')
    (column : (rvTlbInsert (m.cpus 0).tlb row (spillEntry v)).1.nextColumn =
      BitVec.ofNat 8 (k' - rvTlbColumns)) :
    Visiting k' j' (v + 0x10000) (run (hostStep spillConfig) m [visitLoad, visitNext]) := by
  obtain ⟨value, loaded⟩ := visiting.load_inside page inside
  have small := page.inside
  have further : v < v + 0x10000 := by
    change v < v + 0x10000#64
    bv_omega
  have moved : run (hostStep spillConfig) m [visitLoad, visitNext] =
      hostStep spillConfig (hostStep spillConfig m visitLoad) visitNext := rfl
  rw [moved, loaded, visitNext_step]
  constructor
  · exact visiting.ram
  · exact visiting.csr
  · exact visiting.privilege
  · exact visiting.level
  · change (m.cpus 0).xregs 1 + (m.cpus 0).xregs 2 = _
    rw [visiting.page, visiting.stride]
  · exact visiting.stride
  · exact visiting.lastRow
  · exact first
  · exact last
  · exact column
  · intro row' col' bound valid
    change ((rvTlbInsert (m.cpus 0).tlb row (spillEntry v)).1.entries (tlbSlot row' col')).vma &&&
      rvTlbVpnMask < _
    rcases rvTlbInsert_slots (m.cpus 0).tlb (spillEntry v) valid with ⟨_, new⟩ | ⟨_, old, kept⟩
    · rw [new, spillEntry, rvLeafEntry_tag, page.tag]
      exact further
    · rw [kept]
      exact BitVec.lt_trans (visiting.below row' col' bound old) further

theorem Visiting.visitFirst (visiting : Visiting k 0 v m) (page : SpillPage 0 v)
    (near : k < 240) :
    Visiting (k + 1) 0 (v + 0x10000) (run (hostStep spillConfig) m [visitLoad, visitNext]) := by
  by_cases room : k < rvTlbColumns
  · have inserted := rvTlbInsert_open (spillEntry v) visiting.first room
    have untouched : k + 1 - rvTlbColumns = k - rvTlbColumns := by
      rw [rvTlbColumns] at room ⊢
      omega
    apply visiting.visit page
    · rw [inserted, tlbSlot, rvTlbSlots, rvTlbRows]
      rw [rvTlbColumns] at room ⊢
      omega
    · rw [inserted]
      exact setValid_filled visiting.first room
    · rw [inserted]
      exact visiting.last
    · rw [inserted, untouched]
      exact visiting.column
  · have full := Nat.le_of_not_lt room
    have inserted := rvTlbInsert_full (spillEntry v) visiting.first full
    have column : (m.cpus 0).tlb.nextColumn.toNat = k - rvTlbColumns := by
      rw [visiting.column, BitVec.toNat_ofNat]
      omega
    apply visiting.visit page
    · rw [inserted, column, tlbSlot, rvTlbSlots, rvTlbRows]
      rw [rvTlbColumns] at full ⊢
      omega
    · rw [inserted]
      change (m.cpus 0).tlb.valid 0 = _
      rw [visiting.first, rowFilled_full full, rowFilled_full (Nat.le_succ_of_le full)]
    · rw [inserted]
      exact visiting.last
    · rw [inserted]
      change (m.cpus 0).tlb.nextColumn + 1 = _
      rw [visiting.column, Nat.succ_sub full]
      exact (BitVec.ofNat_add _ 1).symm

theorem Visiting.visitLast (visiting : Visiting k j v m) (page : SpillPage 15 v)
    (room : j < rvTlbColumns) :
    Visiting k (j + 1) (v + 0x10000) (run (hostStep spillConfig) m [visitLoad, visitNext]) := by
  have inserted := rvTlbInsert_open (spillEntry v) visiting.last room
  apply visiting.visit page
  · rw [inserted, tlbSlot, rvTlbSlots, rvTlbRows]
    rw [rvTlbColumns] at room ⊢
    omega
  · rw [inserted]
    exact visiting.first
  · rw [inserted]
    exact setValid_filled visiting.last room
  · rw [inserted]
    exact visiting.column

theorem SpillPage.next (page : SpillPage row v) (count : Nat)
    (inside : v.toNat + 0x10000 * count < 0x40000000) :
    SpillPage row (v + BitVec.ofNat 64 (0x10000 * count)) := by
  have place := page.place
  have moved : (v + BitVec.ofNat 64 (0x10000 * count)).toNat = v.toNat + 0x10000 * count := by
    rw [BitVec.toNat_add, BitVec.toNat_ofNat]
    omega
  constructor
  · rw [moved]
    omega
  · rw [moved]
    exact inside

theorem visitPages_succ (count : Nat) :
    visitPages (count + 1) = visitPages count ++ [visitLoad, visitNext] := by
  rw [visitPages, List.replicate_succ', List.flatten_append]
  rfl

theorem page_succ (v : U64) (count : Nat) :
    v + BitVec.ofNat 64 (0x10000 * (count + 1)) =
      v + BitVec.ofNat 64 (0x10000 * count) + 0x10000 := by
  rw [BitVec.add_assoc, Nat.mul_succ, BitVec.ofNat_add]
  rfl

/-- As many pages of the first row as one likes: all but the first 16 evict. -/
theorem Visiting.firstPages (visiting : Visiting 0 0 v m) (page : SpillPage 0 v) (count : Nat)
    (near : count ≤ 240) (inside : v.toNat + 0x10000 * count < 0x40000000) :
    Visiting count 0 (v + BitVec.ofNat 64 (0x10000 * count))
      (run (hostStep spillConfig) m (visitPages count)) := by
  induction count with
  | zero =>
      have here : v + BitVec.ofNat 64 0 = v := BitVec.add_zero v
      rw [Nat.mul_zero, here]
      exact visiting
  | succ count ih =>
      rw [visitPages_succ, run_append, page_succ]
      have before : v.toNat + 0x10000 * count < 0x40000000 := by omega
      exact (ih (Nat.le_of_succ_le near) before).visitFirst (page.next count before) near

theorem Visiting.lastPages (visiting : Visiting k 0 v m) (page : SpillPage 15 v) (count : Nat)
    (room : count ≤ rvTlbColumns) (inside : v.toNat + 0x10000 * count < 0x40000000) :
    Visiting k count (v + BitVec.ofNat 64 (0x10000 * count))
      (run (hostStep spillConfig) m (visitPages count)) := by
  induction count with
  | zero =>
      have here : v + BitVec.ofNat 64 0 = v := BitVec.add_zero v
      rw [Nat.mul_zero, here]
      exact visiting
  | succ count ih =>
      rw [visitPages_succ, run_append, page_succ]
      have before : v.toNat + 0x10000 * count < 0x40000000 := by omega
      exact (ih (Nat.le_of_succ_le room) before).visitLast (page.next count before) room

theorem Visiting.hop (visiting : Visiting k j v m) (small : v.toNat < 0x40000000) :
    Visiting k j (v + 0xf000) (hostStep spillConfig m visitLastRow) := by
  have further : v < v + 0xf000 := by
    change v < v + 0xf000#64
    bv_omega
  rw [visitLastRow_step]
  constructor
  · exact visiting.ram
  · exact visiting.csr
  · exact visiting.privilege
  · exact visiting.level
  · change (m.cpus 0).xregs 1 + (m.cpus 0).xregs 4 = _
    rw [visiting.page, visiting.lastRow]
  · exact visiting.stride
  · exact visiting.lastRow
  · exact visiting.first
  · exact visiting.last
  · exact visiting.column
  · intro row col bound valid
    exact BitVec.lt_trans (visiting.below row col bound valid) further

/-! ### The overrun -/

/-- A store in the tail of `struct rv_cpu` goes to two words of the core that evicts. -/
theorem rvTlbOverrun_tail {δ : Type} (mc : EmuConfig δ) (m : EmuMachine δ) (h : Nat) {n : Nat}
    (entry : RvTlbEntry) (tail : n < rvCpuTailSlots) :
    ∃ tlb, (rvTlbOverrun mc m h (rvTlbSlots + n) entry).cpus h =
      (({ m.cpus h with tlb := tlb } : RvCpu).putWord (2 * n) entry.vma).putWord (2 * n + 1)
        entry.pte := by
  have past : rvTlbSlots + n - rvTlbSlots = n := Nat.add_sub_cancel_left _ _
  simp only [rvTlbOverrun, past, if_pos tail, EmuMachine.setTlb, EmuMachine.setCpu_same]
  exact ⟨_, rfl⟩

theorem Visiting.overrun (visiting : Visiting k rvTlbColumns v m) (page : SpillPage 15 v)
    (low : 32 ≤ k) (high : k < 120) :
    ∃ (cpu : RvCpu) (value : U64), (hostStep spillConfig m visitLoad).cpus 0 =
        rvXregWrite ((cpu.putWord (2 * (k - 32)) (spillEntry v).vma).putWord (2 * (k - 32) + 1)
          (spillEntry v).pte) 3 value ∧
      cpu.csr = spillCpu.csr ∧ cpu.privilege = 0 ∧ cpu.memPrivilege = 0 := by
  obtain ⟨value, loaded⟩ := visiting.load page
  have inserted := rvTlbInsert_full (spillEntry v) visiting.last (Nat.le_refl _)
  have column : (m.cpus 0).tlb.nextColumn.toNat = k - 16 := by
    rw [visiting.column, BitVec.toNat_ofNat]
    exact Nat.mod_eq_of_lt (by omega)
  have slot : tlbSlot 15 (m.cpus 0).tlb.nextColumn.toNat = rvTlbSlots + (k - 32) := by
    rw [column, tlbSlot, rvTlbSlots, rvTlbRows, rvTlbColumns]
    omega
  have past : ¬rvTlbSlots + (k - 32) < rvTlbSlots := by omega
  have looked : (hostPagingLookup spillConfig m 0 v .load).machine =
      rvTlbOverrun spillConfig (m.setTlb 0
        (rvTlbInsert (m.cpus 0).tlb 15 (spillEntry v)).1) 0 (rvTlbSlots + (k - 32))
        (spillEntry v) := by
    simp only [hostPagingLookup, visiting.lookup page, page.row_eq, inserted, slot, if_neg past]
  obtain ⟨tlb, stored⟩ := rvTlbOverrun_tail spillConfig
    (m.setTlb 0 (rvTlbInsert (m.cpus 0).tlb 15 (spillEntry v)).1) 0 (spillEntry v)
    (by rw [rvCpuTailSlots]; omega : k - 32 < rvCpuTailSlots)
  rw [loaded, looked, EmuMachine.writeXreg, EmuMachine.setCpu_same, stored]
  exact ⟨_, value, rfl, visiting.csr, visiting.privilege, visiting.level⟩

/-- After `k` pages of row 0 the program's last load overwrites two words of the core with
the tag and the PTE of its page, in U-mode and with all else as it was. -/
theorem spill_overrun (k : Nat) (low : 32 ≤ k) (high : k < 120) :
    ∃ (cpu : RvCpu) (value : U64), (run (hostStep spillConfig) spillStart (spillVisits k)).cpus 0 =
        rvXregWrite ((cpu.putWord (2 * (k - 32)) (spillEntry (spillPage k)).vma).putWord
          (2 * (k - 32) + 1) (spillEntry (spillPage k)).pte) 3 value ∧
      cpu.csr = spillCpu.csr ∧ cpu.privilege = 0 ∧ cpu.memPrivilege = 0 := by
  have start : SpillPage 0 0x40000 := ⟨by decide, by decide⟩
  have first := spillStart_visiting.firstPages start k (by omega) (by
    change 0x40000 + 0x10000 * k < _
    omega)
  have moved : (0x40000 + BitVec.ofNat 64 (0x10000 * k) : U64).toNat = 0x40000 + 0x10000 * k := by
    bv_omega
  have hopped := first.hop (by omega)
  have page : SpillPage 15 (0x40000 + BitVec.ofNat 64 (0x10000 * k) + 0xf000) := by
    constructor
    · bv_omega
    · bv_omega
  have filled := hopped.lastPages page rvTlbColumns (Nat.le_refl _) (by
    rw [rvTlbColumns]
    bv_omega)
  have lastPage := page.next rvTlbColumns (by
    rw [rvTlbColumns]
    bv_omega)
  have same : 0x40000 + BitVec.ofNat 64 (0x10000 * k) + 0xf000 +
      BitVec.ofNat 64 (0x10000 * rvTlbColumns) = spillPage k := by
    rw [spillPage, rvTlbColumns]
    bv_omega
  rw [same] at filled lastPage
  rw [spillVisits, run_append, run_cons, run_append, run_cons, run_nil]
  exact filled.overrun lastPage low high

/-- 68 pages lead to `mstatus`, where the PTE sets MPRV. -/
theorem spill_mstatus :
    ((run (hostStep spillConfig) spillStart (spillVisits 68)).cpus 0).csr.mstatus =
        (spillEntry (spillPage 68)).pte ∧
      ((run (hostStep spillConfig) spillStart (spillVisits 68)).cpus 0).csr.medeleg = 0 ∧
      ((run (hostStep spillConfig) spillStart (spillVisits 68)).cpus 0).privilege = 0 := by
  obtain ⟨cpu, value, stored, csr, level, _⟩ := spill_overrun 68 (by decide) (by decide)
  have medeleg : spillCpu.csr.medeleg = 0 := by decide +kernel
  rw [stored, rvXregWrite_csr]
  refine ⟨rfl, ?_, ?_⟩
  · change cpu.csr.medeleg = 0
    rw [csr, medeleg]
  · change cpu.privilege = 0
    exact level

/-- 73 pages lead to `pmpcfg`, where the tag has another byte than M-mode locked. -/
theorem spill_pmpcfg :
    ((run (hostStep spillConfig) spillStart (spillVisits 73)).cpus 0).csr.pmpcfgUnpacked 0 =
      (spillEntry (spillPage 73)).vma.setWidth 8 := by
  obtain ⟨cpu, value, stored, _⟩ := spill_overrun 73 (by decide) (by decide)
  rw [stored, rvXregWrite_csr]
  rfl

end Visits

end Riscmulator
