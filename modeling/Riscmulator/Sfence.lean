import Riscmulator.TlbHistory
import Riscmulator.Base

/-! What `sfence.vma` leaves in the TLB. -/

namespace Riscmulator

open Transition

variable {δ : Type}

/-! ### Leaf entries in memory -/

/-- The walk of `rv_paging_raw_lookup` up to the leaf, with the physical address
of the leaf's entry. -/
def rvFindLeafAt (mc : EmuConfig δ) (h : Nat) (vaddr : U64) :
    Nat → EmuMachine δ → U64 → Option (U64 × Leaf)
  | 0, _, _ => none
  | level + 1, m, ppn =>
      let out := rvAccessPhys mc m h (rvPtePaddr ppn vaddr level) 0 3 .load true
      let pte := out.data.getD 0
      if out.res ≠ .ok then none
      else if !pte.getLsbD rvPteVBit then none
      else if (pte &&& rvPteRwxMask) ≠ 0 then some (rvPtePaddr ppn vaddr level, ⟨pte, level⟩)
      else rvFindLeafAt mc h vaddr level out.machine (rvPtePpn pte)

theorem rvFindLeafAt_leaf (mc : EmuConfig δ) (h : Nat) (vaddr : U64) (level : Nat)
    (m : EmuMachine δ) (ppn : U64) :
    (rvFindLeafAt mc h vaddr level m ppn).map Prod.snd = rvFindLeaf mc h vaddr level m ppn := by
  induction level generalizing m ppn with
  | zero => rfl
  | succ level ih =>
      simp only [rvFindLeafAt, rvFindLeaf]
      split_ifs
      · rfl
      · rfl
      · rfl
      · exact ih _ _

/-- The leaf that `vaddr` has in the tables which a lookup walked, and its address. -/
def TlbLookup.leafAt (mc : EmuConfig δ) (h : Nat) (l : TlbLookup δ) (vaddr : U64) :
    Option (U64 × Leaf) :=
  rvFindLeafAt mc h vaddr 3 (rvTlbDropped l.machine h l.vaddr l.mode)
    ((l.machine.cpus h).csr.satp &&& rvSatpPpnMask)

/-- Bits 63:39 are copies of bit 38. -/
def VaddrCanonical (vaddr : U64) : Prop := (vaddr <<< 25).sshiftRight 25 = vaddr

instance (vaddr : U64) : Decidable (VaddrCanonical vaddr) := inferInstanceAs (Decidable (_ = _))

/-- When the lookup was made, the leaf entry that it found also mapped `vaddr`. -/
def TlbLookup.SharesLeaf (mc : EmuConfig δ) (h : Nat) (l : TlbLookup δ) (vaddr : U64) : Prop :=
  VaddrCanonical vaddr ∧ ∃ paddr leaf leaf', l.leafAt mc h l.vaddr = some (paddr, leaf) ∧
    l.leafAt mc h vaddr = some (paddr, leaf') ∧ leaf'.Aligned

/-- The lookup walked under this ASID, and its leaf was not global. -/
def TlbLookup.Local (mc : EmuConfig δ) (h : Nat) (l : TlbLookup δ) (asid : U16) : Prop :=
  (l.machine.cpus h).satpAsid = asid ∧
    ∃ leaf, lookupLeaf mc h l.machine l.vaddr l.mode = some leaf ∧
      leaf.pte.getLsbD rvPteGBit = false

/-! ### The instruction -/

/-- The word is an `sfence.vma` that the core may execute. -/
structure SfenceExecutes (cpu : RvCpu) (insn : U32) : Prop where
  funct3 : rvInsnFunct3 insn = 0
  funct7 : insn >>> 25 = 0x09
  legal : rvSupervisorIllegal cpu rvStatusTvmBit = false

def sfenceVaddr (cpu : RvCpu) (insn : U32) : U64 := rvXregRead cpu (rvInsnRs1 insn)

def sfenceAsid (cpu : RvCpu) (insn : U32) : U16 :=
  (rvXregRead cpu (rvInsnRs2 insn)).setWidth 16

/-- The fence has to drop the entry that the lookup stored. -/
def MustDrop (mc : EmuConfig δ) (h : Nat) (cpu : RvCpu) (insn : U32) (l : TlbLookup δ) : Prop :=
  (rvInsnRs1 insn ≠ 0 → l.SharesLeaf mc h (sfenceVaddr cpu insn)) ∧
    (rvInsnRs2 insn ≠ 0 → l.Local mc h (sfenceAsid cpu insn))

/-- After the fence, no lookup on its TLB hits an entry that had to be dropped. -/
def SfenceComplete (mc : EmuConfig δ) (h : Nat) (s : VmRun δ) (insn : U32) : Prop :=
  ∀ m : EmuMachine δ, (m.cpus h).tlb = ((rvBaseSystem mc s.machine h insn).cpus h).tlb →
    ∀ vaddr mode slot, (rvPagingLookup mc m h vaddr mode).path = .hit slot →
      ¬MustDrop mc h (s.machine.cpus h) insn (s.fills slot)

/-- The condition on a fence by address: the entries to be dropped that lookups
could hit before it were all filled for addresses in the operand's own page of
4 KiB, as bits 37:12 tell it. -/
def SfenceOwnPage (mc : EmuConfig δ) (h : Nat) (s : VmRun δ) (insn : U32) : Prop :=
  rvInsnRs1 insn ≠ 0 → ∀ m : EmuMachine δ, (m.cpus h).tlb = (s.machine.cpus h).tlb →
    ∀ vaddr mode slot, (rvPagingLookup mc m h vaddr mode).path = .hit slot →
      MustDrop mc h (s.machine.cpus h) insn (s.fills slot) →
        (s.fills slot).vaddr &&& rvTlbVpnMask =
          sfenceVaddr (s.machine.cpus h) insn &&& rvTlbVpnMask

theorem rvBaseSystem_sfence {mc : EmuConfig δ} {m : EmuMachine δ} {h : Nat} {insn : U32}
    (executes : SfenceExecutes (m.cpus h) insn) :
    rvBaseSystem mc m h insn = m.setCpu h (rvSfenceVma (m.cpus h) insn) := by
  have other : ∀ word : U32, word >>> 25 ≠ 0x09 → insn ≠ word := by
    rintro word apart rfl
    exact apart executes.funct7
  have mret := other 0x30200073 (by decide)
  have sret := other 0x10200073 (by decide)
  have wfi := other 0x10500073 (by decide)
  simp only [rvBaseSystem, executes.funct3, executes.funct7, executes.legal, mret, sret, wfi, ne_eq,
    not_true, false_and, if_false, if_true, Bool.false_eq_true]

/-! ### What each form drops -/

theorem rvTlbRow_eq (vaddr : U64) : rvTlbRow vaddr = (vaddr >>> 12).toNat % 2 ^ 4 := by
  rw [rvTlbRow, div_pageSize, BitVec.toNat_umod]
  rfl

/-- Addresses with the same bits 37:12 are in the same row. -/
theorem rvTlbRow_of_tag {vaddr vaddr' : U64}
    (same : vaddr &&& rvTlbVpnMask = vaddr' &&& rvTlbVpnMask) : rvTlbRow vaddr = rvTlbRow vaddr' := by
  have bits := (vpnTag_eq_iff vaddr vaddr').mp same
  rw [rvTlbRow_eq, rvTlbRow_eq]
  apply Nat.eq_of_testBit_eq
  intro i
  rw [Nat.testBit_mod_two_pow, Nat.testBit_mod_two_pow, BitVec.testBit_toNat, BitVec.testBit_toNat,
    BitVec.getLsbD_ushiftRight, BitVec.getLsbD_ushiftRight]
  by_cases inside : i < 4
  · rw [bits (12 + i) (by omega) (by omega)]
  · simp [inside]

theorem rvTlbAsidMask_bits :
    ∀ i < 64, rvTlbAsidMask.getLsbD i = decide (rvTlbAsidBaseBit ≤ i) := by decide

theorem entryAsid_bits (entry : RvTlbEntry) {i : Nat} (low : i < 16) :
    entry.asid.getLsbD i = entry.vma.getLsbD (rvTlbAsidBaseBit + i) := by
  have mask : rvTlbAsidMask.getLsbD (rvTlbAsidBaseBit + i) = true := by
    rw [rvTlbAsidMask_bits _ (by rw [rvTlbAsidBaseBit]; omega)]
    exact decide_eq_true (Nat.le_add_right _ _)
  simp only [RvTlbEntry.asid, BitVec.getLsbD_setWidth, BitVec.getLsbD_ushiftRight,
    BitVec.getLsbD_and, mask, low, decide_true, Bool.true_and, Bool.and_true]

/-- The tag test of a fence by address and ASID. -/
theorem sfenceTag_iff (entry : RvTlbEntry) (vaddr : U64) (asid : U16) :
    entry.vma &&& (rvTlbVpnMask ||| rvTlbAsidMask) =
        (vaddr &&& rvTlbVpnMask) ||| (asid.setWidth 64 <<< rvTlbAsidBaseBit) ↔
      entry.vma &&& rvTlbVpnMask = vaddr &&& rvTlbVpnMask ∧ entry.asid = asid := by
  have fits : rvTlbAsidBaseBit + 16 ≤ 64 := by decide
  constructor
  · intro same
    have bits : ∀ i, (entry.vma &&& (rvTlbVpnMask ||| rvTlbAsidMask)).getLsbD i =
        ((vaddr &&& rvTlbVpnMask) ||| (asid.setWidth 64 <<< rvTlbAsidBaseBit)).getLsbD i :=
      fun i => congrArg (fun word => word.getLsbD i) same
    simp only [BitVec.getLsbD_and, BitVec.getLsbD_or, BitField.getLsbD_shiftField asid fits] at bits
    constructor
    · rw [vpnTag_eq_iff]
      intro i above below
      have page : rvTlbVpnMask.getLsbD i = true := by
        rw [rvTlbVpnMask_bits i (by omega)]
        exact decide_eq_true ⟨above, below⟩
      have notAsid : ¬rvTlbAsidBaseBit ≤ i := by
        rw [rvTlbAsidBaseBit]
        omega
      simpa [page, notAsid] using bits i
    · apply BitVec.eq_of_getLsbD_eq
      intro i low
      have word : rvTlbAsidBaseBit + i < 64 := by
        rw [rvTlbAsidBaseBit]
        omega
      have notPage := rvTlbVpnMask_high _ word (Nat.le_add_right _ _)
      have isAsid : rvTlbAsidMask.getLsbD (rvTlbAsidBaseBit + i) = true := by
        rw [rvTlbAsidMask_bits _ word]
        exact decide_eq_true (Nat.le_add_right _ _)
      rw [entryAsid_bits entry low]
      simpa [notPage, isAsid] using bits (rvTlbAsidBaseBit + i)
  · intro both
    rcases both with ⟨tag, rfl⟩
    apply BitVec.eq_of_getLsbD_eq
    intro i word
    rw [← tag, BitVec.getLsbD_or, BitField.getLsbD_shiftField _ fits, BitVec.getLsbD_and,
      BitVec.getLsbD_and, BitVec.getLsbD_or, rvTlbAsidMask_bits i word]
    by_cases above : rvTlbAsidBaseBit ≤ i
    · have position : rvTlbAsidBaseBit + (i - rvTlbAsidBaseBit) = i := Nat.add_sub_of_le above
      have low : i - rvTlbAsidBaseBit < 16 := by
        rw [rvTlbAsidBaseBit] at above ⊢
        omega
      rw [entryAsid_bits entry low, position, rvTlbVpnMask_high i word above]
      simp [above]
    · simp [above]

/-- A fence by address drops the entries of the row with the address's tag. -/
theorem isValid_rvInvalTlbVaddr (cpu : RvCpu) (vaddr : U64) (asid : U16) (withAsid : Bool)
    {row col : Nat} (bound : row < rvTlbRows) (column : col < rvTlbColumns) :
    (rvInvalTlbVaddr cpu vaddr asid withAsid).tlb.isValid row col = true ↔
      cpu.tlb.isValid row col = true ∧
        ¬(row = rvTlbRow vaddr ∧
          (cpu.tlb.entries (tlbSlot row col)).vma &&& rvTlbVpnMask = vaddr &&& rvTlbVpnMask ∧
          (withAsid = true → (cpu.tlb.entries (tlbSlot row col)).asid = asid)) := by
  simp only [rvInvalTlbVaddr, isValid_dropWhere _ _ _ bound, column, decide_true, Bool.true_and,
    Bool.and_eq_true, Bool.not_eq_true', Bool.and_eq_false_iff, beq_eq_false_iff_ne]
  apply and_congr_right
  intro _
  cases withAsid with
  | false => simp [tlbSlot, imp_iff_not_or]
  | true => simp [tlbSlot, imp_iff_not_or, sfenceTag_iff]

/-- A fence by ASID leaves no entry of that ASID. -/
theorem isValid_rvInvalTlbAsid {cpu : RvCpu} {asid : U16} {row col : Nat} (bound : row < rvTlbRows)
    (column : col < rvTlbColumns) (valid : (rvInvalTlbAsid cpu asid).tlb.isValid row col = true) :
    (cpu.tlb.entries (tlbSlot row col)).asid ≠ asid := by
  simp only [rvInvalTlbAsid, isValid_dropWhere _ _ _ bound, column, decide_true, Bool.true_and,
    Bool.and_eq_true, Bool.not_eq_true', beq_eq_false_iff_ne] at valid
  exact valid.2

/-- A scan reads the valid bits of the columns whose tag matches. -/
theorem rvTlbScan_congr {tlb tlb' : RvTlb} {row : Nat} {vaddr : U64} {asid : U16} {setfl : U64}
    (entries : tlb'.entries = tlb.entries)
    (valid : ∀ col < rvTlbColumns, rvTlbMatch (tlb.entries (tlbSlot row col)) vaddr asid = true →
      tlb'.isValid row col = tlb.isValid row col) :
    rvTlbScan tlb' row vaddr asid setfl = rvTlbScan tlb row vaddr asid setfl := by
  have probe : ∀ col < rvTlbColumns,
      rvTlbProbe tlb' row vaddr asid setfl col = rvTlbProbe tlb row vaddr asid setfl col := by
    intro col column
    simp only [rvTlbProbe, entries]
    by_cases matched : rvTlbMatch (tlb.entries (tlbSlot row col)) vaddr asid = true
    · rw [valid col column matched]
    · have other : (!rvTlbMatch (tlb.entries (row * rvTlbColumns + col)) vaddr asid) = true := by
        simpa [tlbSlot] using matched
      simp only [other, if_true, ite_self]
  have scanned : ∀ cols : List Nat, (∀ col ∈ cols, col < rvTlbColumns) →
      cols.findSome? (rvTlbProbe tlb' row vaddr asid setfl) =
        cols.findSome? (rvTlbProbe tlb row vaddr asid setfl) := by
    intro cols inside
    induction cols with
    | nil => rfl
    | cons first cols ih =>
        rw [List.findSome?_cons, List.findSome?_cons, probe first (inside first List.mem_cons_self),
          ih fun col member => inside col (List.mem_cons_of_mem first member)]
  exact scanned _ fun col member => List.mem_range.mp member

/-! ### Survivors -/

/-- Without Sv39 the TLB is empty. -/
def EmptyWhenOff (cpu : RvCpu) : Prop := rvSatpMode cpu.csr.satp = 8 ∨ cpu.tlb.Empty

section Survivors

variable {mc : EmuConfig δ} {h : Nat} {s : VmRun δ} {insn : U32}

/-- A lookup on the TLB that the fence leaves hits a valid slot of it. -/
theorem sfence_hit (executes : SfenceExecutes (s.machine.cpus h) insn) {m : EmuMachine δ}
    (same : (m.cpus h).tlb = ((rvBaseSystem mc s.machine h insn).cpus h).tlb) {vaddr : U64}
    {mode : RvAccess} {slot : Nat} (path : (rvPagingLookup mc m h vaddr mode).path = .hit slot) :
    ∃ col < rvTlbColumns, slot = tlbSlot (rvTlbRow vaddr) col ∧
      (rvSfenceVma (s.machine.cpus h) insn).tlb.isValid (rvTlbRow vaddr) col = true := by
  rcases rvPagingLookup_path.mp path with ⟨col, scanned, rfl⟩
  obtain ⟨column, valid, _⟩ := rvTlbScan_hit scanned
  rw [same, rvBaseSystem_sfence executes, EmuMachine.setCpu_same] at valid
  exact ⟨col, column, rfl, valid⟩

theorem rvSfenceVma_slots (cpu : RvCpu) (insn : U32) :
    (rvSfenceVma cpu insn).tlb.entries = cpu.tlb.entries ∧
      ∀ row col, (rvSfenceVma cpu insn).tlb.isValid row col = true →
        cpu.tlb.isValid row col = true :=
  rvInvalTlb_slots cpu _ _ _ _

/-- The entry that a lookup under an ASID stored has that ASID. -/
theorem TlbLookup.Local.entryAsid {l : TlbLookup δ} {asid : U16} (ofAsid : l.Local mc h asid)
    {slot : Nat} {leaf : Leaf} {entry : RvTlbEntry} (fills : l.Fills mc h slot leaf entry) :
    entry.asid = asid := by
  rw [fills.found.asid]
  exact ofAsid.1

theorem TlbLookup.Fills.tag {l : TlbLookup δ} {slot : Nat} {leaf : Leaf} {entry : RvTlbEntry}
    (fills : l.Fills mc h slot leaf entry) :
    entry.vma &&& rvTlbVpnMask = l.vaddr &&& rvTlbVpnMask := by
  rw [fills.found.vma]
  exact rvLeafEntry_tag _ _ _ _

/-- The forms without an address are complete. -/
theorem sfenceComplete_noVaddr (holds : HistoryHolds mc h s)
    (executes : SfenceExecutes (s.machine.cpus h) insn) (noVaddr : rvInsnRs1 insn = 0) :
    SfenceComplete mc h s insn := by
  intro m same vaddr mode slot path must
  rcases sfence_hit executes same path with ⟨col, column, rfl, valid⟩
  by_cases noAsid : rvInsnRs2 insn = 0
  · have flushed : rvSfenceVma (s.machine.cpus h) insn = rvFlushTlb (s.machine.cpus h) := by
      simp [rvSfenceVma, rvInvalTlb, noVaddr, noAsid]
    rw [flushed, rvFlushTlb_empty _ _ _ (rvTlbRow_lt vaddr)] at valid
    cases valid
  · have byAsid : rvSfenceVma (s.machine.cpus h) insn =
        rvInvalTlbAsid (s.machine.cpus h) (sfenceAsid (s.machine.cpus h) insn) := by
      simp only [rvSfenceVma, rvInvalTlb, ne_eq, noVaddr, noAsid, not_true, not_false_eq_true,
        decide_false, decide_true, Bool.false_and, Bool.false_eq_true, if_false, if_true, sfenceAsid]
    have before := (rvSfenceVma_slots (s.machine.cpus h) insn).2 _ _ valid
    rcases holds _ _ (rvTlbRow_lt vaddr) before with ⟨leaf, fills⟩
    rw [byAsid] at valid
    exact isValid_rvInvalTlbAsid (rvTlbRow_lt vaddr) column valid ((must.2 noAsid).entryAsid fills)

/-- What a fence by a canonical address leaves under Sv39. -/
theorem isValid_sfenceVaddr (withVaddr : rvInsnRs1 insn ≠ 0)
    (canonical : rvIsCanonVaddr (s.machine.cpus h) (sfenceVaddr (s.machine.cpus h) insn) = true)
    {row col : Nat} (bound : row < rvTlbRows) (column : col < rvTlbColumns) :
    (rvSfenceVma (s.machine.cpus h) insn).tlb.isValid row col = true ↔
      (s.machine.cpus h).tlb.isValid row col = true ∧
        ¬(row = rvTlbRow (sfenceVaddr (s.machine.cpus h) insn) ∧
          ((s.machine.cpus h).tlb.entries (tlbSlot row col)).vma &&& rvTlbVpnMask =
            sfenceVaddr (s.machine.cpus h) insn &&& rvTlbVpnMask ∧
          (rvInsnRs2 insn ≠ 0 → ((s.machine.cpus h).tlb.entries (tlbSlot row col)).asid =
            sfenceAsid (s.machine.cpus h) insn)) := by
  have byVaddr : rvSfenceVma (s.machine.cpus h) insn =
      rvInvalTlbVaddr (s.machine.cpus h) (sfenceVaddr (s.machine.cpus h) insn)
        (sfenceAsid (s.machine.cpus h) insn) (rvInsnRs2 insn ≠ 0) := by
    rw [sfenceVaddr] at canonical
    simp only [rvSfenceVma, rvInvalTlb, canonical, withVaddr, sfenceVaddr, sfenceAsid, ne_eq,
      not_false_eq_true, decide_true, Bool.not_true, Bool.and_false, Bool.false_eq_true, if_false,
      if_true]
  rw [byVaddr, isValid_rvInvalTlbVaddr _ _ _ _ bound column]
  simp only [decide_eq_true_eq]

/-- A fence by address spares the lookups of other pages. -/
theorem lookup_sfence_iff (withVaddr : rvInsnRs1 insn ≠ 0) (m m' : EmuMachine δ)
    (before : (m.cpus h).tlb = (s.machine.cpus h).tlb) (csr : (m'.cpus h).csr = (m.cpus h).csr)
    (after : (m'.cpus h).tlb = (rvSfenceVma (s.machine.cpus h) insn).tlb) {vaddr : U64}
    {mode : RvAccess}
    (apart : vaddr &&& rvTlbVpnMask ≠ sfenceVaddr (s.machine.cpus h) insn &&& rvTlbVpnMask)
    (slot : Nat) : (rvPagingLookup mc m' h vaddr mode).path = .hit slot ↔
      (rvPagingLookup mc m h vaddr mode).path = .hit slot := by
  have entries : (m'.cpus h).tlb.entries = (m.cpus h).tlb.entries := by
    rw [after, before]
    exact (rvSfenceVma_slots (s.machine.cpus h) insn).1
  have asid : rvSatpAsid (m'.cpus h) = rvSatpAsid (m.cpus h) := by rw [rvSatpAsid, csr, ← rvSatpAsid]
  have scan : rvTlbScan (m'.cpus h).tlb (rvTlbRow vaddr) vaddr
      ((rvSatpAsid (m'.cpus h)).setWidth 16) (rvSetfl mode) =
      rvTlbScan (m.cpus h).tlb (rvTlbRow vaddr) vaddr ((rvSatpAsid (m.cpus h)).setWidth 16)
        (rvSetfl mode) := by
    rw [asid]
    apply rvTlbScan_congr entries
    intro col column matched
    simp only [rvTlbMatch, Bool.and_eq_true, beq_iff_eq] at matched
    rw [after, before]
    rw [before] at matched
    by_cases canonical :
        rvIsCanonVaddr (s.machine.cpus h) (sfenceVaddr (s.machine.cpus h) insn) = true
    · rw [Bool.eq_iff_iff,
        isValid_sfenceVaddr withVaddr canonical (rvTlbRow_lt vaddr) column]
      apply and_iff_left
      rintro ⟨_, tag, _⟩
      exact apart (matched.1.symm.trans tag)
    · have unchanged : rvSfenceVma (s.machine.cpus h) insn = s.machine.cpus h := by
        rw [sfenceVaddr] at canonical
        simp only [rvSfenceVma, rvInvalTlb, canonical, withVaddr, ne_eq, not_false_eq_true,
          decide_true, Bool.not_false, Bool.and_true, if_true]
      rw [unchanged]
  simp only [rvPagingLookup_path, TlbHits, scan]

/-- A lookup for the page of the fence's address hits no entry that the fence had
to drop. -/
theorem sfenceVaddr_tag (holds : HistoryHolds mc h s) (off : EmptyWhenOff (s.machine.cpus h))
    (executes : SfenceExecutes (s.machine.cpus h) insn) (withVaddr : rvInsnRs1 insn ≠ 0)
    {m : EmuMachine δ} (same : (m.cpus h).tlb = ((rvBaseSystem mc s.machine h insn).cpus h).tlb)
    {vaddr : U64} {mode : RvAccess} {slot : Nat}
    (path : (rvPagingLookup mc m h vaddr mode).path = .hit slot)
    (must : MustDrop mc h (s.machine.cpus h) insn (s.fills slot)) :
    vaddr &&& rvTlbVpnMask ≠ sfenceVaddr (s.machine.cpus h) insn &&& rvTlbVpnMask := by
  intro page
  have tag := (rvPagingLookup_path.mp path).tag
  rcases sfence_hit executes same path with ⟨col, column, rfl, valid⟩
  obtain ⟨entries, wasValid⟩ := rvSfenceVma_slots (s.machine.cpus h) insn
  have before := wasValid _ _ valid
  rw [same, rvBaseSystem_sfence executes, EmuMachine.setCpu_same, entries, page] at tag
  have canonical :
      rvIsCanonVaddr (s.machine.cpus h) (sfenceVaddr (s.machine.cpus h) insn) = true := by
    rcases off with sv39 | empty
    · simp only [rvIsCanonVaddr, Bool.and_eq_true, beq_iff_eq]
      exact ⟨sv39, (must.1 withVaddr).1⟩
    · rw [empty _ _ (rvTlbRow_lt vaddr)] at before
      cases before
  rcases holds _ _ (rvTlbRow_lt vaddr) before with ⟨leaf, fills⟩
  rw [isValid_sfenceVaddr withVaddr canonical (rvTlbRow_lt vaddr) column] at valid
  exact valid.2 ⟨rvTlbRow_of_tag page, tag, fun withAsid => (must.2 withAsid).entryAsid fills⟩

end Survivors

/-! ### Reachable TLBs -/

/-- `rv_access_virt` looks up canonical addresses only. -/
def LooksUpCanon (h : Nat) (s : VmRun δ) : VmEvent δ → Prop
  | .lookup vaddr _ => rvIsCanonVaddr (s.machine.cpus h) vaddr = true
  | _ => True

/-- A lookup that stores an entry stores it in a slot of the array. -/
def VmStoresInArray (mc : EmuConfig δ) (h : Nat) (s : VmRun δ) : VmEvent δ → Prop
  | .lookup vaddr mode => ∀ slot,
      (rvPagingLookup mc s.machine h vaddr mode).path = .filled slot → slot < rvTlbSlots
  | _ => True

/-- A state that the TLB of hart `h` reaches from empty, with no store past its array. -/
def VmReached (mc : EmuConfig δ) (h : Nat) (s : VmRun δ) : Prop :=
  ∃ start events, (start.machine.cpus h).tlb.Empty ∧
    StepsMeet (vmStep mc h) (LooksUpCanon h) start events ∧
    StepsMeet (vmStep mc h) (VmStoresInArray mc h) start events ∧
    s = run (vmStep mc h) start events

theorem RvTlb.Empty.shrink {tlb tlb' : RvTlb} (empty : tlb.Empty) (shrinks : TlbShrinks tlb tlb') :
    tlb'.Empty := by
  intro row col bound
  have before := empty row col bound
  cases valid : tlb'.isValid row col with
  | false => rfl
  | true =>
      rw [shrinks.valid row col valid] at before
      cases before

theorem satpWrite_emptyWhenOff {cpu : RvCpu} (off : EmptyWhenOff cpu) (wdata : U64) :
    EmptyWhenOff (rvSatpWrite cpu wdata) := by
  simp only [rvSatpWrite, rvCsrWriteReg]
  split_ifs
  · exact off
  · exact off
  · exact Or.inr (rvFlushTlb_empty cpu)
  · next sv39 => exact Or.inl (not_not.mp sv39)

theorem emptyWhenOff_step {mc : EmuConfig δ} {h : Nat} (s : VmRun δ) (e : VmEvent δ)
    (off : EmptyWhenOff (s.machine.cpus h)) (canonical : LooksUpCanon h s e) :
    EmptyWhenOff ((vmStep mc h s e).machine.cpus h) := by
  cases e with
  | lookup vaddr mode =>
      have frame := (rvPagingLookup_frame mc s.machine h vaddr mode).core h
      have sv39 : rvSatpMode (s.machine.cpus h).csr.satp = 8 := by
        simp only [LooksUpCanon, rvIsCanonVaddr, Bool.and_eq_true, beq_iff_eq] at canonical
        exact canonical.1
      left
      simp only [vmStep, VmRun.lookup, TlbLookup.outcome, frame.csr]
      exact sv39
  | fence vaddr asid withVaddr withAsid =>
      have frame := rvInvalTlb_frame (s.machine.cpus h) vaddr asid withVaddr withAsid
      obtain ⟨entries, valid⟩ := rvInvalTlb_slots (s.machine.cpus h) vaddr asid withVaddr withAsid
      simp only [vmStep, EmuMachine.setCpu_same, EmptyWhenOff, frame.csr]
      exact off.imp_right fun empty => empty.shrink ⟨entries, valid⟩
  | satp wdata =>
      simp only [vmStep, EmuMachine.setCpu_same]
      exact satpWrite_emptyWhenOff off wdata
  | other next =>
      simp only [vmStep, EmuMachine.withVm, EmuMachine.setCpu_same]
      exact off

theorem VmReached.emptyWhenOff {mc : EmuConfig δ} {h : Nat} {s : VmRun δ}
    (reached : VmReached mc h s) : EmptyWhenOff (s.machine.cpus h) := by
  rcases reached with ⟨start, events, empty, canonical, _, rfl⟩
  exact invariant_run (I := fun s : VmRun δ => EmptyWhenOff (s.machine.cpus h)) emptyWhenOff_step
    (Or.inr empty) canonical

theorem VmReached.historyHolds {mc : EmuConfig δ} {h : Nat} {s : VmRun δ}
    (reached : VmReached mc h s) : HistoryHolds mc h s := by
  rcases reached with ⟨start, events, empty, _, _, rfl⟩
  exact historyHolds_run empty events

/-- In every state reached, a fence drops all it has to exactly if it has no
address, or the entries it has to drop were filled for the page of its address. -/
theorem sfenceComplete_iff (mc : EmuConfig δ) (h : Nat) (s : VmRun δ) (reached : VmReached mc h s)
    (insn : U32) (executes : SfenceExecutes (s.machine.cpus h) insn) :
    SfenceComplete mc h s insn ↔ SfenceOwnPage mc h s insn := by
  have holds := reached.historyHolds
  have fence : ((rvBaseSystem mc s.machine h insn).cpus h) = rvSfenceVma (s.machine.cpus h) insn := by
    rw [rvBaseSystem_sfence executes, EmuMachine.setCpu_same]
  constructor
  · intro complete withVaddr m same vaddr mode slot path must
    have hits := rvPagingLookup_path.mp path
    rcases holds.hit same hits with ⟨leaf, fills⟩
    rw [← fills.tag, ← same, hits.tag]
    by_contra apart
    have fenced : ((m.setTlb h (rvSfenceVma (s.machine.cpus h) insn).tlb).cpus h).tlb =
        (rvSfenceVma (s.machine.cpus h) insn).tlb := by
      rw [EmuMachine.setTlb, EmuMachine.setCpu_same]
    have csr := ((setTlb_frame m h (rvSfenceVma (s.machine.cpus h) insn).tlb).core h).csr
    refine complete _ ?_ vaddr mode slot
      ((lookup_sfence_iff withVaddr m _ same csr fenced apart slot).mpr path) must
    rw [fenced, fence]
  · intro ownPage
    by_cases noVaddr : rvInsnRs1 insn = 0
    · exact sfenceComplete_noVaddr holds executes noVaddr
    intro m same vaddr mode slot path must
    have apart := sfenceVaddr_tag holds reached.emptyWhenOff executes noVaddr same path must
    have restored : ((m.setTlb h (s.machine.cpus h).tlb).cpus h).tlb = (s.machine.cpus h).tlb := by
      rw [EmuMachine.setTlb, EmuMachine.setCpu_same]
    have csr := ((setTlb_frame m h (s.machine.cpus h).tlb).core h).csr
    rw [fence] at same
    have before := (lookup_sfence_iff noVaddr _ m restored csr.symm same apart slot).mp path
    have hits := rvPagingLookup_path.mp before
    rcases holds.hit restored hits with ⟨leaf, fills⟩
    have own := ownPage noVaddr _ restored vaddr mode slot before must
    rw [← fills.tag, ← restored, hits.tag] at own
    exact apart own

/-! ### One superpage -/

/-- A root table at 0 whose first entry is a readable page of 1 GiB, and a load
from it. -/
def superpageLoad (vaddr : U64) : List (VmEvent Unit) :=
  [.other (onePageMachine 0x1f 0xc3), .satp 0x8000000000000000, .lookup vaddr .load]

def superpageRun (vaddr : U64) : VmRun Unit :=
  run (vmStep (EmuConfig.ramOnly 0 0x1000 1) 0) (VmRun.init ()) (superpageLoad vaddr)

theorem superpageRun_reached {vaddr : U64} (slot : Nat) (canonical : rvIsCanonVaddr
    ((run (vmStep (EmuConfig.ramOnly 0 0x1000 1) 0) (VmRun.init ())
      ((superpageLoad vaddr).take 2)).machine.cpus 0) vaddr = true)
    (stored : (rvPagingLookup (EmuConfig.ramOnly 0 0x1000 1)
      (run (vmStep (EmuConfig.ramOnly 0 0x1000 1) 0) (VmRun.init ())
        ((superpageLoad vaddr).take 2)).machine 0 vaddr .load).path = .filled slot)
    (inside : slot < rvTlbSlots) :
    VmReached (EmuConfig.ramOnly 0 0x1000 1) 0 (superpageRun vaddr) := by
  refine ⟨VmRun.init (), superpageLoad vaddr, emuMachineInit_empty () 0,
    ⟨trivial, trivial, canonical, trivial⟩, ⟨trivial, trivial, ?_, trivial⟩, rfl⟩
  intro slot' path
  cases stored.symm.trans path
  exact inside

theorem VmRun.lookup_fills (mc : EmuConfig δ) (h : Nat) (s : VmRun δ) (l : TlbLookup δ) (slot : Nat) :
    (s.lookup mc h l).fills slot = l ∨ (s.lookup mc h l).fills slot = s.fills slot := by
  cases path : (l.outcome mc h).path with
  | filled stored =>
      simp only [VmRun.lookup, path]
      by_cases same : slot = stored
      · subst same
        exact Or.inl (Function.update_self _ _ _)
      · exact Or.inr (Function.update_of_ne same _ _)
  | hit _ => exact Or.inr (by simp only [VmRun.lookup, path])
  | walked => exact Or.inr (by simp only [VmRun.lookup, path])

/-- `sfence.vma x1, x0` for the page that was loaded from. -/
theorem sfenceComplete_iff_firstPage :
    SfenceComplete (EmuConfig.ramOnly 0 0x1000 1) 0 (superpageRun 0) 0x12008073 :=
  (sfenceComplete_iff (EmuConfig.ramOnly 0 0x1000 1) 0 (superpageRun 0)
    (superpageRun_reached 0 (by decide +kernel) (by decide +kernel) (by decide))
    0x12008073 ⟨by decide, by decide, by decide +kernel⟩).mpr (by
      intro _ m _ vaddr mode slot _ _
      have operand : sfenceVaddr ((superpageRun 0).machine.cpus 0) 0x12008073 = 0 := by
        decide +kernel
      have first : ((superpageRun 0).fills slot).vaddr = 0 := by
        rcases VmRun.lookup_fills (EmuConfig.ramOnly 0 0x1000 1) 0
          (run (vmStep (EmuConfig.ramOnly 0 0x1000 1) 0) (VmRun.init ())
            ((superpageLoad 0).take 2)) ⟨_, 0, .load⟩ slot with filled | before
        · exact congrArg TlbLookup.vaddr filled
        · exact congrArg TlbLookup.vaddr before
      rw [first, operand])

/-- The second page of the superpage stays in the TLB when its first is fenced. -/
theorem sfenceComplete_otherPage :
    ¬∀ (mc : EmuConfig Unit) (h : Nat) (s : VmRun Unit), VmReached mc h s → ∀ insn,
      SfenceExecutes (s.machine.cpus h) insn → SfenceComplete mc h s insn := by
  intro always
  have complete := always (EmuConfig.ramOnly 0 0x1000 1) 0 (superpageRun 0x1000)
    (superpageRun_reached 16 (by decide +kernel) (by decide +kernel) (by decide))
    0x12008073 ⟨by decide, by decide, by decide +kernel⟩
  have shares : ((superpageRun 0x1000).fills 16).SharesLeaf (EmuConfig.ramOnly 0 0x1000 1) 0
      (sfenceVaddr ((superpageRun 0x1000).machine.cpus 0) 0x12008073) :=
    ⟨by decide +kernel, 0, ⟨0xc3, 2⟩, ⟨0xc3, 2⟩, by decide +kernel, by decide +kernel,
      by decide +kernel⟩
  refine complete _ rfl 0x1000 .load 16 (by decide +kernel) ⟨fun _ => shares, ?_⟩
  exact fun withAsid => absurd (by decide) withAsid

end Riscmulator
