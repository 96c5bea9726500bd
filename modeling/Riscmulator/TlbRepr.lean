import Riscmulator.Sfence

/-! The representation of the TLB: the round-robin column that evictions use, the slots
that lookups write, and the row of each valid entry. -/

namespace Riscmulator

open Transition

variable {δ : Type}

/-! ### Specification -/

/-- The page number that an entry is tagged with. -/
def RvTlbEntry.vpn (entry : RvTlbEntry) : U64 := (entry.vma &&& rvTlbVpnMask) / rvCpuPageSize

/-- Every valid entry is in the row of its own page number. -/
def RowsOwn (tlb : RvTlb) : Prop :=
  ∀ row col, row < rvTlbRows → col < rvTlbColumns → tlb.isValid row col = true →
    (tlb.entries (tlbSlot row col)).vpn.toNat % rvTlbRows = row

structure TlbRepr (tlb : RvTlb) : Prop where
  nextColumn : tlb.nextColumn.toNat < rvTlbColumns
  rows : RowsOwn tlb

/-- The step stores an entry into this slot. -/
def StoresInto (mc : EmuConfig δ) (h : Nat) (s : VmRun δ) (e : VmEvent δ) (slot : Nat) : Prop :=
  ∃ vaddr mode, e = .lookup vaddr mode ∧
    (rvPagingLookup mc s.machine h vaddr mode).path = .filled slot

/-- The step changes no entry but in the row of the page it looks up, within the array. -/
structure StoresInRow (mc : EmuConfig δ) (h : Nat) (s : VmRun δ) (e : VmEvent δ) : Prop where
  frame : ∀ slot, ¬StoresInto mc h s e slot →
    ((vmStep mc h s e).machine.cpus h).tlb.entries slot = (s.machine.cpus h).tlb.entries slot
  row : ∀ vaddr mode slot, e = .lookup vaddr mode →
    (rvPagingLookup mc s.machine h vaddr mode).path = .filled slot →
      ∃ col < rvTlbColumns, slot = tlbSlot (rvTlbRow vaddr) col ∧ slot < rvTlbColumns * rvTlbRows

/-- A lookup of a page that its row does not hold, in a row that is full, with a walk
that succeeds. -/
structure Evicts (mc : EmuConfig δ) (m : EmuMachine δ) (h : Nat) (vaddr : U64) (mode : RvAccess) :
    Prop where
  absent : rvTlbScan (m.cpus h).tlb (rvTlbRow vaddr) vaddr ((rvSatpAsid (m.cpus h)).setWidth 16)
    (rvSetfl mode) = none
  full : ∀ col < rvTlbColumns, (m.cpus h).tlb.isValid (rvTlbRow vaddr) col = true
  walks : (rvPagingRawLookup mc m h vaddr mode).res = .ok

instance (mc : EmuConfig δ) (m : EmuMachine δ) (h : Nat) (vaddr : U64) (mode : RvAccess) :
    Decidable (Evicts mc m h vaddr mode) :=
  decidable_of_iff
    (rvTlbScan (m.cpus h).tlb (rvTlbRow vaddr) vaddr ((rvSatpAsid (m.cpus h)).setWidth 16)
        (rvSetfl mode) = none ∧
      (∀ col < rvTlbColumns, (m.cpus h).tlb.isValid (rvTlbRow vaddr) col = true) ∧
      (rvPagingRawLookup mc m h vaddr mode).res = .ok)
    ⟨fun both => ⟨both.1, both.2.1, both.2.2⟩, fun evicts => ⟨evicts.1, evicts.2, evicts.3⟩⟩

def VmEvicts (mc : EmuConfig δ) (h : Nat) (s : VmRun δ) : VmEvent δ → Prop
  | .lookup vaddr mode => Evicts mc s.machine h vaddr mode
  | _ => False

instance (mc : EmuConfig δ) (h : Nat) (s : VmRun δ) (e : VmEvent δ) :
    Decidable (VmEvicts mc h s e) :=
  match e with
  | .lookup vaddr mode => inferInstanceAs (Decidable (Evicts mc s.machine h vaddr mode))
  | .fence .. | .satp _ | .other _ => inferInstanceAs (Decidable False)

/-- How many lookups of the run evict an entry. -/
def evictions (mc : EmuConfig δ) (h : Nat) (s : VmRun δ) (events : List (VmEvent δ)) : Nat :=
  stepsCount (vmStep mc h) (VmEvicts mc h) s events

/-! ### Insertions -/

section Insert

/-- An insertion takes an invalid slot of the row, or the one `next_column` names. -/
theorem rvTlbInsert_cases (tlb : RvTlb) (row : Nat) (entry : RvTlbEntry) :
    (∃ col < rvTlbColumns, tlb.isValid row col = false ∧
        rvTlbInsert tlb row entry =
          ((tlb.write (tlbSlot row col) entry).setValid row col, tlbSlot row col)) ∨
      ((∀ col < rvTlbColumns, tlb.isValid row col = true) ∧
        rvTlbInsert tlb row entry =
          ({ tlb.write (tlbSlot row tlb.nextColumn.toNat) entry with
              nextColumn := tlb.nextColumn + 1 }, tlbSlot row tlb.nextColumn.toNat)) := by
  cases found : (List.range rvTlbColumns).find? fun col => !tlb.isValid row col with
  | some col =>
      have invalid := List.find?_some found
      have bound := List.mem_range.mp (List.mem_of_find?_eq_some found)
      refine Or.inl ⟨col, bound, by simpa using invalid, ?_⟩
      simp only [rvTlbInsert, found, tlbSlot]
  | none =>
      refine Or.inr ⟨fun col bound => ?_, ?_⟩
      · simpa using List.find?_eq_none.mp found col (List.mem_range.mpr bound)
      · simp only [rvTlbInsert, found, tlbSlot]

/-- Insertions write one slot. -/
theorem rvTlbInsert_frame (tlb : RvTlb) (row : Nat) (entry : RvTlbEntry) {slot : Nat}
    (other : slot ≠ (rvTlbInsert tlb row entry).2) :
    (rvTlbInsert tlb row entry).1.entries slot = tlb.entries slot := by
  rcases rvTlbInsert_cases tlb row entry with ⟨col, _, _, inserted⟩ | ⟨_, inserted⟩
  · rw [inserted] at other ⊢
    exact Function.update_of_ne other _ _
  · rw [inserted] at other ⊢
    exact Function.update_of_ne other _ _

theorem rvTlbInsert_slot {tlb : RvTlb} (row : Nat) (entry : RvTlbEntry)
    (column : tlb.nextColumn.toNat < rvTlbColumns) :
    ∃ col < rvTlbColumns, (rvTlbInsert tlb row entry).2 = tlbSlot row col := by
  rcases rvTlbInsert_cases tlb row entry with ⟨col, bound, _, inserted⟩ | ⟨_, inserted⟩
  · exact ⟨col, bound, by rw [inserted]⟩
  · exact ⟨_, column, by rw [inserted]⟩

theorem rvTlbInsert_nextColumn (tlb : RvTlb) (row : Nat) (entry : RvTlbEntry) :
    (rvTlbInsert tlb row entry).1.nextColumn = tlb.nextColumn +
      if ∀ col < rvTlbColumns, tlb.isValid row col = true then 1 else 0 := by
  rcases rvTlbInsert_cases tlb row entry with ⟨col, bound, invalid, inserted⟩ | ⟨full, inserted⟩
  · have free : ¬∀ col < rvTlbColumns, tlb.isValid row col = true := by
      intro full
      rw [full col bound] at invalid
      cases invalid
    rw [inserted, if_neg free]
    exact (BitVec.add_zero _).symm
  · rw [inserted, if_pos full]

end Insert

/-! ### Lookups -/

section Lookup

variable {mc : EmuConfig δ} {m : EmuMachine δ} {h : Nat} {vaddr : U64} {mode : RvAccess}

theorem rvTlbScan_stale {tlb : RvTlb} {row : Nat} {asid : U16} {setfl : U64} {col : Nat}
    (stale : rvTlbScan tlb row vaddr asid setfl = some (.stale col)) : col < rvTlbColumns := by
  obtain ⟨probed, member, probe⟩ := List.exists_of_findSome?_eq_some stale
  simp only [rvTlbProbe] at probe
  split at probe
  · cases probe
  split at probe
  · cases probe
  split at probe
  · cases probe
    exact List.mem_range.mp member
  · cases probe

theorem isValid_clearValid (tlb : RvTlb) (row col : Nat) :
    (tlb.clearValid row col).isValid row col = false := by
  simp only [RvTlb.isValid, RvTlb.clearValid, Function.update_self, BitField.getLsbD_clearBit]
  simp

theorem rvTlbDropped_nextColumn (m : EmuMachine δ) (h : Nat) (vaddr : U64) (mode : RvAccess) :
    ((rvTlbDropped m h vaddr mode).cpus h).tlb.nextColumn = (m.cpus h).tlb.nextColumn := by
  unfold rvTlbDropped
  split
  · simp only [EmuMachine.setTlb, EmuMachine.setCpu_same]
    rfl
  · rfl

/-- A miss stores the translation exactly if the walk succeeds. -/
theorem rvPagingMiss_stores (mc : EmuConfig δ) (m : EmuMachine δ) (h : Nat) (vaddr : U64)
    (mode : RvAccess) :
    ((rvPagingRawLookup mc m h vaddr mode).res ≠ .ok ∧
        (∀ slot, (rvPagingMiss mc m h vaddr mode).path ≠ .filled slot) ∧
        ((rvPagingMiss mc m h vaddr mode).machine.cpus h).tlb = (m.cpus h).tlb) ∨
      ((rvPagingRawLookup mc m h vaddr mode).res = .ok ∧ ∃ entry,
        (rvPagingMiss mc m h vaddr mode).path =
          .filled (rvTlbInsert (m.cpus h).tlb (rvTlbRow vaddr) entry).2 ∧
        ((rvPagingMiss mc m h vaddr mode).machine.cpus h).tlb =
          (rvTlbInsert (m.cpus h).tlb (rvTlbRow vaddr) entry).1) := by
  rcases rvPagingMiss_cases mc m h vaddr mode with ⟨other, same⟩ | ⟨ok, _, ins, rfl, path, tlb⟩
  · refine Or.inl ⟨fun ok => ?_, other, same⟩
    obtain ⟨leaf, _, found⟩ := rvWalk_ok ok
    have valid : (rvPagingRawLookup mc m h vaddr mode).entry.pte.getLsbD rvPteVBit = true := by
      rcases found.pte with ⟨set, _, stored⟩
      rw [rvPagingRawLookup, stored, BitVec.getLsbD_or, rvLeafEntry_pte _ _ _ _ (by decide),
        found.valid, Bool.true_or]
    refine other (rvTlbInsert ((rvPagingRawLookup mc m h vaddr mode).machine.cpus h).tlb
      (rvTlbRow vaddr) (rvPagingRawLookup mc m h vaddr mode).entry).2 ?_
    simp only [rvPagingMiss, ok, valid, ne_eq, not_true_eq_false, Bool.not_true,
      Bool.false_eq_true, if_false]
  · exact Or.inr ⟨ok, _, path, tlb⟩

/-- What a lookup does to the TLB: it may drop a stale slot, and then stores nothing, or
inserts an entry, which evicts one exactly if the row is full. -/
theorem rvPagingLookup_stores (mc : EmuConfig δ) (m : EmuMachine δ) (h : Nat) (vaddr : U64)
    (mode : RvAccess) :
    (¬Evicts mc m h vaddr mode ∧ (∀ slot, (rvPagingLookup mc m h vaddr mode).path ≠ .filled slot) ∧
        ((rvPagingLookup mc m h vaddr mode).machine.cpus h).tlb =
          ((rvTlbDropped m h vaddr mode).cpus h).tlb) ∨
      ∃ entry,
        (Evicts mc m h vaddr mode ↔ ∀ col < rvTlbColumns,
          ((rvTlbDropped m h vaddr mode).cpus h).tlb.isValid (rvTlbRow vaddr) col = true) ∧
        (rvPagingLookup mc m h vaddr mode).path = .filled (rvTlbInsert
          ((rvTlbDropped m h vaddr mode).cpus h).tlb (rvTlbRow vaddr) entry).2 ∧
        ((rvPagingLookup mc m h vaddr mode).machine.cpus h).tlb = (rvTlbInsert
          ((rvTlbDropped m h vaddr mode).cpus h).tlb (rvTlbRow vaddr) entry).1 := by
  have missed := rvPagingMiss_stores mc (rvTlbDropped m h vaddr mode) h vaddr mode
  cases scanned : rvTlbScan (m.cpus h).tlb (rvTlbRow vaddr) vaddr
      ((rvSatpAsid (m.cpus h)).setWidth 16) (rvSetfl mode) with
  | none =>
      have misses : ∀ slot, ¬TlbHits (m.cpus h) vaddr mode slot := by
        rintro slot ⟨col, hit, _⟩
        rw [scanned] at hit
        cases hit
      have dropped : rvTlbDropped m h vaddr mode = m := by simp only [rvTlbDropped, scanned]
      rw [rvPagingLookup_miss misses]
      rcases missed with ⟨failed, path, tlb⟩ | ⟨ok, entry, path, tlb⟩
      · rw [dropped] at failed
        exact Or.inl ⟨fun evicts => failed evicts.walks, path, tlb⟩
      · rw [dropped] at ok path tlb ⊢
        exact Or.inr ⟨entry, ⟨Evicts.full, fun full => ⟨scanned, full, ok⟩⟩, path, tlb⟩
  | some probe =>
      have held : ¬Evicts mc m h vaddr mode := by
        intro evicts
        rw [evicts.absent] at scanned
        cases scanned
      cases probe with
      | hit col =>
          have dropped : rvTlbDropped m h vaddr mode = m := by simp only [rvTlbDropped, scanned]
          rw [rvPagingLookup_hit ⟨col, scanned, rfl⟩, dropped]
          exact Or.inl ⟨held, fun _ => LookupPath.noConfusion, rfl⟩
      | stale col =>
          have misses : ∀ slot, ¬TlbHits (m.cpus h) vaddr mode slot := by
            rintro slot ⟨col, hit, _⟩
            rw [scanned] at hit
            cases hit
          rw [rvPagingLookup_miss misses]
          rcases missed with ⟨_, path, tlb⟩ | ⟨_, entry, path, tlb⟩
          · exact Or.inl ⟨held, path, tlb⟩
          · refine Or.inr ⟨entry, iff_of_false held fun full => ?_, path, tlb⟩
            have free := full col (rvTlbScan_stale scanned)
            simp only [rvTlbDropped, scanned, EmuMachine.setTlb, EmuMachine.setCpu_same,
              isValid_clearValid] at free
            cases free

theorem rvPagingLookup_nextColumn (mc : EmuConfig δ) (m : EmuMachine δ) (h : Nat) (vaddr : U64)
    (mode : RvAccess) :
    ((rvPagingLookup mc m h vaddr mode).machine.cpus h).tlb.nextColumn =
      (m.cpus h).tlb.nextColumn + if Evicts mc m h vaddr mode then 1 else 0 := by
  rcases rvPagingLookup_stores mc m h vaddr mode with ⟨held, _, tlb⟩ | ⟨entry, evicts, _, tlb⟩
  · rw [tlb, rvTlbDropped_nextColumn, if_neg held]
    exact (BitVec.add_zero _).symm
  · rw [tlb, rvTlbInsert_nextColumn, rvTlbDropped_nextColumn]
    simp only [evicts]

theorem rvPagingLookup_storesInRow (column : (m.cpus h).tlb.nextColumn.toNat < rvTlbColumns)
    {slot : Nat} (path : (rvPagingLookup mc m h vaddr mode).path = .filled slot) :
    ∃ col < rvTlbColumns, slot = tlbSlot (rvTlbRow vaddr) col := by
  rcases rvPagingLookup_stores mc m h vaddr mode with ⟨_, other, _⟩ | ⟨entry, _, filled, _⟩
  · exact absurd path (other slot)
  · rw [filled] at path
    cases path
    exact rvTlbInsert_slot _ _ ((rvTlbDropped_nextColumn m h vaddr mode).symm ▸ column)

theorem rvPagingLookup_entries {slot : Nat}
    (other : (rvPagingLookup mc m h vaddr mode).path ≠ .filled slot) :
    ((rvPagingLookup mc m h vaddr mode).machine.cpus h).tlb.entries slot =
      (m.cpus h).tlb.entries slot := by
  rw [← (rvTlbDropped_slots m h vaddr mode).1]
  rcases rvPagingLookup_stores mc m h vaddr mode with ⟨_, _, tlb⟩ | ⟨entry, _, filled, tlb⟩
  · rw [tlb]
  · rw [tlb]
    apply rvTlbInsert_frame
    rintro rfl
    exact other filled

/-- An entry with the page of an address is in the row of the address. -/
theorem vpn_row {entry : RvTlbEntry} (tag : entry.vma &&& rvTlbVpnMask = vaddr &&& rvTlbVpnMask) :
    entry.vpn.toNat % rvTlbRows = rvTlbRow vaddr := by
  have masked : (entry.vma &&& rvTlbVpnMask) &&& rvTlbVpnMask = vaddr &&& rvTlbVpnMask := by
    rw [BitVec.and_assoc, BitVec.and_self, tag]
  rw [← rvTlbRow_of_tag masked, rvTlbRow, BitVec.toNat_umod]
  rfl

theorem tlbSlot_row {row col row' col' : Nat} (column : col < rvTlbColumns)
    (column' : col' < rvTlbColumns) (same : tlbSlot row col = tlbSlot row' col') : row = row' := by
  simp only [tlbSlot, rvTlbColumns] at *
  omega

theorem tlbSlot_lt {row col : Nat} (row_lt : row < rvTlbRows) (column : col < rvTlbColumns) :
    tlbSlot row col < rvTlbColumns * rvTlbRows := by
  simp only [tlbSlot, rvTlbRows, rvTlbColumns] at *
  omega

theorem rvPagingLookup_rowsOwn (column : (m.cpus h).tlb.nextColumn.toNat < rvTlbColumns)
    (own : RowsOwn (m.cpus h).tlb) :
    RowsOwn ((rvPagingLookup mc m h vaddr mode).machine.cpus h).tlb := by
  intro row col bound bound' valid
  rcases rvPagingLookup_slots mc m h vaddr mode valid with ⟨path, stored⟩ | ⟨_, before, kept⟩
  · obtain ⟨col', column', slot⟩ := rvPagingLookup_storesInRow column path
    obtain ⟨leaf, _, found⟩ := rvPagingLookup_filled path
    rw [stored, tlbSlot_row bound' column' slot]
    apply vpn_row
    rw [found.vma, rvLeafEntry_tag]
  · rw [kept]
    exact own row col bound bound' before

end Lookup

/-! ### Runs -/

section Runs

variable {mc : EmuConfig δ} {h : Nat} {s : VmRun δ}

theorem rvInvalTlb_nextColumn (cpu : RvCpu) (vaddr : U64) (asid : U16)
    (withVaddr withAsid : Bool) :
    (rvInvalTlb cpu vaddr asid withVaddr withAsid).tlb.nextColumn = cpu.tlb.nextColumn := by
  unfold rvInvalTlb
  split_ifs <;> rfl

theorem rvSatpWrite_nextColumn (cpu : RvCpu) (wdata : U64) :
    (rvSatpWrite cpu wdata).tlb.nextColumn = cpu.tlb.nextColumn := by
  simp only [rvSatpWrite, rvCsrWriteReg]
  split_ifs <;> rfl

theorem RowsOwn.shrink {tlb tlb' : RvTlb} (own : RowsOwn tlb) (shrinks : TlbShrinks tlb tlb') :
    RowsOwn tlb' := by
  intro row col bound bound' valid
  rw [shrinks.entries]
  exact own row col bound bound' (shrinks.valid row col valid)

theorem vmStep_nextColumn (mc : EmuConfig δ) (h : Nat) (s : VmRun δ) (e : VmEvent δ) :
    ((vmStep mc h s e).machine.cpus h).tlb.nextColumn =
      (s.machine.cpus h).tlb.nextColumn + if VmEvicts mc h s e then 1 else 0 := by
  have still : ∀ column : U8, column = column + if False then 1 else 0 := by
    intro column
    rw [if_neg not_false]
    exact (BitVec.add_zero _).symm
  cases e with
  | lookup vaddr mode => exact rvPagingLookup_nextColumn mc s.machine h vaddr mode
  | fence vaddr asid withVaddr withAsid =>
      simp only [vmStep, EmuMachine.setCpu_same, rvInvalTlb_nextColumn]
      exact still _
  | satp wdata =>
      simp only [vmStep, EmuMachine.setCpu_same, rvSatpWrite_nextColumn]
      exact still _
  | other next =>
      simp only [vmStep, EmuMachine.withVm, EmuMachine.setCpu_same]
      exact still _

/-- Below the number of columns, `next_column` counts the evictions. -/
theorem vmStep_counts (mc : EmuConfig δ) (h : Nat) (s : VmRun δ) (e : VmEvent δ)
    (column : (s.machine.cpus h).tlb.nextColumn.toNat < rvTlbColumns) :
    ((vmStep mc h s e).machine.cpus h).tlb.nextColumn.toNat =
      (s.machine.cpus h).tlb.nextColumn.toNat + if VmEvicts mc h s e then 1 else 0 := by
  rw [vmStep_nextColumn]
  simp only [rvTlbColumns] at column
  split_ifs
  · rw [BitVec.toNat_add_of_lt]
    · rfl
    · exact lt_of_lt_of_le (Nat.add_lt_add_right column 1) (by decide)
  · exact congrArg BitVec.toNat (BitVec.add_zero _)

theorem vmStep_rowsOwn (e : VmEvent δ) (repr : TlbRepr (s.machine.cpus h).tlb) :
    RowsOwn ((vmStep mc h s e).machine.cpus h).tlb := by
  cases e with
  | lookup vaddr mode => exact rvPagingLookup_rowsOwn repr.nextColumn repr.rows
  | fence vaddr asid withVaddr withAsid =>
      obtain ⟨entries, valid⟩ := rvInvalTlb_slots (s.machine.cpus h) vaddr asid withVaddr withAsid
      simp only [vmStep, EmuMachine.setCpu_same]
      exact repr.rows.shrink ⟨entries, valid⟩
  | satp wdata =>
      simp only [vmStep, EmuMachine.setCpu_same]
      exact repr.rows.shrink (satpWrite_shrinks (s.machine.cpus h) wdata)
  | other next =>
      simp only [vmStep, EmuMachine.withVm, EmuMachine.setCpu_same]
      exact repr.rows

theorem vmStep_storesInRow (e : VmEvent δ)
    (column : (s.machine.cpus h).tlb.nextColumn.toNat < rvTlbColumns) : StoresInRow mc h s e where
  frame := by
    intro slot other
    cases e with
    | lookup vaddr mode =>
        exact rvPagingLookup_entries fun path => other ⟨vaddr, mode, rfl, path⟩
    | fence vaddr asid withVaddr withAsid =>
        simp only [vmStep, EmuMachine.setCpu_same,
          (rvInvalTlb_slots (s.machine.cpus h) vaddr asid withVaddr withAsid).1]
    | satp wdata =>
        simp only [vmStep, EmuMachine.setCpu_same,
          (satpWrite_shrinks (s.machine.cpus h) wdata).entries]
    | other next => simp only [vmStep, EmuMachine.withVm, EmuMachine.setCpu_same]
  row := by
    rintro vaddr mode slot rfl path
    obtain ⟨col, bound, rfl⟩ := rvPagingLookup_storesInRow column path
    exact ⟨col, bound, rfl, tlbSlot_lt (rvTlbRow_lt vaddr) bound⟩

theorem vmInit_nextColumn (device : δ) (h : Nat) :
    ((VmRun.init device).machine.cpus h).tlb.nextColumn = 0 := rfl

theorem tlbRepr_init (device : δ) (h : Nat) : TlbRepr ((VmRun.init device).machine.cpus h).tlb where
  nextColumn := by
    rw [vmInit_nextColumn]
    decide
  rows := by
    intro row col bound _ valid
    rw [VmRun.init, emuMachineInit_empty device h row col bound] at valid
    cases valid

end Runs

/-- From an initialised hart, the TLB keeps its representation and lookups store in the
row of their page, exactly in the runs with fewer evictions than there are columns. -/
theorem tlbRepr_iff (mc : EmuConfig δ) (h : Nat) (device : δ) (events : List (VmEvent δ)) :
    (Throughout (vmStep mc h) (fun s => TlbRepr (s.machine.cpus h).tlb) (VmRun.init device)
          events ∧
        StepsMeet (vmStep mc h) (StoresInRow mc h) (VmRun.init device) events) ↔
      evictions mc h (VmRun.init device) events < rvTlbColumns := by
  have start := tlbRepr_init device h
  have counted : Throughout (vmStep mc h)
        (fun s => (s.machine.cpus h).tlb.nextColumn.toNat < rvTlbColumns) (VmRun.init device)
        events ↔
      ((VmRun.init device).machine.cpus h).tlb.nextColumn.toNat +
        stepsCount (vmStep mc h) (VmEvicts mc h) (VmRun.init device) events < rvTlbColumns :=
    throughout_lt_iff (vmStep_counts mc h) (VmRun.init device) events
  have zero : ((VmRun.init device).machine.cpus h).tlb.nextColumn.toNat = 0 := by
    rw [vmInit_nextColumn]
    rfl
  rw [zero, Nat.zero_add] at counted
  rw [evictions, ← counted]
  constructor
  · rintro ⟨repr, _⟩ before reached
    exact (repr before reached).nextColumn
  · intro column
    have step : StepsMeet (vmStep mc h) (fun s _ =>
        (s.machine.cpus h).tlb.nextColumn.toNat < rvTlbColumns) (VmRun.init device) events :=
      (stepsMeet_iff_split _ _).mpr fun before e after same =>
        column before ⟨e :: after, same.symm⟩
    have kept : ∀ s e, RowsOwn (s.machine.cpus h).tlb →
        (s.machine.cpus h).tlb.nextColumn.toNat < rvTlbColumns →
        RowsOwn ((vmStep mc h s e).machine.cpus h).tlb := by
      intro s e own column
      have repr : TlbRepr (s.machine.cpus h).tlb := ⟨column, own⟩
      exact vmStep_rowsOwn e repr
    have rows := throughout_of_stepsMeet (I := fun s => RowsOwn (s.machine.cpus h).tlb) kept
      start.rows step
    constructor
    · exact fun before reached => ⟨column before reached, rows before reached⟩
    · exact stepsMeet_mono (fun s e column => vmStep_storesInRow e column) _ _ step

/-! ### One row filled twice -/

/-- Page tables at 0 with a readable page of 1 GiB, and loads from its first pages in
row 0. -/
def rowLoads (count : Nat) : List (VmEvent Unit) :=
  .other (onePageMachine 0x1f 0xc3) :: .satp 0x8000000000000000 ::
    (List.range count).map fun i => .lookup (BitVec.ofNat 64 i <<< 16) .load

/-- After as many evictions as there are columns, `next_column` names the next row. -/
theorem tlbRepr_full : ¬∀ (mc : EmuConfig Unit) (h : Nat) (device : Unit)
    (events : List (VmEvent Unit)),
      Throughout (vmStep mc h) (fun s => TlbRepr (s.machine.cpus h).tlb) (VmRun.init device)
          events ∧
        StepsMeet (vmStep mc h) (StoresInRow mc h) (VmRun.init device) events := by
  intro always
  have repr := (always (EmuConfig.ramOnly 0 0x1000 1) 0 () (rowLoads 32)).1 _ List.prefix_rfl
  exact absurd repr.nextColumn (by decide +kernel)

end Riscmulator
