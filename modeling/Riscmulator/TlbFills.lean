import Riscmulator.Frames
import Riscmulator.Lib.BitField
import Riscmulator.Lib.Transition

/-! The TLB over runs: which walk filled each slot, and what a cached entry
keeps of the leaf that the walk found. -/

namespace Riscmulator

open Transition

variable {δ : Type}

/-! ### Leaves -/

/-- A leaf page-table entry as a walk reads it, and its level. -/
structure Leaf where
  pte : U64
  level : Nat
  deriving DecidableEq, Repr

/-- Mask of the page-number bits that a leaf takes from the virtual address. -/
def Leaf.offsetMask (leaf : Leaf) : U64 := bit (9 * leaf.level) - 1

/-- The leaf's pages start at a multiple of their number. -/
def Leaf.Aligned (leaf : Leaf) : Prop := (rvPtePpn leaf.pte &&& leaf.offsetMask) = 0

instance (leaf : Leaf) : Decidable leaf.Aligned := inferInstanceAs (Decidable (_ = _))

/-- The reads of `rv_paging_raw_lookup` up to the leaf. -/
def rvFindLeaf (mc : EmuConfig δ) (h : Nat) (vaddr : U64) : Nat → EmuMachine δ → U64 → Option Leaf
  | 0, _, _ => none
  | level + 1, m, ppn =>
      let out := rvAccessPhys mc m h (rvPtePaddr ppn vaddr level) 0 3 .load true
      let pte := out.data.getD 0
      if out.res ≠ .ok then none
      else if !pte.getLsbD rvPteVBit then none
      else if (pte &&& rvPteRwxMask) ≠ 0 then some ⟨pte, level⟩
      else rvFindLeaf mc h vaddr level out.machine (rvPtePpn pte)

theorem rvFindLeaf_level {mc : EmuConfig δ} {h : Nat} {vaddr : U64} {level : Nat}
    {m : EmuMachine δ} {ppn : U64} {leaf : Leaf}
    (found : rvFindLeaf mc h vaddr level m ppn = some leaf) : leaf.level < level := by
  induction level generalizing m ppn with
  | zero => cases found
  | succ level ih =>
      simp only [rvFindLeaf] at found
      split at found
      · cases found
      split at found
      · cases found
      split at found
      · cases found
        exact Nat.lt_succ_self _
      · exact Nat.lt_succ_of_lt (ih found)

/-- What a walk that succeeds says about its leaf and the entry it returns. -/
structure WalkFound (cpu : RvCpu) (vaddr : U64) (mode : RvAccess) (leaf : Leaf)
    (entry : RvTlbEntry) : Prop where
  valid : leaf.pte.getLsbD rvPteVBit = true
  aligned : leaf.Aligned
  checked : checkAccess cpu (rvLeafEntry cpu vaddr leaf.pte leaf.level) mode = .ok
  vma : entry.vma = (rvLeafEntry cpu vaddr leaf.pte leaf.level).vma
  pte : ∃ set, (set = 0 ∨ set = rvSetfl mode) ∧
    entry.pte = (rvLeafEntry cpu vaddr leaf.pte leaf.level).pte ||| set

/-- A walk's checks read nothing of the core but its control state. -/
theorem checkAccess_frame {cpu cpu' : RvCpu} (frame : CoreFrame cpu cpu') (entry : RvTlbEntry)
    (mode : RvAccess) : checkAccess cpu' entry mode = checkAccess cpu entry mode := by
  simp only [checkAccess, frame.memPrivilege, frame.csr]

theorem rvLeafEntry_frame {cpu cpu' : RvCpu} (frame : CoreFrame cpu cpu') (vaddr pte : U64)
    (level : Nat) : rvLeafEntry cpu' vaddr pte level = rvLeafEntry cpu vaddr pte level := by
  have page := rvPmpCheck_congr (congrArg RvCsrState.pmpcfg frame.csr)
    (congrArg RvCsrState.pmpaddr frame.csr) (rvPtePpn pte * rvCpuPageSize) rvCpuPageSize false
  simp only [rvLeafEntry, page, rvSatpAsid, frame.csr]

theorem WalkFound.frame {cpu cpu' : RvCpu} (frame : CoreFrame cpu cpu') {vaddr : U64}
    {mode : RvAccess} {leaf : Leaf} {entry : RvTlbEntry}
    (found : WalkFound cpu' vaddr mode leaf entry) : WalkFound cpu vaddr mode leaf entry where
  valid := found.valid
  aligned := found.aligned
  checked := by
    rw [← rvLeafEntry_frame frame, ← checkAccess_frame frame]
    exact found.checked
  vma := by
    rw [← rvLeafEntry_frame frame]
    exact found.vma
  pte := by
    rw [← rvLeafEntry_frame frame]
    exact found.pte

section Walk

variable {mc : EmuConfig δ} {h : Nat} {vaddr : U64} {mode : RvAccess}

theorem rvWalkLeaf_ok {m : EmuMachine δ} {level : Nat} {ptePaddr pte : U64} {ptePmp : U8}
    (valid : pte.getLsbD rvPteVBit = true)
    (ok : (rvWalkLeaf mc m h vaddr mode level ptePaddr pte ptePmp).res = .ok) :
    WalkFound (m.cpus h) vaddr mode ⟨pte, level⟩
      (rvWalkLeaf mc m h vaddr mode level ptePaddr pte ptePmp).entry := by
  simp only [rvWalkLeaf] at ok ⊢
  split at ok
  · cases ok
  next aligned =>
  split at ok
  · next denied => exact absurd ok denied
  next checked =>
  rw [if_neg aligned, if_neg checked]
  have start : (rvPtePpn pte &&& (bit (9 * level) - 1)) = 0 := not_not.mp aligned
  have granted := not_not.mp checked
  split at ok
  · next missing =>
      rw [if_pos missing]
      split at ok
      · cases ok
      next writable =>
      rw [if_neg writable]
      split at ok
      · next failed => exact absurd ok failed
      next stored =>
      rw [if_neg stored]
      exact ⟨valid, start, granted, rfl, rvSetfl mode, Or.inr rfl, rfl⟩
  · next present =>
      rw [if_neg present]
      exact ⟨valid, start, granted, rfl, 0, Or.inl rfl, by simp⟩

/-- A walk succeeds only at a leaf that it found and checked. -/
theorem rvWalk_ok {level : Nat} {m : EmuMachine δ} {ppn : U64}
    (ok : (rvWalk mc h vaddr mode level m ppn).res = .ok) :
    ∃ leaf, rvFindLeaf mc h vaddr level m ppn = some leaf ∧
      WalkFound (m.cpus h) vaddr mode leaf (rvWalk mc h vaddr mode level m ppn).entry := by
  induction level generalizing m ppn with
  | zero => cases ok
  | succ level ih =>
      have loaded := rvAccessPhys_frame mc m h (rvPtePaddr ppn vaddr level) 0 3 .load true
      simp only [rvWalk, rvFindLeaf] at ok ⊢
      split at ok
      · cases ok
      next readable =>
      rw [if_neg readable]
      split at ok
      · next failed => exact absurd ok failed
      next read =>
      rw [if_neg read, if_neg read]
      split at ok
      · cases ok
      next present =>
      rw [if_neg present, if_neg present]
      split at ok
      · next leaf =>
          rw [if_pos leaf, if_pos leaf]
          have valid : ((rvAccessPhys mc m h (rvPtePaddr ppn vaddr level) 0 3 .load
              true).data.getD 0).getLsbD rvPteVBit = true := by
            simpa using present
          exact ⟨_, rfl, (rvWalkLeaf_ok valid ok).frame (loaded.core h)⟩
      · next pointer =>
          rw [if_neg pointer, if_neg pointer]
          rcases ih ok with ⟨leaf, found, entry⟩
          exact ⟨leaf, found, entry.frame (loaded.core h)⟩

end Walk

/-! ### Slots -/

section Slots

/-- Slot index of a row and a column. -/
def tlbSlot (row col : Nat) : Nat := row * rvTlbColumns + col

theorem rvTlbRow_lt (vaddr : U64) : rvTlbRow vaddr < rvTlbRows := by
  have positive : 0 < (BitVec.ofNat 64 rvTlbRows).toNat := by decide
  exact lt_of_lt_of_le (by
    rw [rvTlbRow, BitVec.toNat_umod]
    exact Nat.mod_lt _ positive) (by decide)

theorem isValid_setValid (tlb : RvTlb) (row col row' col' : Nat) :
    (tlb.setValid row col).isValid row' col' =
      (tlb.isValid row' col' || (decide (row' = row) && decide (col' = col) && decide (col' < 16))) := by
  by_cases mine : row' = row
  · subst mine
    simp only [RvTlb.isValid, RvTlb.setValid, Function.update_self, BitField.getLsbD_setBit,
      decide_true, Bool.true_and]
  · simp [RvTlb.isValid, RvTlb.setValid, mine]

/-- Dropping a slot leaves no slot valid that was not. -/
theorem isValid_of_clearValid {tlb : RvTlb} {row col row' col' : Nat}
    (valid : (tlb.clearValid row col).isValid row' col' = true) :
    tlb.isValid row' col' = true := by
  by_cases mine : row' = row
  · subst mine
    simp only [RvTlb.isValid, RvTlb.clearValid, Function.update_self, BitField.getLsbD_clearBit,
      Bool.and_eq_true] at valid
    exact valid.1
  · simpa [RvTlb.isValid, RvTlb.clearValid, Function.update_of_ne mine] using valid

theorem getLsbD_dropColumns (valid : U16) (drop : Nat → Bool) (col : Nat) :
    (rvDropColumns valid drop).getLsbD col =
      (valid.getLsbD col && !(decide (col < rvTlbColumns) && drop col)) := by
  have fold : ∀ cols : List Nat, ∀ valid : U16,
      (cols.foldl (fun valid col => if drop col then valid &&& ~~~(1#16 <<< col) else valid)
        valid).getLsbD col = (valid.getLsbD col && !(decide (col ∈ cols) && drop col)) := by
    intro cols
    induction cols with
    | nil => simp
    | cons first cols ih =>
        intro valid
        rw [List.foldl_cons, ih]
        simp only [List.mem_cons]
        by_cases here : col = first
        · subst here
          cases dropped : drop col with
          | false => simp
          | true =>
              rw [if_pos rfl, BitField.getLsbD_clearBit]
              simp
        · cases dropped : drop first with
          | false => simp [here]
          | true =>
              rw [if_pos rfl, BitField.getLsbD_clearBit]
              simp [here]
  rw [rvDropColumns, fold]
  simp only [List.mem_range]

theorem isValid_dropWhere (tlb : RvTlb) (drop : Nat → Nat → Bool) {row : Nat} (col : Nat)
    (bound : row < rvTlbRows) : (tlb.dropWhere drop).isValid row col =
      (tlb.isValid row col && !(decide (col < rvTlbColumns) && drop row col)) := by
  simp only [RvTlb.isValid, RvTlb.dropWhere, bound, if_true]
  exact getLsbD_dropColumns _ _ _

/-- An invalidation leaves no slot valid that was not. -/
theorem isValid_of_dropWhere {tlb : RvTlb} {drop : Nat → Nat → Bool} {row col : Nat}
    (valid : (tlb.dropWhere drop).isValid row col = true) : tlb.isValid row col = true := by
  by_cases bound : row < rvTlbRows
  · rw [isValid_dropWhere tlb drop col bound, Bool.and_eq_true] at valid
    exact valid.1
  · simpa only [RvTlb.isValid, RvTlb.dropWhere, bound, if_false] using valid

/-- The TLB after an insertion: the slot it names holds the entry, and every
other valid slot was valid before and holds what it held. -/
theorem rvTlbInsert_slots (tlb : RvTlb) {row row' col' : Nat} (entry : RvTlbEntry)
    (valid : (rvTlbInsert tlb row entry).1.isValid row' col' = true) :
    (tlbSlot row' col' = (rvTlbInsert tlb row entry).2 ∧
        (rvTlbInsert tlb row entry).1.entries (tlbSlot row' col') = entry) ∨
      (tlbSlot row' col' ≠ (rvTlbInsert tlb row entry).2 ∧ tlb.isValid row' col' = true ∧
        (rvTlbInsert tlb row entry).1.entries (tlbSlot row' col') =
          tlb.entries (tlbSlot row' col')) := by
  simp only [rvTlbInsert] at valid ⊢
  split at valid
  · next col found =>
      by_cases same : tlbSlot row' col' = row * rvTlbColumns + col
      · exact Or.inl ⟨same, by simp [same, RvTlb.setValid, RvTlb.write]⟩
      · refine Or.inr ⟨same, ?_, by simp [RvTlb.setValid, RvTlb.write, Function.update_of_ne same]⟩
        rw [isValid_setValid, Bool.or_eq_true] at valid
        rcases valid with before | new
        · exact before
        · simp only [Bool.and_eq_true, decide_eq_true_eq] at new
          rcases new with ⟨⟨rfl, rfl⟩, _⟩
          exact absurd rfl same
  · next full =>
      by_cases same : tlbSlot row' col' = row * rvTlbColumns + tlb.nextColumn.toNat
      · exact Or.inl ⟨same, by simp [same, RvTlb.write]⟩
      · exact Or.inr ⟨same, valid, by simp [RvTlb.write, Function.update_of_ne same]⟩

end Slots

/-! ### Lookups -/

section Lookup

variable {mc : EmuConfig δ} {m : EmuMachine δ} {h : Nat} {vaddr : U64} {mode : RvAccess}

/-- The lookup finds `slot` in the TLB. -/
def TlbHits (cpu : RvCpu) (vaddr : U64) (mode : RvAccess) (slot : Nat) : Prop :=
  ∃ col, rvTlbScan cpu.tlb (rvTlbRow vaddr) vaddr ((rvSatpAsid cpu).setWidth 16) (rvSetfl mode) =
      some (.hit col) ∧ slot = tlbSlot (rvTlbRow vaddr) col

/-- The machine a lookup that misses walks from: a slot whose A/D bits are
missing has been dropped. -/
def rvTlbDropped (m : EmuMachine δ) (h : Nat) (vaddr : U64) (mode : RvAccess) : EmuMachine δ :=
  match rvTlbScan (m.cpus h).tlb (rvTlbRow vaddr) vaddr ((rvSatpAsid (m.cpus h)).setWidth 16)
      (rvSetfl mode) with
  | some (.stale col) => m.setTlb h ((m.cpus h).tlb.clearValid (rvTlbRow vaddr) col)
  | _ => m

/-- A hit is in a valid slot of the row whose tag matches. -/
theorem rvTlbScan_hit {tlb : RvTlb} {row : Nat} {asid : U16} {setfl : U64} {col : Nat}
    (hit : rvTlbScan tlb row vaddr asid setfl = some (.hit col)) :
    col < rvTlbColumns ∧ tlb.isValid row col = true ∧
      rvTlbMatch (tlb.entries (tlbSlot row col)) vaddr asid = true := by
  obtain ⟨probed, member, probe⟩ := List.exists_of_findSome?_eq_some hit
  simp only [rvTlbProbe] at probe
  split at probe
  · cases probe
  next valid =>
  split at probe
  · cases probe
  next matched =>
  split at probe
  · cases probe
  · cases probe
    exact ⟨List.mem_range.mp member, by simpa using valid, by simpa [tlbSlot] using matched⟩

theorem rvPagingLookup_hit {slot : Nat} (hits : TlbHits (m.cpus h) vaddr mode slot) :
    rvPagingLookup mc m h vaddr mode =
      ⟨.ok, m, (m.cpus h).tlb.entries slot, .hit slot⟩ := by
  rcases hits with ⟨col, scanned, rfl⟩
  simp only [rvPagingLookup, scanned, tlbSlot]

theorem rvPagingLookup_miss (misses : ∀ slot, ¬TlbHits (m.cpus h) vaddr mode slot) :
    rvPagingLookup mc m h vaddr mode = rvPagingMiss mc (rvTlbDropped m h vaddr mode) h vaddr mode := by
  cases scanned : rvTlbScan (m.cpus h).tlb (rvTlbRow vaddr) vaddr
      ((rvSatpAsid (m.cpus h)).setWidth 16) (rvSetfl mode) with
  | none => simp only [rvPagingLookup, rvTlbDropped, scanned]
  | some probe =>
      cases probe with
      | hit col => exact absurd ⟨col, scanned, rfl⟩ (misses _)
      | stale col => simp only [rvPagingLookup, rvTlbDropped, scanned]

theorem rvPagingMiss_path (slot : Nat) : (rvPagingMiss mc m h vaddr mode).path ≠ .hit slot := by
  simp only [rvPagingMiss]
  split
  · exact fun same => by cases same
  split
  · exact fun same => by cases same
  · exact fun same => by cases same

/-- The path a lookup reports is a hit exactly when the scan finds the slot. -/
theorem rvPagingLookup_path {slot : Nat} :
    (rvPagingLookup mc m h vaddr mode).path = .hit slot ↔ TlbHits (m.cpus h) vaddr mode slot := by
  constructor
  · intro path
    by_cases hits : ∃ slot, TlbHits (m.cpus h) vaddr mode slot
    · rcases hits with ⟨slot', hits⟩
      rw [rvPagingLookup_hit hits] at path
      cases path
      exact hits
    · rw [rvPagingLookup_miss (not_exists.mp hits)] at path
      exact absurd path (rvPagingMiss_path slot)
  · intro hits
    rw [rvPagingLookup_hit hits]

/-- What a lookup that misses comes to. -/
theorem rvPagingMiss_cases (mc : EmuConfig δ) (m : EmuMachine δ) (h : Nat) (vaddr : U64)
    (mode : RvAccess) :
    ((∀ slot, (rvPagingMiss mc m h vaddr mode).path ≠ .filled slot) ∧
        ((rvPagingMiss mc m h vaddr mode).machine.cpus h).tlb = (m.cpus h).tlb) ∨
      ((rvPagingRawLookup mc m h vaddr mode).res = .ok ∧
        (rvPagingMiss mc m h vaddr mode).entry = (rvPagingRawLookup mc m h vaddr mode).entry ∧
        ∃ ins, ins = rvTlbInsert (m.cpus h).tlb (rvTlbRow vaddr)
            (rvPagingRawLookup mc m h vaddr mode).entry ∧
          (rvPagingMiss mc m h vaddr mode).path = .filled ins.2 ∧
          ((rvPagingMiss mc m h vaddr mode).machine.cpus h).tlb = ins.1) := by
  have walked := (rvPagingRawLookup_frame mc m h vaddr mode).tlb h
  simp only [rvPagingMiss]
  split
  · exact Or.inl ⟨fun slot => LookupPath.noConfusion, walked⟩
  next ok =>
  split
  · exact Or.inl ⟨fun slot => LookupPath.noConfusion, walked⟩
  · refine Or.inr ⟨not_not.mp ok, rfl, _, rfl, ?_, ?_⟩
    · rw [walked]
    · simp only [EmuMachine.setTlb, EmuMachine.setCpu_same]
      rw [walked]

theorem rvTlbDropped_frame (m : EmuMachine δ) (h : Nat) (vaddr : U64) (mode : RvAccess) :
    CoreFrame (m.cpus h) ((rvTlbDropped m h vaddr mode).cpus h) := by
  unfold rvTlbDropped
  split
  · exact (setTlb_frame m h _).core h
  · exact CoreFrame.refl _

/-- Dropping a stale slot makes nothing valid and changes no entry. -/
theorem rvTlbDropped_slots (m : EmuMachine δ) (h : Nat) (vaddr : U64) (mode : RvAccess) :
    ((rvTlbDropped m h vaddr mode).cpus h).tlb.entries = (m.cpus h).tlb.entries ∧
      ∀ row col, ((rvTlbDropped m h vaddr mode).cpus h).tlb.isValid row col = true →
        (m.cpus h).tlb.isValid row col = true := by
  unfold rvTlbDropped
  split
  · simp only [EmuMachine.setTlb, EmuMachine.setCpu_same]
    exact ⟨rfl, fun row col => isValid_of_clearValid⟩
  · exact ⟨rfl, fun _ _ valid => valid⟩

/-- What a lookup that stores a translation found: the leaf, and the entry it returns. -/
theorem rvPagingLookup_filled {slot : Nat}
    (path : (rvPagingLookup mc m h vaddr mode).path = .filled slot) :
    ∃ leaf, rvFindLeaf mc h vaddr 3 (rvTlbDropped m h vaddr mode)
        ((m.cpus h).csr.satp &&& rvSatpPpnMask) = some leaf ∧
      WalkFound (m.cpus h) vaddr mode leaf (rvPagingLookup mc m h vaddr mode).entry := by
  have misses : ∀ slot', ¬TlbHits (m.cpus h) vaddr mode slot' := by
    intro slot' hits
    rw [rvPagingLookup_hit hits] at path
    cases path
  rw [rvPagingLookup_miss misses] at path ⊢
  rcases rvPagingMiss_cases mc (rvTlbDropped m h vaddr mode) h vaddr mode with
    ⟨other, _⟩ | ⟨ok, entry, _⟩
  · exact absurd path (other slot)
  · rcases rvWalk_ok ok with ⟨leaf, found, walked⟩
    have frame := rvTlbDropped_frame m h vaddr mode
    rw [frame.csr] at found
    rw [entry]
    exact ⟨leaf, found, walked.frame frame⟩

/-- A slot that is valid after a lookup is the one the lookup filled, with the
entry it returned, or held what it holds before. -/
theorem rvPagingLookup_slots (mc : EmuConfig δ) (m : EmuMachine δ) (h : Nat) (vaddr : U64)
    (mode : RvAccess) {row col : Nat}
    (valid : ((rvPagingLookup mc m h vaddr mode).machine.cpus h).tlb.isValid row col = true) :
    ((rvPagingLookup mc m h vaddr mode).path = .filled (tlbSlot row col) ∧
        ((rvPagingLookup mc m h vaddr mode).machine.cpus h).tlb.entries (tlbSlot row col) =
          (rvPagingLookup mc m h vaddr mode).entry) ∨
      ((rvPagingLookup mc m h vaddr mode).path ≠ .filled (tlbSlot row col) ∧
        (m.cpus h).tlb.isValid row col = true ∧
        ((rvPagingLookup mc m h vaddr mode).machine.cpus h).tlb.entries (tlbSlot row col) =
          (m.cpus h).tlb.entries (tlbSlot row col)) := by
  by_cases hits : ∃ slot, TlbHits (m.cpus h) vaddr mode slot
  · rcases hits with ⟨slot, hits⟩
    rw [rvPagingLookup_hit hits] at valid ⊢
    exact Or.inr ⟨LookupPath.noConfusion, valid, rfl⟩
  · obtain ⟨sameEntries, wasValid⟩ := rvTlbDropped_slots m h vaddr mode
    rw [rvPagingLookup_miss (not_exists.mp hits)] at valid ⊢
    rcases rvPagingMiss_cases mc (rvTlbDropped m h vaddr mode) h vaddr mode with
      ⟨path, tlb⟩ | ⟨_, entry, ins, inserted, path, tlb⟩
    · rw [tlb] at valid ⊢
      rw [sameEntries]
      exact Or.inr ⟨path _, wasValid row col valid, rfl⟩
    · rw [tlb] at valid ⊢
      subst inserted
      rcases rvTlbInsert_slots _ _ valid with ⟨same, stored⟩ | ⟨other, before, kept⟩
      · rw [path, same, entry, ← same]
        exact Or.inl ⟨rfl, stored⟩
      · rw [path, kept, sameEntries]
        refine Or.inr ⟨fun same => ?_, wasValid row col before, rfl⟩
        exact other (LookupPath.filled.inj same).symm

end Lookup

/-! ### Runs -/

/-- How a slot was filled: the access whose walk was stored, what it was checked
against, and the leaf and the PMP bits of the leaf's first page at that time. -/
structure TlbFill where
  vaddr : U64
  mode : RvAccess
  user : Bool
  sum : Bool
  leaf : Leaf
  pmp : U8

/-- Physical address of the leaf's first page. -/
def Leaf.base (leaf : Leaf) : U64 := rvPtePpn leaf.pte * rvCpuPageSize

/-- The page number that the fill's address has in its leaf. -/
def TlbFill.ppn (fill : TlbFill) : U64 :=
  rvPtePpn fill.leaf.pte ||| ((fill.vaddr >>> rvCpuPageSizeExp) &&& fill.leaf.offsetMask)

def RvCpu.isUser (cpu : RvCpu) : Bool := cpu.memPrivilege == 0

def RvCpu.sum (cpu : RvCpu) : Bool := cpu.csr.mstatus.getLsbD rvStatusSumBit

def tlbFill (cpu : RvCpu) (vaddr : U64) (mode : RvAccess) (leaf : Leaf) : TlbFill where
  vaddr := vaddr
  mode := mode
  user := cpu.isUser
  sum := cpu.sum
  leaf := leaf
  pmp := rvPmpCheck cpu leaf.base rvCpuPageSize false

/-- A machine and how each slot of the TLB of one of its harts was last filled.
The fills are a history of the run: the code does not keep them. -/
structure TlbRun (δ : Type) where
  machine : EmuMachine δ
  fills : Nat → TlbFill

/-- What happens to the TLB of a hart: a lookup, an `sfence.vma` of any form or
a flush, or anything that leaves this TLB alone. -/
inductive TlbEvent (δ : Type)
  | lookup (vaddr : U64) (mode : RvAccess)
  | fence (vaddr : U64) (asid : U16) (withVaddr withAsid : Bool)
  | other (next : EmuMachine δ)

/-- The leaf that a lookup which misses finds, if it finds one. -/
def lookupLeaf (mc : EmuConfig δ) (h : Nat) (m : EmuMachine δ) (vaddr : U64) (mode : RvAccess) :
    Option Leaf :=
  rvFindLeaf mc h vaddr 3 (rvTlbDropped m h vaddr mode) ((m.cpus h).csr.satp &&& rvSatpPpnMask)

def TlbRun.lookup (mc : EmuConfig δ) (h : Nat) (s : TlbRun δ) (vaddr : U64) (mode : RvAccess) :
    TlbRun δ where
  machine := (rvPagingLookup mc s.machine h vaddr mode).machine
  fills :=
    match (rvPagingLookup mc s.machine h vaddr mode).path with
    | .filled slot =>
        Function.update s.fills slot (tlbFill (s.machine.cpus h) vaddr mode
          ((lookupLeaf mc h s.machine vaddr mode).getD ⟨0, 0⟩))
    | _ => s.fills

def tlbStep (mc : EmuConfig δ) (h : Nat) (s : TlbRun δ) : TlbEvent δ → TlbRun δ
  | .lookup vaddr mode => s.lookup mc h vaddr mode
  | .fence vaddr asid withVaddr withAsid =>
      { s with machine :=
          s.machine.setCpu h (rvInvalTlb (s.machine.cpus h) vaddr asid withVaddr withAsid) }
  | .other next => { s with machine := next.setTlb h (s.machine.cpus h).tlb }

/-- No lookup of the run stores an entry past the last slot, where the memory
of the host's other objects is. -/
def FillsInRange (mc : EmuConfig δ) (h : Nat) (s : TlbRun δ) : TlbEvent δ → Prop
  | .lookup vaddr mode =>
      ∀ slot, (rvPagingLookup mc s.machine h vaddr mode).path = .filled slot →
        slot < rvTlbRows * rvTlbColumns
  | _ => True

def RvTlb.Empty (tlb : RvTlb) : Prop := ∀ row col, row < rvTlbRows → tlb.isValid row col = false

theorem rvFlushTlb_empty (cpu : RvCpu) : (rvFlushTlb cpu).tlb.Empty := by
  intro row col bound
  simp [rvFlushTlb, RvTlb.isValid, bound]

/-- Every valid slot is in relation `R` to the way it was filled. -/
def SlotsHold (h : Nat) (R : TlbFill → RvTlbEntry → Prop) (s : TlbRun δ) : Prop :=
  ∀ row col, row < rvTlbRows → (s.machine.cpus h).tlb.isValid row col = true →
    R (s.fills (tlbSlot row col)) ((s.machine.cpus h).tlb.entries (tlbSlot row col))

section Runs

variable {mc : EmuConfig δ} {h : Nat} {s : TlbRun δ} {R : TlbFill → RvTlbEntry → Prop}

theorem slotsHold_empty (empty : (s.machine.cpus h).tlb.Empty) : SlotsHold h R s := by
  intro row col bound valid
  rw [empty row col bound] at valid
  cases valid

/-- A lookup keeps a relation of fills and entries that every successful walk
establishes. -/
theorem lookup_slots {vaddr : U64} {mode : RvAccess} (slots : SlotsHold h R s)
    (walked : ∀ leaf entry, lookupLeaf mc h s.machine vaddr mode = some leaf →
      WalkFound (s.machine.cpus h) vaddr mode leaf entry →
        R (tlbFill (s.machine.cpus h) vaddr mode leaf) entry) :
    SlotsHold h R (s.lookup mc h vaddr mode) := by
  intro row col bound valid
  simp only [TlbRun.lookup] at valid ⊢
  rcases rvPagingLookup_slots mc s.machine h vaddr mode valid with
    ⟨path, stored⟩ | ⟨other, before, kept⟩
  · rcases rvPagingLookup_filled path with ⟨leaf, found, entry⟩
    simp only [path, stored, Function.update_self]
    rw [lookupLeaf, found, Option.getD_some]
    exact walked leaf _ found entry
  · rw [kept]
    cases path : (rvPagingLookup mc s.machine h vaddr mode).path with
    | filled slot =>
        have apart : tlbSlot row col ≠ slot := by
          rintro rfl
          exact other path
        simp only [Function.update_of_ne apart]
        exact slots row col bound before
    | hit slot => exact slots row col bound before
    | walked => exact slots row col bound before

theorem rvInvalTlb_slots (cpu : RvCpu) (vaddr : U64) (asid : U16) (withVaddr withAsid : Bool) :
    (rvInvalTlb cpu vaddr asid withVaddr withAsid).tlb.entries = cpu.tlb.entries ∧
      ∀ row col, (rvInvalTlb cpu vaddr asid withVaddr withAsid).tlb.isValid row col = true →
        cpu.tlb.isValid row col = true := by
  unfold rvInvalTlb
  split_ifs
  · exact ⟨rfl, fun _ _ valid => valid⟩
  · exact ⟨rfl, fun row col => isValid_of_dropWhere⟩
  · exact ⟨rfl, fun row col => isValid_of_dropWhere⟩
  · refine ⟨rfl, fun row col valid => ?_⟩
    simp only [rvFlushTlb, RvTlb.isValid] at valid ⊢
    split at valid
    · simp at valid
    · exact valid

/-- The step rule: only walks can break a relation of fills and entries. -/
theorem tlbStep_slots {e : TlbEvent δ} (slots : SlotsHold h R s)
    (walked : ∀ vaddr mode leaf entry, e = .lookup vaddr mode →
      lookupLeaf mc h s.machine vaddr mode = some leaf →
        WalkFound (s.machine.cpus h) vaddr mode leaf entry →
          R (tlbFill (s.machine.cpus h) vaddr mode leaf) entry) :
    SlotsHold h R (tlbStep mc h s e) := by
  cases e with
  | lookup vaddr mode => exact lookup_slots slots fun leaf entry => walked vaddr mode leaf entry rfl
  | fence vaddr asid withVaddr withAsid =>
      obtain ⟨sameEntries, wasValid⟩ :=
        rvInvalTlb_slots (s.machine.cpus h) vaddr asid withVaddr withAsid
      intro row col bound valid
      simp only [tlbStep, EmuMachine.setCpu_same] at valid ⊢
      rw [sameEntries]
      exact slots row col bound (wasValid row col valid)
  | other next =>
      intro row col bound valid
      simp only [tlbStep, EmuMachine.setTlb, EmuMachine.setCpu_same] at valid ⊢
      exact slots row col bound valid

/-! ### Accesses as runs -/

/-- The machine is reached from the state by things that happen to the TLB. -/
def Reaches (mc : EmuConfig δ) (h : Nat) (s : TlbRun δ) (m : EmuMachine δ) : Prop :=
  ∃ events, (run (tlbStep mc h) s events).machine = m

theorem reaches_lookup (vaddr : U64) (mode : RvAccess) {m : EmuMachine δ}
    (later : Reaches mc h (s.lookup mc h vaddr mode) m) : Reaches mc h s m := by
  rcases later with ⟨events, arrived⟩
  exact ⟨.lookup vaddr mode :: events, arrived⟩

theorem reaches_phys {m : EmuMachine δ} (frame : PhysFrame s.machine m) : Reaches mc h s m := by
  refine ⟨[.other m], ?_⟩
  simp only [run_cons, run_nil, tlbStep, EmuMachine.setTlb, EmuMachine.setCpu, ← frame.tlb h]
  rw [Function.update_eq_self]

/-- All that an access does to the TLB of its hart are lookups. -/
theorem rvAccessVirt_reaches (vaddr data : U64) (sizeExp : Fin 4) (mode : RvAccess) :
    Reaches mc h s (rvAccessVirt mc s.machine h vaddr data sizeExp mode).machine := by
  have still : Reaches mc h s s.machine := reaches_phys (PhysFrame.refl _)
  have looked : Reaches mc h s (rvPagingLookup mc s.machine h vaddr mode).machine :=
    reaches_lookup vaddr mode (reaches_phys (PhysFrame.refl _))
  simp only [rvAccessVirt, rvAccessVirtBy]
  split
  · exact reaches_phys (rvAccessPhys_frame mc _ h vaddr data sizeExp mode false)
  split
  · exact still
  split
  · simp only [rvAccessVirtPageboundary]
    split
    · exact still
    split
    · exact looked
    split
    · apply reaches_lookup vaddr mode
      apply reaches_lookup (rvNextPage vaddr) mode
      exact reaches_phys (PhysFrame.refl _)
    · apply reaches_lookup vaddr mode
      apply reaches_lookup (rvNextPage vaddr) mode
      exact reaches_phys (rvAccessTwoPages_frame mc _ h vaddr data _ mode _ _)
  split
  · exact looked
  · apply reaches_lookup vaddr mode
    exact reaches_phys (rvAccessPhys_frame mc _ h _ data sizeExp mode true)

end Runs

end Riscmulator
