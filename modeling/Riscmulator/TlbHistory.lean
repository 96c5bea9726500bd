import Riscmulator.TlbAddress

/-! The TLB of a hart over address-space switches: which lookup filled each slot,
and that a hit under one ASID returns what was filled under it, or is global. -/

namespace Riscmulator

open Transition

variable {δ : Type}

/-! ### Runs -/

/-- A call of `rv_paging_lookup`: the machine it is made on, the address and the access. -/
structure TlbLookup (δ : Type) where
  machine : EmuMachine δ
  vaddr : U64
  mode : RvAccess

def TlbLookup.outcome (mc : EmuConfig δ) (h : Nat) (l : TlbLookup δ) : LookupOutcome δ :=
  rvPagingLookup mc l.machine h l.vaddr l.mode

/-- A machine and, for each slot of the TLB of one of its harts, the lookup that
last filled it. The lookups are a history of the run: the code does not keep them. -/
structure VmRun (δ : Type) where
  machine : EmuMachine δ
  fills : Nat → TlbLookup δ

/-- What happens to the address space of a hart: a lookup, an `sfence.vma` of any
form, a write to `satp`, or anything else, changes of the page tables among it,
that leaves its TLB and its `satp` alone. -/
inductive VmEvent (δ : Type)
  | lookup (vaddr : U64) (mode : RvAccess)
  | fence (vaddr : U64) (asid : U16) (withVaddr withAsid : Bool)
  | satp (wdata : U64)
  | other (next : EmuMachine δ)

/-- `next` with the TLB and the `satp` of `cpu` in hart `h`. -/
def EmuMachine.withVm (next : EmuMachine δ) (h : Nat) (cpu : RvCpu) : EmuMachine δ :=
  next.setCpu h { next.cpus h with
    tlb := cpu.tlb
    csr := { (next.cpus h).csr with satp := cpu.csr.satp } }

/-- A write to `satp`; one that fails changes nothing. -/
def rvSatpWrite (cpu : RvCpu) (wdata : U64) : RvCpu := (rvCsrWriteReg cpu .satp wdata).getD cpu

def VmRun.lookup (mc : EmuConfig δ) (h : Nat) (s : VmRun δ) (l : TlbLookup δ) : VmRun δ where
  machine := (l.outcome mc h).machine
  fills :=
    match (l.outcome mc h).path with
    | .filled slot => Function.update s.fills slot l
    | _ => s.fills

def vmStep (mc : EmuConfig δ) (h : Nat) (s : VmRun δ) : VmEvent δ → VmRun δ
  | .lookup vaddr mode => s.lookup mc h ⟨s.machine, vaddr, mode⟩
  | .fence vaddr asid withVaddr withAsid =>
      { s with machine :=
          s.machine.setCpu h (rvInvalTlb (s.machine.cpus h) vaddr asid withVaddr withAsid) }
  | .satp wdata =>
      { s with machine := s.machine.setCpu h (rvSatpWrite (s.machine.cpus h) wdata) }
  | .other next => { s with machine := next.withVm h (s.machine.cpus h) }

/-- The lookup walked to this leaf and stored the entry into this slot. -/
structure TlbLookup.Fills (mc : EmuConfig δ) (h : Nat) (l : TlbLookup δ) (slot : Nat) (leaf : Leaf)
    (entry : RvTlbEntry) : Prop where
  path : (l.outcome mc h).path = .filled slot
  returned : (l.outcome mc h).entry = entry
  walked : lookupLeaf mc h l.machine l.vaddr l.mode = some leaf
  found : WalkFound (l.machine.cpus h) l.vaddr l.mode leaf entry

theorem TlbLookup.fills_of_path {mc : EmuConfig δ} {h : Nat} {l : TlbLookup δ} {slot : Nat}
    (path : (l.outcome mc h).path = .filled slot) :
    ∃ leaf, l.Fills mc h slot leaf (l.outcome mc h).entry := by
  rcases rvPagingLookup_filled path with ⟨leaf, found, entry⟩
  exact ⟨leaf, path, rfl, found, entry⟩

/-- Every valid slot holds what the lookup recorded for it stored there. -/
def HistoryHolds (mc : EmuConfig δ) (h : Nat) (s : VmRun δ) : Prop :=
  ∀ row col, row < rvTlbRows → (s.machine.cpus h).tlb.isValid row col = true →
    ∃ leaf, (s.fills (tlbSlot row col)).Fills mc h (tlbSlot row col) leaf
      ((s.machine.cpus h).tlb.entries (tlbSlot row col))

section History

variable {mc : EmuConfig δ} {h : Nat} {s : VmRun δ}

/-- Changes of a TLB that make nothing valid and change no entry. -/
structure TlbShrinks (tlb tlb' : RvTlb) : Prop where
  entries : tlb'.entries = tlb.entries
  valid : ∀ row col, tlb'.isValid row col = true → tlb.isValid row col = true

theorem HistoryHolds.shrink (holds : HistoryHolds mc h s) {m : EmuMachine δ}
    (shrinks : TlbShrinks (s.machine.cpus h).tlb (m.cpus h).tlb) :
    HistoryHolds mc h { s with machine := m } := by
  intro row col bound valid
  simp only [shrinks.entries]
  exact holds row col bound (shrinks.valid row col valid)

theorem rvFlushTlb_shrinks (cpu : RvCpu) : TlbShrinks cpu.tlb (rvFlushTlb cpu).tlb := by
  obtain ⟨entries, valid⟩ := rvInvalTlb_slots cpu 0 0 false false
  exact ⟨entries, valid⟩

/-- A write to `satp` leaves the TLB alone or flushes it. -/
theorem satpWrite_shrinks (cpu : RvCpu) (wdata : U64) :
    TlbShrinks cpu.tlb (rvSatpWrite cpu wdata).tlb := by
  simp only [rvSatpWrite, rvCsrWriteReg]
  split_ifs
  · exact ⟨rfl, fun _ _ valid => valid⟩
  · exact ⟨rfl, fun _ _ valid => valid⟩
  · exact rvFlushTlb_shrinks cpu
  · exact ⟨rfl, fun _ _ valid => valid⟩

/-- After a lookup, a valid slot is recorded and filled by it, or is as before. -/
theorem vmLookup_slots (mc : EmuConfig δ) (h : Nat) (s : VmRun δ) (l : TlbLookup δ)
    (here : l.machine = s.machine) {row col : Nat}
    (valid : ((s.lookup mc h l).machine.cpus h).tlb.isValid row col = true) :
    ((s.lookup mc h l).fills (tlbSlot row col) = l ∧
        (l.outcome mc h).path = .filled (tlbSlot row col) ∧
        ((s.lookup mc h l).machine.cpus h).tlb.entries (tlbSlot row col) =
          (l.outcome mc h).entry) ∨
      ((s.lookup mc h l).fills (tlbSlot row col) = s.fills (tlbSlot row col) ∧
        (s.machine.cpus h).tlb.isValid row col = true ∧
        ((s.lookup mc h l).machine.cpus h).tlb.entries (tlbSlot row col) =
          (s.machine.cpus h).tlb.entries (tlbSlot row col)) := by
  rw [← here]
  rcases rvPagingLookup_slots mc l.machine h l.vaddr l.mode valid with
    ⟨path, stored⟩ | ⟨other, before, kept⟩
  · have filled : (l.outcome mc h).path = .filled (tlbSlot row col) := path
    refine Or.inl ⟨?_, filled, stored⟩
    simp only [VmRun.lookup, filled, Function.update_self]
  · refine Or.inr ⟨?_, before, kept⟩
    cases path : (l.outcome mc h).path with
    | filled slot =>
        have apart : tlbSlot row col ≠ slot := by
          rintro rfl
          exact other path
        simp only [VmRun.lookup, path, Function.update_of_ne apart]
    | hit slot => simp only [VmRun.lookup, path]
    | walked => simp only [VmRun.lookup, path]

theorem historyHolds_lookup (holds : HistoryHolds mc h s) (vaddr : U64) (mode : RvAccess) :
    HistoryHolds mc h (vmStep mc h s (.lookup vaddr mode)) := by
  intro row col bound valid
  simp only [vmStep] at valid ⊢
  rcases vmLookup_slots mc h s ⟨s.machine, vaddr, mode⟩ rfl valid with
    ⟨recorded, path, stored⟩ | ⟨recorded, before, kept⟩
  · rw [recorded, stored]
    exact TlbLookup.fills_of_path path
  · rw [recorded, kept]
    exact holds row col bound before

theorem historyHolds_step (holds : HistoryHolds mc h s) (e : VmEvent δ) :
    HistoryHolds mc h (vmStep mc h s e) := by
  cases e with
  | lookup vaddr mode => exact historyHolds_lookup holds vaddr mode
  | fence vaddr asid withVaddr withAsid =>
      obtain ⟨entries, valid⟩ :=
        rvInvalTlb_slots (s.machine.cpus h) vaddr asid withVaddr withAsid
      apply holds.shrink
      rw [EmuMachine.setCpu_same]
      exact ⟨entries, valid⟩
  | satp wdata =>
      apply holds.shrink
      rw [EmuMachine.setCpu_same]
      exact satpWrite_shrinks (s.machine.cpus h) wdata
  | other next =>
      apply holds.shrink
      rw [EmuMachine.withVm, EmuMachine.setCpu_same]
      exact ⟨rfl, fun _ _ valid => valid⟩

theorem historyHolds_empty (empty : (s.machine.cpus h).tlb.Empty) : HistoryHolds mc h s := by
  intro row col bound valid
  rw [empty row col bound] at valid
  cases valid

theorem historyHolds_run {start : VmRun δ} (empty : (start.machine.cpus h).tlb.Empty)
    (events : List (VmEvent δ)) : HistoryHolds mc h (run (vmStep mc h) start events) :=
  invariant_run_always (I := HistoryHolds mc h) (fun _ e holds => historyHolds_step holds e)
    events (historyHolds_empty empty)

/-- The slot a lookup hits was filled by the lookup recorded for it. -/
theorem HistoryHolds.hit (holds : HistoryHolds mc h s) {m : EmuMachine δ}
    (same : (m.cpus h).tlb = (s.machine.cpus h).tlb) {vaddr : U64} {mode : RvAccess} {slot : Nat}
    (hits : TlbHits (m.cpus h) vaddr mode slot) :
    ∃ leaf, (s.fills slot).Fills mc h slot leaf ((s.machine.cpus h).tlb.entries slot) := by
  rcases hits.isValid with ⟨row, col, rfl, bound, valid⟩
  rw [same] at valid
  exact holds row col bound valid

end History

/-! ### Address-space identifiers -/

/-- The ASID field of `satp`. -/
def RvCpu.satpAsid (cpu : RvCpu) : U16 := (rvSatpAsid cpu).setWidth 16

theorem rvTlbVpnMask_high : ∀ i < 64, rvTlbAsidBaseBit ≤ i → rvTlbVpnMask.getLsbD i = false := by
  decide

/-- The entry of a leaf is tagged with the ASID of its walk. -/
theorem rvLeafEntry_asid (cpu : RvCpu) (vaddr pte : U64) (level : Nat) :
    (rvLeafEntry cpu vaddr pte level).asid = cpu.satpAsid := by
  have mask : ∀ i < 16, rvTlbAsidMask.getLsbD (rvTlbAsidBaseBit + i) = true := by decide
  apply BitVec.eq_of_getLsbD_eq
  intro i low
  have word : rvTlbAsidBaseBit + i < 64 := by
    rw [rvTlbAsidBaseBit]
    omega
  have position : rvTlbAsidBaseBit + i - rvTlbAsidBaseBit = i := Nat.add_sub_cancel_left _ i
  have pmp : ∀ bits : U8, bits.getLsbD (rvTlbAsidBaseBit + i) = false := fun bits =>
    BitVec.getLsbD_of_ge bits _ (by rw [rvTlbAsidBaseBit]; omega)
  have above : ¬rvTlbAsidBaseBit + i < rvTlbAsidBaseBit := by omega
  simp only [RvTlbEntry.asid, RvCpu.satpAsid, rvLeafEntry, BitVec.getLsbD_setWidth,
    BitVec.getLsbD_ushiftRight, BitVec.getLsbD_and, BitVec.getLsbD_or, BitVec.getLsbD_shiftLeft,
    mask i low, rvTlbVpnMask_high _ word (Nat.le_add_right _ _), position, pmp, low, word, above,
    decide_true, decide_false, Bool.not_false, Bool.true_and, Bool.and_true, Bool.and_false,
    Bool.or_false]

theorem WalkFound.asid {cpu : RvCpu} {vaddr : U64} {mode : RvAccess} {leaf : Leaf}
    {entry : RvTlbEntry} (found : WalkFound cpu vaddr mode leaf entry) :
    entry.asid = cpu.satpAsid := by
  rw [RvTlbEntry.asid, found.vma]
  exact rvLeafEntry_asid cpu vaddr leaf.pte leaf.level

/-- The entry is global exactly when the leaf was. -/
theorem WalkFound.global {cpu : RvCpu} {vaddr : U64} {mode : RvAccess} {leaf : Leaf}
    {entry : RvTlbEntry} (found : WalkFound cpu vaddr mode leaf entry) :
    entry.pte.getLsbD rvPteGBit = leaf.pte.getLsbD rvPteGBit := by
  rcases found.pte with ⟨set, kind, stored⟩
  have quiet : set.getLsbD rvPteGBit = false := by
    rcases kind with rfl | rfl
    · exact BitVec.getLsbD_zero
    · exact rvSetfl_bits mode _ (by decide) (by decide)
  rw [stored, BitVec.getLsbD_or, quiet, Bool.or_false, rvLeafEntry_pte _ _ _ _ (by decide)]

/-- A hit under an ASID returns an entry that a walk under the same ASID stored,
or one of a leaf that was global at the time. -/
theorem asidIsolated_run (mc : EmuConfig δ) (h : Nat) (start : VmRun δ)
    (empty : (start.machine.cpus h).tlb.Empty) (events : List (VmEvent δ)) (vaddr : U64)
    (mode : RvAccess) (slot : Nat)
    (hit : (rvPagingLookup mc (run (vmStep mc h) start events).machine h vaddr mode).path =
      .hit slot) :
    ∃ leaf, ((run (vmStep mc h) start events).fills slot).Fills mc h slot leaf
        (rvPagingLookup mc (run (vmStep mc h) start events).machine h vaddr mode).entry ∧
      ((((run (vmStep mc h) start events).fills slot).machine.cpus h).satpAsid =
          ((run (vmStep mc h) start events).machine.cpus h).satpAsid ∨
        leaf.pte.getLsbD rvPteGBit = true) := by
  have hits := rvPagingLookup_path.mp hit
  rcases (historyHolds_run empty events).hit rfl hits with ⟨leaf, fills⟩
  rw [rvPagingLookup_hit hits]
  refine ⟨leaf, fills, ?_⟩
  rcases hits with ⟨col, scanned, rfl⟩
  have tag := (rvTlbScan_hit scanned).2.2
  simp only [rvTlbMatch, Bool.and_eq_true, Bool.not_eq_true', Bool.and_eq_false_iff,
    Bool.not_eq_false', decide_eq_false_iff_not, not_not] at tag
  rcases tag.2 with isGlobal | sameAsid
  · right
    rw [← fills.found.global]
    exact isGlobal
  · left
    rw [← fills.found.asid]
    exact sameAsid

/-! ### One page under an ASID -/

/-- The machine of `emu_machine_init`, with an empty TLB. -/
def VmRun.init (device : δ) : VmRun δ :=
  ⟨emuMachineInit device, fun _ => ⟨emuMachineInit device, 0, .load⟩⟩

/-- Page tables at 0 with one readable page, ASID 5, and a load. -/
def onePageAsid : List (VmEvent Unit) :=
  [.other (onePageMachine 0x1f 0xc3), .satp 0x8000500000000000, .lookup 0 .load]

/-- The second load hits what the first one stored under ASID 5. -/
theorem asidIsolated_run_again :
    ∃ leaf, ((run (vmStep (EmuConfig.ramOnly 0 0x1000 1) 0) (VmRun.init ()) onePageAsid).fills
        0).Fills (EmuConfig.ramOnly 0 0x1000 1) 0 0 leaf
        (rvPagingLookup (EmuConfig.ramOnly 0 0x1000 1)
          (run (vmStep (EmuConfig.ramOnly 0 0x1000 1) 0) (VmRun.init ()) onePageAsid).machine 0 0
          .load).entry ∧
      ((((run (vmStep (EmuConfig.ramOnly 0 0x1000 1) 0) (VmRun.init ()) onePageAsid).fills
          0).machine.cpus 0).satpAsid =
          ((run (vmStep (EmuConfig.ramOnly 0 0x1000 1) 0) (VmRun.init ())
            onePageAsid).machine.cpus 0).satpAsid ∨
        leaf.pte.getLsbD rvPteGBit = true) :=
  asidIsolated_run (EmuConfig.ramOnly 0 0x1000 1) 0 (VmRun.init ()) (emuMachineInit_empty () 0)
    onePageAsid 0 .load 0 (by decide +kernel)

end Riscmulator
