import Riscmulator.TlbFills

/-! Access control on TLB hits. A lookup that hits returns the entry without
checking it, so what it grants rests on the access that filled the slot. -/

namespace Riscmulator

open Transition

variable {δ : Type}

/-! ### The access check, bit by bit -/

/-- Whether a page with this U bit may be accessed: user pages by U-mode, and by
the other modes under SUM. -/
def LevelAllows (user sum userPage : Bool) : Prop :=
  if user then userPage = true else userPage = true → sum = true

theorem RvAccess.pteBit_lt (mode : RvAccess) : mode.pteBit < 5 := by cases mode <;> decide

theorem RvAccess.pmpBit_lt (mode : RvAccess) : mode.pmpBit < 3 := by cases mode <;> decide

theorem checkAccess_ok_iff (cpu : RvCpu) (entry : RvTlbEntry) (mode : RvAccess) :
    checkAccess cpu entry mode = .ok ↔
      LevelAllows cpu.isUser cpu.sum (entry.pte.getLsbD rvPteUBit) ∧
        entry.pte.getLsbD mode.pteBit = true ∧ entry.vma.getLsbD mode.pmpBit = true := by
  have user : cpu.memPrivilege = 0 ↔ cpu.isUser = true := by simp [RvCpu.isUser]
  simp only [checkAccess, LevelAllows, ne_eq, user, RvCpu.sum]
  generalize cpu.isUser = isUser
  generalize cpu.csr.mstatus.getLsbD rvStatusSumBit = sum
  generalize entry.pte.getLsbD rvPteUBit = userPage
  generalize entry.pte.getLsbD mode.pteBit = permitted
  generalize entry.vma.getLsbD mode.pmpBit = pmp
  revert isUser sum userPage permitted pmp
  decide

/-- The entry of a leaf has the low bits of the leaf. -/
theorem rvLeafEntry_pte (cpu : RvCpu) (vaddr pte : U64) (level : Nat) {i : Nat}
    (low : i < rvPtePpnBaseBit) :
    (rvLeafEntry cpu vaddr pte level).pte.getLsbD i = pte.getLsbD i := by
  simp [rvLeafEntry, low]

theorem rvTlbVpnMask_low : ∀ i < rvCpuPageSizeExp, rvTlbVpnMask.getLsbD i = false := by decide

/-- The entry of a leaf has the PMP bits of the leaf's first page. -/
theorem rvLeafEntry_vma (cpu : RvCpu) (vaddr pte : U64) (level : Nat) {i : Nat} (low : i < 8) :
    (rvLeafEntry cpu vaddr pte level).vma.getLsbD i =
      (rvPmpCheck cpu (rvPtePpn pte * rvCpuPageSize) rvCpuPageSize false).getLsbD i := by
  have asid : i < rvTlbAsidBaseBit := lt_trans low (by decide)
  have page : rvTlbVpnMask.getLsbD i = false := rvTlbVpnMask_low i (lt_trans low (by decide))
  have word : i < 64 := lt_trans low (by decide)
  simp only [rvLeafEntry, BitVec.getLsbD_or, BitVec.getLsbD_and, BitVec.getLsbD_shiftLeft, page, asid,
    BitVec.getLsbD_setWidth, word, decide_true, Bool.not_true, Bool.and_false, Bool.false_and,
    Bool.true_and, Bool.false_or]

theorem rvSetfl_low (mode : RvAccess) : ∀ i < 5, (rvSetfl mode).getLsbD i = false := by
  cases mode <;> decide

/-! ### What a slot keeps of its fill -/

/-- The permission bits of the entry are those that the filling walk read, and
they granted the access it was made for. -/
structure KeepsPerms (fill : TlbFill) (entry : RvTlbEntry) : Prop where
  pte : ∀ i < 5, entry.pte.getLsbD i = fill.leaf.pte.getLsbD i
  pmp : ∀ i < 3, entry.vma.getLsbD i = fill.pmp.getLsbD i
  level : LevelAllows fill.user fill.sum (fill.leaf.pte.getLsbD rvPteUBit)
  granted : fill.leaf.pte.getLsbD fill.mode.pteBit = true ∧
    fill.pmp.getLsbD fill.mode.pmpBit = true

theorem WalkFound.keepsPerms {cpu : RvCpu} {vaddr : U64} {mode : RvAccess} {leaf : Leaf}
    {entry : RvTlbEntry} (found : WalkFound cpu vaddr mode leaf entry) :
    KeepsPerms (tlbFill cpu vaddr mode leaf) entry := by
  obtain ⟨level, permitted, pmp⟩ := (checkAccess_ok_iff _ _ _).mp found.checked
  have ppn : ∀ {i : Nat}, i < 5 → i < rvPtePpnBaseBit := fun low => lt_trans low (by decide)
  refine ⟨fun i low => ?_, fun i low => ?_, ?_, ?_, ?_⟩
  · rcases found.pte with ⟨set, kind, entryPte⟩
    have quiet : set.getLsbD i = false := by
      rcases kind with rfl | rfl
      · exact BitVec.getLsbD_zero
      · exact rvSetfl_low mode i low
    rw [entryPte, BitVec.getLsbD_or, quiet, Bool.or_false, rvLeafEntry_pte _ _ _ _ (ppn low)]
    rfl
  · rw [found.vma, rvLeafEntry_vma _ _ _ _ (lt_trans low (by decide))]
    rfl
  · rwa [rvLeafEntry_pte _ _ _ _ (by decide)] at level
  · rwa [rvLeafEntry_pte _ _ _ _ (ppn mode.pteBit_lt)] at permitted
  · rwa [rvLeafEntry_vma _ _ _ _ (lt_trans mode.pmpBit_lt (by decide))] at pmp

/-! ### Runs -/

/-- A state that the TLB of hart `h` reaches from empty, with every store of an
entry inside it. -/
def TlbReached (mc : EmuConfig δ) (h : Nat) (s : TlbRun δ) : Prop :=
  ∃ start events, (start.machine.cpus h).tlb.Empty ∧
    StepsMeet (tlbStep mc h) (FillsInRange mc h) start events ∧
      s = run (tlbStep mc h) start events

/-- If the lookup is served from the TLB, the access check passes on the entry it
returns. -/
def HitGranted (mc : EmuConfig δ) (h : Nat) (s : TlbRun δ) (vaddr : U64) (mode : RvAccess) : Prop :=
  ∀ slot, (rvPagingLookup mc s.machine h vaddr mode).path = .hit slot →
    checkAccess (s.machine.cpus h) (rvPagingLookup mc s.machine h vaddr mode).entry mode = .ok

/-- The permission that a mode needs; an AMO needs that of a store. -/
def RvAccess.kind : RvAccess → RvAccess
  | .amo => .store
  | mode => mode

theorem RvAccess.bits_of_kind {mode mode' : RvAccess} (same : mode.kind = mode'.kind) :
    mode.pteBit = mode'.pteBit ∧ mode.pmpBit = mode'.pmpBit := by
  cases mode <;> cases mode' <;> first | exact ⟨rfl, rfl⟩ | cases same

/-- The condition on a hit. The privilege and SUM are those of the access that
filled the slot, or the leaf's U bit allows the present ones; and the permission
needed is that of the filling access, or both the leaf and the PMP bits read
for it have it. -/
def Regrants (cpu : RvCpu) (fill : TlbFill) (mode : RvAccess) : Prop :=
  ((cpu.isUser = fill.user ∧ cpu.sum = fill.sum) ∨
      LevelAllows cpu.isUser cpu.sum (fill.leaf.pte.getLsbD rvPteUBit)) ∧
    (mode.kind = fill.mode.kind ∨
      (fill.leaf.pte.getLsbD mode.pteBit = true ∧ fill.pmp.getLsbD mode.pmpBit = true))

/-- On an entry that keeps the permissions of its fill, the check passes exactly
under the condition. -/
theorem KeepsPerms.checkAccess_iff {fill : TlbFill} {entry : RvTlbEntry}
    (kept : KeepsPerms fill entry) (cpu : RvCpu) (mode : RvAccess) :
    checkAccess cpu entry mode = .ok ↔ Regrants cpu fill mode := by
  rw [checkAccess_ok_iff, kept.pte _ (by decide), kept.pte _ mode.pteBit_lt,
    kept.pmp _ mode.pmpBit_lt]
  constructor
  · intro bits
    rcases bits with ⟨level, permitted, pmp⟩
    exact ⟨Or.inr level, Or.inr ⟨permitted, pmp⟩⟩
  · intro regrants
    rcases regrants with ⟨level, permitted⟩
    constructor
    · rcases level with ⟨user, sum⟩ | level
      · rw [user, sum]
        exact kept.level
      · exact level
    · rcases permitted with kind | permitted
      · rcases RvAccess.bits_of_kind kind with ⟨pteBit, pmpBit⟩
        rw [pteBit, pmpBit]
        exact kept.granted
      · exact permitted

theorem TlbHits.unique {cpu : RvCpu} {vaddr : U64} {mode : RvAccess} {slot slot' : Nat}
    (hits : TlbHits cpu vaddr mode slot) (hits' : TlbHits cpu vaddr mode slot') : slot = slot' := by
  rcases hits with ⟨col, scanned, rfl⟩
  rcases hits' with ⟨col', scanned', rfl⟩
  rw [scanned] at scanned'
  cases scanned'
  rfl

theorem TlbHits.isValid {cpu : RvCpu} {vaddr : U64} {mode : RvAccess} {slot : Nat}
    (hits : TlbHits cpu vaddr mode slot) :
    ∃ row col, slot = tlbSlot row col ∧ row < rvTlbRows ∧ cpu.tlb.isValid row col = true := by
  rcases hits with ⟨col, scanned, rfl⟩
  exact ⟨_, col, rfl, rvTlbRow_lt vaddr, (rvTlbScan_hit scanned).2.1⟩

/-- In every state reached, every slot keeps the permissions of its fill. -/
theorem slotsHold_keepsPerms {mc : EmuConfig δ} {h : Nat} {s : TlbRun δ}
    (reached : TlbReached mc h s) : SlotsHold h KeepsPerms s := by
  rcases reached with ⟨start, events, empty, _, rfl⟩
  exact invariant_run_always (I := SlotsHold h KeepsPerms)
    (fun s e slots => tlbStep_slots slots fun vaddr mode leaf entry _ _ found => found.keepsPerms)
    events (slotsHold_empty empty)

/-- In every state reached, a lookup that hits grants what the access check
grants exactly if the slot it hits meets the condition. -/
theorem hitGranted_iff (mc : EmuConfig δ) (h : Nat) (s : TlbRun δ) (reached : TlbReached mc h s)
    (vaddr : U64) (mode : RvAccess) :
    HitGranted mc h s vaddr mode ↔
      ∀ slot, TlbHits (s.machine.cpus h) vaddr mode slot →
        Regrants (s.machine.cpus h) (s.fills slot) mode := by
  have kept : ∀ slot, TlbHits (s.machine.cpus h) vaddr mode slot →
      KeepsPerms (s.fills slot) ((s.machine.cpus h).tlb.entries slot) := by
    intro slot hits
    rcases hits.isValid with ⟨row, col, rfl, bound, valid⟩
    exact slotsHold_keepsPerms reached row col bound valid
  constructor
  · intro granted slot hits
    have checked := granted slot (rvPagingLookup_path.mpr hits)
    rw [rvPagingLookup_hit hits] at checked
    exact ((kept slot hits).checkAccess_iff _ mode).mp checked
  · intro regrants slot path
    have hits := rvPagingLookup_path.mp path
    rw [rvPagingLookup_hit hits]
    exact ((kept slot hits).checkAccess_iff _ mode).mpr (regrants slot hits)

/-! ### One page -/

/-- A hart in S-mode with paging on, one PMP region over all of memory with the
configuration byte `pmp`, and a root page table at 0 whose first entry is `flags`. -/
def onePageMachine (pmp : U64) (flags : U8) : EmuMachine Unit :=
  { emuMachineInit () with
    ram := fun i => if i = 0 then flags else 0
    cpus := fun _ => { RvCpu.zero with
      csr := { RvCpu.zero.csr with
        satp := 0x8000000000000000
        pmpcfg := fun _ => pmp
        pmpaddr := fun _ => 0xffffffffffffffff }
      privilege := 1
      memPrivilege := 1 } }

def onePageLoaded (pmp : U64) (flags : U8) : TlbRun Unit :=
  run (tlbStep (EmuConfig.ramOnly 0 0x1000 1) 0)
    ⟨emuMachineInit (), fun _ => tlbFill RvCpu.zero 0 .load ⟨0, 0⟩⟩
    [.other (onePageMachine pmp flags), .lookup 0 .load]

theorem emuMachineInit_empty {δ : Type} (device : δ) (h : Nat) :
    ((emuMachineInit device).cpus h).tlb.Empty := by
  intro row col _
  exact BitVec.getLsbD_zero

theorem onePageLoaded_reached (pmp : U64) (flags : U8)
    (first : (rvPagingLookup (EmuConfig.ramOnly 0 0x1000 1)
      ((onePageMachine pmp flags).setTlb 0 ((emuMachineInit ()).cpus 0).tlb) 0 0 .load).path =
        .filled 0) :
    TlbReached (EmuConfig.ramOnly 0 0x1000 1) 0 (onePageLoaded pmp flags) := by
  refine ⟨⟨emuMachineInit (), fun _ => tlbFill RvCpu.zero 0 .load ⟨0, 0⟩⟩,
    [.other (onePageMachine pmp flags), .lookup 0 .load], emuMachineInit_empty () 0,
    ⟨trivial, ?_, trivial⟩, rfl⟩
  intro slot path
  cases first.symm.trans path
  decide

/-- Loading twice from a page with R, A and D. -/
theorem hitGranted_iff_again :
    HitGranted (EmuConfig.ramOnly 0 0x1000 1) 0 (onePageLoaded 0x1f 0xc3) 0 .load :=
  (hitGranted_iff (EmuConfig.ramOnly 0 0x1000 1) 0 (onePageLoaded 0x1f 0xc3)
    (onePageLoaded_reached 0x1f 0xc3 (by decide +kernel)) 0 .load).mpr (by
      intro slot hits
      have hit : TlbHits ((onePageLoaded 0x1f 0xc3).machine.cpus 0) 0 .load 0 :=
        ⟨0, by decide +kernel, rfl⟩
      obtain rfl := hits.unique hit
      exact ⟨Or.inl (by decide +kernel), Or.inl (by decide +kernel)⟩)

/-- The page of the load may only be read, but a store to it is served from the
TLB. -/
theorem hitGranted_refused :
    ¬∀ (mc : EmuConfig Unit) (h : Nat) (s : TlbRun Unit), TlbReached mc h s →
      ∀ vaddr mode, HitGranted mc h s vaddr mode := by
  intro always
  have granted := always (EmuConfig.ramOnly 0 0x1000 1) 0 (onePageLoaded 0x1f 0xc3)
    (onePageLoaded_reached 0x1f 0xc3 (by decide +kernel)) 0 .store 0 (by decide +kernel)
  exact absurd granted (by decide +kernel)

end Riscmulator
