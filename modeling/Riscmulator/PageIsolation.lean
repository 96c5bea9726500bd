import Riscmulator.AddressSpace
import Riscmulator.HostMemory
import Riscmulator.TlbHistory

/-! Harts that run below M-mode in address spaces whose tables they cannot reach: what they
may change. -/

namespace Riscmulator

open Transition

variable {δ : Type}

/-! ### TLBs over steps -/

theorem TlbWithin.shrink {pages writable : U64 → Prop} {tlb tlb' : RvTlb}
    (within : TlbWithin pages writable tlb) (shrinks : TlbShrinks tlb tlb') :
    TlbWithin pages writable tlb' := by
  intro row col valid
  rw [shrinks.entries]
  exact within row col (shrinks.valid row col valid)

theorem TlbShrinks.of_eq {tlb tlb' : RvTlb} (same : tlb' = tlb) : TlbShrinks tlb tlb' :=
  ⟨by rw [same], fun _ _ valid => same ▸ valid⟩

theorem rvSfenceVma_shrinks (cpu : RvCpu) (insn : U32) :
    TlbShrinks cpu.tlb (rvSfenceVma cpu insn).tlb := by
  obtain ⟨entries, valid⟩ := rvInvalTlb_slots cpu (rvXregRead cpu (rvInsnRs1 insn))
    ((rvXregRead cpu (rvInsnRs2 insn)).setWidth 16) (rvInsnRs1 insn ≠ 0) (rvInsnRs2 insn ≠ 0)
  exact ⟨entries, valid⟩

theorem rvCsrWriteReg_shrinks {cpu cpu' : RvCpu} {reg : RvCsr} {wdata : U64}
    (written : rvCsrWriteReg cpu reg wdata = some cpu') : TlbShrinks cpu.tlb cpu'.tlb := by
  by_cases satp : reg = .satp
  · subst satp
    have shrinks := satpWrite_shrinks cpu wdata
    rw [rvSatpWrite, written] at shrinks
    exact shrinks
  · cases reg <;> try exact absurd rfl satp
    all_goals
      simp only [rvCsrWriteReg] at written
      try split_ifs at written
      all_goals
        cases written
        exact .of_eq rfl

/-! ### Steps in an address space -/

/-- The address spaces of a group of harts, whose tables none of them can write. -/
structure SpacesApart {mc : EmuConfig δ} (T : TableSet mc) (table : U64 → U64)
    (pages writable roots : U64 → Prop) : Prop where
  spaces : ∀ root, roots root → AddressSpace T table pages writable root
  apart : TablesApart T writable

/-- Every access of the hart is translated by the tables of one of the spaces. -/
structure InSpace {mc : EmuConfig δ} (T : TableSet mc) (table : U64 → U64)
    (pages writable roots : U64 → Prop) (m : EmuMachine δ) (h : Nat) : Prop where
  translated : ∀ mode, rvIsBare (m.cpus h) mode = false
  root : roots (satpRoot (m.cpus h))
  held : TablesHeld T table m.ram
  tlb : TlbWithin pages writable (m.cpus h).tlb

theorem SameControl.isBare {cpu cpu' : RvCpu} (same : SameControl cpu cpu') (mode : RvAccess) :
    rvIsBare cpu' mode = rvIsBare cpu mode := by
  rcases same.csr with ⟨fcsr, csr⟩
  rw [rvIsBare, rvIsBare, rvEffPriv, rvEffPriv, same.privilege, same.memPrivilege, csr]

theorem SameControl.root {cpu cpu' : RvCpu} (same : SameControl cpu cpu') :
    satpRoot cpu' = satpRoot cpu := by
  rcases same.csr with ⟨fcsr, csr⟩
  rw [satpRoot, satpRoot, csr]

section Steps

variable {mc : EmuConfig δ} {T : TableSet mc} {table : U64 → U64}
  {pages writable roots : U64 → Prop} {m m' : EmuMachine δ} {h : Nat}

theorem InSpace.keeps (inside : InSpace T table pages writable roots m h) :
    SpaceKept T table pages writable h m m := ⟨inside.held, inside.tlb, .refl⟩

theorem InSpace.later (inside : InSpace T table pages writable roots m h)
    (same : SameControl (m.cpus h) (m'.cpus h)) (kept : SpaceKept T table pages writable h m m') :
    InSpace T table pages writable roots m' h where
  translated := fun mode => (same.isBare mode).trans (inside.translated mode)
  root := by
    rw [same.root]
    exact inside.root
  held := kept.held
  tlb := kept.tlb

theorem SpaceKept.setCpu (kept : SpaceKept T table pages writable h m m') {cpu : RvCpu}
    (shrinks : TlbShrinks (m'.cpus h).tlb cpu.tlb) :
    SpaceKept T table pages writable h m (m'.setCpu h cpu) where
  held := kept.held
  tlb := by
    rw [EmuMachine.setCpu_same]
    exact kept.tlb.shrink shrinks
  kept := kept.kept

theorem InSpace.access (inside : InSpace T table pages writable roots m h)
    (spaces : SpacesApart T table pages writable roots) (vaddr data : U64) (sizeExp : Fin 4)
    (mode : RvAccess) :
    SpaceKept T table pages writable h m (rvAccessVirt mc m h vaddr data sizeExp mode).machine :=
  rvAccessVirt_spaceKept (inside.translated mode) (spaces.spaces _ inside.root) spaces.apart
    inside.held inside.tlb vaddr data sizeExp

/-- The control state decides which tables translate, and none of the steps of an instruction
changes it. -/
theorem MicroSteps.spaceKept (spaces : SpacesApart T table pages writable roots)
    (inside : InSpace T table pages writable roots m h) (steps : MicroSteps mc h m m') :
    SpaceKept T table pages writable h m m' := by
  induction steps with
  | refl => exact inside.keeps
  | access before vaddr data sizeExp mode ih =>
      have now := inside.later (before.work.dataStep.core h) ih
      exact ih.trans (now.access spaces vaddr data sizeExp mode)
  | regs _ same ih =>
      rcases same with ⟨_, _, _, rfl⟩
      exact ih.setCpu (.of_eq rfl)
  | pc _ _ _ ih => exact ih.setCpu (.of_eq rfl)
  | fence _ insn ih => exact ih.setCpu (rvSfenceVma_shrinks _ insn)
  | reserve _ _ ih => exact ⟨ih.held, ih.tlb, ih.kept⟩
  | round _ _ ih => exact ⟨ih.held, ih.tlb, ih.kept⟩

theorem SpaceKept.doTrap (hooks : mc.NoHooks) (kept : SpaceKept T table pages writable h m m')
    (trap : RvTrap) : SpaceKept T table pages writable h m (rvDoTrap mc m' h trap) := by
  rw [rvDoTrap_noHooks hooks]
  exact kept.setCpu (.of_eq (rvTrapEnter_tlb _ trap))

theorem InsnSteps.spaceKept {insn : U32} (hooks : mc.NoHooks)
    (spaces : SpacesApart T table pages writable roots)
    (inside : InSpace T table pages writable roots m h) (executed : InsnSteps mc m h insn m') :
    SpaceKept T table pages writable h m m' := by
  cases executed with
  | data steps => exact steps.spaceKept spaces inside
  | trap trap steps => exact (steps.spaceKept spaces inside).doTrap hooks trap
  | csr form read written =>
      refine inside.keeps.setCpu ?_
      rw [rvXregWrite_tlb]
      rcases doCsrWrite_cases form read written with rfl | ⟨reg, wdata, _, stored⟩
      · exact .of_eq rfl
      · exact rvCsrWriteReg_shrinks stored
  | mret machine => exact inside.keeps.setCpu (.of_eq rfl)
  | sret legal => exact inside.keeps.setCpu (.of_eq rfl)
  | abort level => exact ⟨inside.held, inside.tlb, .refl⟩

/-- A step in an address space changes what the space lets it write. -/
theorem rvStepInsn_spaceKept (hooks : mc.NoHooks)
    (spaces : SpacesApart T table pages writable roots)
    (inside : InSpace T table pages writable roots m h) :
    SpaceKept T table pages writable h m (rvStepInsn mc m h) := by
  have fetched := (rvFetchInsn_steps mc m h).spaceKept spaces inside
  have same := (rvFetchInsn_step mc m h).core h
  unfold rvStepInsn rvStepInsnBy
  revert fetched same
  generalize rvFetchInsn mc m h = outcome
  intro fetched same
  cases outcome with
  | fault m' trap => exact fetched.doTrap hooks trap
  | illegal m' hw => exact fetched.doTrap hooks _
  | word m' insn =>
      have now : InSpace T table pages writable roots m' h := inside.later same fetched
      have executed : SpaceKept T table pages writable h m (rvForcefeedInsn mc m' h insn) :=
        fetched.trans (rvForcefeedInsn_steps.spaceKept hooks spaces now)
      simp only [rvCheckInterrupts]
      split
      · exact executed
      · exact executed.doTrap hooks _

end Steps

/-! ### Runs -/

/-- The hart is about to take a step below M-mode, translated from one of the roots. -/
def PagedBelow (roots : U64 → Prop) (m : EmuMachine δ) (h : Nat) : Prop :=
  (m.cpus h).privilege ≤ 1 ∧ rvSatpMode (m.cpus h).csr.satp ≠ 0 ∧ roots (satpRoot (m.cpus h))

/-- What the harts of a schedule keep while each of them steps in one of the spaces. -/
structure GroupSpace {mc : EmuConfig δ} (T : TableSet mc) (table : U64 → U64)
    (pages writable : U64 → Prop) (schedule : List Nat) (m : EmuMachine δ) : Prop where
  held : TablesHeld T table m.ram
  synced : ∀ i ∈ schedule, MemSynced (m.cpus i)
  tlb : ∀ i ∈ schedule, TlbWithin pages writable (m.cpus i).tlb

section Runs

variable {mc : EmuConfig δ} {T : TableSet mc} {table : U64 → U64}
  {pages writable roots : U64 → Prop} {m m' : EmuMachine δ} {h : Nat} {schedule : List Nat}

theorem GroupSpace.inSpace (group : GroupSpace T table pages writable schedule m)
    (member : h ∈ schedule) (below : PagedBelow roots m h) :
    InSpace T table pages writable roots m h := by
  obtain ⟨low, on, root⟩ := below
  refine ⟨?_, root, group.held, group.tlb h member⟩
  have level : (m.cpus h).privilege ≠ 3 := by bv_omega
  have same := ((group.synced h member).below level).2
  intro mode
  have effective : rvEffPriv (m.cpus h) mode = (m.cpus h).privilege := by
    cases mode with
    | insn => rfl
    | load => exact same
    | store => exact same
    | amo => exact same
  rw [rvIsBare, effective, beq_eq_false_iff_ne.mpr level, beq_eq_false_iff_ne.mpr on]
  rfl

theorem GroupSpace.step (hooks : mc.NoHooks) (spaces : SpacesApart T table pages writable roots)
    (group : GroupSpace T table pages writable schedule m) (member : h ∈ schedule)
    (below : PagedBelow roots m h) :
    GroupSpace T table pages writable schedule (rvStepInsn mc m h) := by
  have kept := rvStepInsn_spaceKept hooks spaces (group.inSpace member below)
  refine ⟨kept.held, ?_, ?_⟩
  · intro i inGroup
    exact (memSynced_invariant (hooks.keeps _)).step (group.synced i inGroup)
  · intro i inGroup
    by_cases mine : i = h
    · subst mine
      exact kept.tlb
    · rw [rvStepInsn_tlb_other hooks mine]
      exact group.tlb i inGroup

theorem groupSpace_start (T : TableSet mc)
    (start : ∀ h ∈ schedule, MemSynced (m.cpus h) ∧ TlbWithin pages writable (m.cpus h).tlb) :
    GroupSpace T (ramTable mc m.ram) pages writable schedule m :=
  ⟨tablesHeld_self T m.ram, fun h member => (start h member).1, fun h member => (start h member).2⟩

end Runs

/-- Harts below M-mode that run in such address spaces, in whatever order they take their
steps, change no byte of RAM outside what is mapped for writing and the marks in the tables,
and leave the tables as they were up to those marks, if all they store in a TLB is inside
its array. -/
theorem paging_protects (mc : EmuConfig δ) (hooks : mc.NoHooks) (T : TableSet mc)
    (pages writable roots : U64 → Prop) (m : EmuMachine δ) (schedule : List Nat)
    (spaces : SpacesApart T (ramTable mc m.ram) pages writable roots)
    (start : ∀ h ∈ schedule, MemSynced (m.cpus h) ∧ TlbWithin pages writable (m.cpus h).tlb)
    (below : StepsMeet (hostStepInsn mc) (PagedBelow roots) m schedule)
    (inside : StepsMeet (hostStepInsn mc) (StepInArray mc) m schedule) :
    RamKept mc (SpaceWritable T writable) m (run (hostStepInsn mc) m schedule) ∧
      TablesFixed T (ramTable mc m.ram) (run (hostStepInsn mc) m schedule).ram := by
  rw [hostScheduleMeets_iff inside] at below
  rw [hostSchedule_eq inside]
  have group := groupSpace_start T start
  have members : StepsMeet (rvStepInsn mc) (fun _ h => h ∈ schedule) m schedule :=
    stepsMeet_of_forall m fun h member => member
  suffices reached : RamKept mc (SpaceWritable T writable) m (run (rvStepInsn mc) m schedule) ∧
      GroupSpace T (ramTable mc m.ram) pages writable schedule
        (run (rvStepInsn mc) m schedule) from ⟨reached.1, reached.2.held.fixed⟩
  refine invariant_run (I := fun now => RamKept mc (SpaceWritable T writable) m now ∧
    GroupSpace T (ramTable mc m.ram) pages writable schedule now) ?_ ⟨.refl, group⟩
    (stepsMeet_and below members)
  rintro now h ⟨kept, group⟩ ⟨low, member⟩
  have step := rvStepInsn_spaceKept hooks spaces (group.inSpace member low)
  exact ⟨kept.trans step.kept, group.step hooks spaces member low⟩

/-! ### One gigapage -/

abbrev gigaConfig : EmuConfig Unit := EmuConfig.ramOnly 0 0x40003000 2

/-- A root table whose first entry maps the second gigabyte of memory, with
`sw x2, 16(x0)` and `lw x3, 0(x4)` at its start. The byte at `0x2000` is not mapped. -/
def gigaRam (secret : U8) : U64 → U8 :=
  ramStore (ramStore (fun idx => if idx = 0x2000 then secret else 0) 0x40000000
    0x0002218300202823 8) 0 0x1000000f 8

/-- A hart in S-mode that runs there. -/
def gigaCpu : RvCpu :=
  { RvCpu.zero with
    csr := { RvCpu.zero.csr with
      satp := 0x8000000000000000
      pmpcfg := fun _ => 0x1f
      pmpaddr := fun _ => 0xffffffffffffffff }
    xregs := fun index => if index = 2 then 0x55 else if index = 4 then 0x2000 else 0
    privilege := 1
    memPrivilege := 1 }

def gigaMachine (secret : U8) : EmuMachine Unit :=
  { emuMachineInit () with
    ram := gigaRam secret
    cpus := fun _ => gigaCpu }

theorem gigaConfig_entry {paddr : U64} (mem : paddr.toNat < 4096 ∧ paddr.toNat % 8 = 0) :
    ramHoldsRange gigaConfig paddr 8 = true := by
  obtain ⟨small, aligned⟩ := mem
  simp only [ramHoldsRange, EmuConfig.ramOnly, Bool.and_eq_true, decide_eq_true_iff]
  bv_omega

def gigaTables : TableSet gigaConfig where
  mem := fun paddr => paddr.toNat < 4096 ∧ paddr.toNat % 8 = 0
  aligned := fun _ mem => mem.2
  inRam := fun _ mem => gigaConfig_entry mem

/-- The pages of the gigapage. -/
def InGiga (page : U64) : Prop := page >>> 18 = 1

theorem gigaRam_zero (secret : U8) {idx : U64} (low : 8 ≤ idx) (high : idx < 0x1000) :
    gigaRam secret idx = 0 := by
  have other : idx ≠ 0x2000 := by bv_omega
  rw [gigaRam, ramStore_other _ _ _ (by bv_omega), ramStore_other _ _ _ (by bv_omega),
    if_neg other]

theorem gigaTable_entry (secret : U8) {paddr : U64} (mem : gigaTables.mem paddr) :
    ramTable gigaConfig (gigaRam secret) paddr = if paddr = 0 then 0x1000000f else 0 := by
  obtain ⟨small, aligned⟩ := mem
  have start : paddr - gigaConfig.ramStart = paddr := BitVec.sub_zero paddr
  rw [ramTable, start]
  split
  · next zero => rw [zero, gigaRam, ramLoad_ramStore]
  · next other =>
      apply BitVec.eq_of_getLsbD_eq
      intro i word
      rw [getLsbD_ramLoad _ 8 word, gigaRam_zero secret (by bv_omega) (by bv_omega)]
      simp

theorem gigaTables_path (vaddr : U64) : gigaTables.mem (Sv39.entryAddr 0 vaddr 2) := by
  have small : (Sv39.vpn vaddr 2).toNat < 512 := by
    rw [Sv39.vpn, BitVec.toNat_and]
    exact Nat.lt_of_le_of_lt Nat.and_le_right (by decide)
  rw [Sv39.entryAddr]
  generalize Sv39.vpn vaddr 2 = field at small
  constructor <;> bv_omega

theorem gigaTable_walk (secret : U8) (vaddr : U64) {leaf : U64 × Nat}
    (found : Sv39.walk (ramTable gigaConfig (gigaRam secret)) vaddr 3 0 = some leaf) :
    InGiga (Sv39.target vaddr leaf) := by
  rw [Sv39.walk, gigaTable_entry secret (gigaTables_path vaddr)] at found
  split at found
  · have only : leaf = (0x1000000f, 2) := (Option.some.inj found).symm
    have inside : Sv39.offsetMask 2 >>> 18 = 0#64 := by decide
    have page : (Sv39.ppn 0x1000000f &&& ~~~Sv39.offsetMask 2) >>> 18 = 1 := by decide
    rw [only, InGiga, Sv39.target, BitVec.ushiftRight_or_distrib, page,
      BitVec.ushiftRight_and_distrib, inside, BitVec.and_zero, BitVec.or_zero]
  · cases found

theorem gigaSpaces (secret : U8) :
    SpacesApart gigaTables (ramTable gigaConfig (gigaRam secret)) InGiga InGiga (· = 0) where
  spaces := by
    rintro root rfl
    refine ⟨?_, fun vaddr leaf found => gigaTable_walk secret vaddr found,
      fun vaddr leaf found _ => gigaTable_walk secret vaddr found⟩
    intro vaddr
    refine ⟨gigaTables_path vaddr, ?_⟩
    rw [gigaTable_entry secret (gigaTables_path vaddr)]
    split
    · intro _ inner
      cases inner
    · intro valid
      cases valid
  apart := by
    rintro paddr ⟨small, _⟩ inside
    rw [InGiga, pageOf] at inside
    bv_omega

theorem gigaCpu_start : MemSynced gigaCpu ∧ TlbWithin InGiga InGiga gigaCpu.tlb := by
  refine ⟨⟨by decide, by decide, by decide⟩, ?_⟩
  intro row col valid
  have empty : gigaCpu.tlb.isValid row col = false := BitVec.getLsbD_zero
  rw [empty] at valid
  cases valid

theorem gigaMachine_below :
    StepsMeet (hostStepInsn gigaConfig) (PagedBelow (· = 0)) (gigaMachine 0x55) [0, 1, 1, 0] :=
  ⟨⟨by decide +kernel, by decide +kernel, by decide +kernel⟩,
    ⟨by decide +kernel, by decide +kernel, by decide +kernel⟩,
    ⟨by decide +kernel, by decide +kernel, by decide +kernel⟩,
    ⟨by decide +kernel, by decide +kernel, by decide +kernel⟩, trivial⟩

theorem gigaMachine_inside :
    StepsMeet (hostStepInsn gigaConfig) (StepInArray gigaConfig) (gigaMachine 0x55) [0, 1, 1, 0] :=
  stepsInArray_of_slots (fun _ => rfl) (fun _ _ _ => rfl) (by decide +kernel)

/-- Two harts store at the start of their page and load from it. -/
theorem paging_protects_giga :
    RamKept gigaConfig (SpaceWritable gigaTables InGiga) (gigaMachine 0x55)
        (run (hostStepInsn gigaConfig) (gigaMachine 0x55) [0, 1, 1, 0]) ∧
      TablesFixed gigaTables (ramTable gigaConfig (gigaMachine 0x55).ram)
        (run (hostStepInsn gigaConfig) (gigaMachine 0x55) [0, 1, 1, 0]).ram :=
  paging_protects gigaConfig (fun _ => rfl) gigaTables InGiga InGiga (· = 0) (gigaMachine 0x55)
    [0, 1, 1, 0] (gigaSpaces 0x55) (fun _ _ => gigaCpu_start) gigaMachine_below gigaMachine_inside

end Riscmulator
