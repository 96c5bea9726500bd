import Riscmulator.Runs
import Riscmulator.Sfence

/-! The address space of each hart over runs of the whole machine: every step is a run of
lookups, fences and `satp` writes, so a hart with paging off has an empty TLB. -/

namespace Riscmulator

open Transition

variable {δ : Type}

/-! ### Specification -/

/-- Paging is off or Sv39, and with paging off the TLB is empty. -/
structure BareEmpty (cpu : RvCpu) : Prop where
  mode : rvSatpMode cpu.csr.satp = 0 ∨ rvSatpMode cpu.csr.satp = 8
  empty : rvSatpMode cpu.csr.satp = 0 → cpu.tlb.Empty

/-- A fence of this address loses nothing by doing nothing: with paging off it has
nothing to clear, under Sv39 no access to the address is translated. -/
structure SkipSound (mc : EmuConfig δ) (m : EmuMachine δ) (h : Nat) (vaddr : U64) : Prop where
  off : rvSatpMode (m.cpus h).csr.satp = 0 → ∀ asid withAsid row col, row < rvTlbRows →
    (rvInvalTlbVaddr (m.cpus h) vaddr asid withAsid).tlb.isValid row col =
      (m.cpus h).tlb.isValid row col
  on : rvSatpMode (m.cpus h).csr.satp = 8 → ∀ data sizeExp mode, rvEffPriv (m.cpus h) mode ≠ 3 →
    rvAccessVirt mc m h vaddr data sizeExp mode = ⟨.pageFault, m, some data, []⟩

/-- Every valid slot was filled by a lookup of a canonical address. -/
def FillsCanon (h : Nat) (s : VmRun δ) : Prop :=
  ∀ row col, row < rvTlbRows → (s.machine.cpus h).tlb.isValid row col = true →
    rvIsCanonVaddr ((s.fills (tlbSlot row col)).machine.cpus h)
      (s.fills (tlbSlot row col)).vaddr = true

/-- The TLB of every hart holds pages of canonical addresses only and none with paging off,
and every fence that returns early may do so. -/
structure TlbsSound (mc : EmuConfig δ) (m : EmuMachine δ) : Prop where
  bare : ∀ h, BareEmpty (m.cpus h)
  held : ∀ h, ∃ fills, HistoryHolds mc h ⟨m, fills⟩ ∧ FillsCanon h ⟨m, fills⟩
  skip : ∀ h vaddr, rvIsCanonVaddr (m.cpus h) vaddr = false → SkipSound mc m h vaddr

/-- The TLB and `satp` are the same. -/
structure SameVm (cpu cpu' : RvCpu) : Prop where
  tlb : cpu'.tlb = cpu.tlb
  satp : cpu'.csr.satp = cpu.csr.satp

/-- The hooks leave the TLB and `satp` of every hart alone. -/
def EmuConfig.HooksKeepVm (mc : EmuConfig δ) : Prop :=
  ∀ cause hook, mc.trapHook cause = some hook → ∀ m h trap i,
    SameVm (m.cpus i) ((hook m h trap).2.cpus i)

theorem EmuConfig.NoHooks.keepVm {mc : EmuConfig δ} (hooks : mc.NoHooks) : mc.HooksKeepVm := by
  intro cause hook installed
  rw [hooks cause] at installed
  cases installed

/-! ### Address spaces -/

theorem SameVm.refl (cpu : RvCpu) : SameVm cpu cpu := ⟨rfl, rfl⟩

theorem SameVm.trans {first second third : RvCpu} (left : SameVm first second)
    (right : SameVm second third) : SameVm first third :=
  ⟨right.tlb.trans left.tlb, right.satp.trans left.satp⟩

theorem sameVm_setCpu (m : EmuMachine δ) {h : Nat} {cpu : RvCpu} (same : SameVm (m.cpus h) cpu)
    (i : Nat) : SameVm (m.cpus i) ((m.setCpu h cpu).cpus i) := by
  by_cases mine : i = h
  · subst mine
    rw [EmuMachine.setCpu_same]
    exact same
  · rw [EmuMachine.setCpu_other _ _ mine]
    exact SameVm.refl _

theorem sameVm_other (m : EmuMachine δ) {h i : Nat} (other : i ≠ h) (cpu : RvCpu) :
    SameVm (m.cpus i) ((m.setCpu h cpu).cpus i) := by
  rw [EmuMachine.setCpu_other _ _ other]
  exact SameVm.refl _

theorem PhysFrame.sameVm {m m' : EmuMachine δ} (frame : PhysFrame m m') (i : Nat) :
    SameVm (m.cpus i) (m'.cpus i) :=
  ⟨frame.tlb i, congrArg RvCsrState.satp (frame.core i).csr⟩

theorem VirtFrame.sameVm {h i : Nat} {m m' : EmuMachine δ} (frame : VirtFrame h m m')
    (other : i ≠ h) : SameVm (m.cpus i) (m'.cpus i) :=
  ⟨frame.tlb i other, congrArg RvCsrState.satp (frame.core i).csr⟩

theorem RegsOnly.sameVm {cpu cpu' : RvCpu} (regs : RegsOnly cpu cpu') : SameVm cpu cpu' := by
  rcases regs with ⟨_, _, _, rfl⟩
  exact ⟨rfl, rfl⟩

theorem sameVm_pc (cpu : RvCpu) (pc epc : U64) :
    SameVm cpu { cpu with pc := pc, epc := epc } := ⟨rfl, rfl⟩

theorem rvTrapEnter_sameVm (cpu : RvCpu) (trap : RvTrap) : SameVm cpu (rvTrapEnter cpu trap) := by
  unfold rvTrapEnter
  split
  · exact ⟨rfl, rfl⟩
  · exact ⟨rfl, rfl⟩

theorem rvMret_sameVm (cpu : RvCpu) : SameVm cpu (rvMret cpu) := ⟨rfl, rfl⟩

theorem rvSret_sameVm (cpu : RvCpu) : SameVm cpu (rvSret cpu) := ⟨rfl, rfl⟩

theorem rvDoTrap_sameVm {mc : EmuConfig δ} (hooks : mc.HooksKeepVm) (m : EmuMachine δ) (h : Nat)
    (trap : RvTrap) (i : Nat) : SameVm (m.cpus i) ((rvDoTrap mc m h trap).cpus i) := by
  have enter : ∀ m : EmuMachine δ, SameVm (m.cpus i)
      ((m.setCpu h (rvTrapEnter (m.cpus h) trap)).cpus i) :=
    fun m => sameVm_setCpu m (rvTrapEnter_sameVm _ _) i
  simp only [rvDoTrap]
  split
  · exact enter m
  · cases installed : mc.trapHook trap.cause.toNat with
    | none => exact enter m
    | some hook =>
        have kept := hooks _ hook installed m h trap i
        simp only
        split
        · exact kept.trans (enter _)
        · exact kept

theorem rvCheckInterrupts_sameVm {mc : EmuConfig δ} (hooks : mc.HooksKeepVm) (m : EmuMachine δ)
    (h i : Nat) : SameVm (m.cpus i) ((rvCheckInterrupts mc m h).cpus i) := by
  unfold rvCheckInterrupts
  split
  · exact SameVm.refl _
  · exact rvDoTrap_sameVm hooks m h _ i

/-- Only a `satp` write changes the address space. -/
theorem rvCsrWriteReg_sameVm {cpu cpu' : RvCpu} {reg : RvCsr} {wdata : U64}
    (written : rvCsrWriteReg cpu reg wdata = some cpu') (other : reg ≠ .satp) :
    SameVm cpu cpu' := by
  cases reg <;> simp only [rvCsrWriteReg] at written <;> (try split_ifs at written) <;>
    cases written <;> first | exact ⟨rfl, rfl⟩ | exact absurd rfl other

/-! ### Steps as runs of the address space -/

/-- The machine is reached by lookups of canonical addresses, fences and `satp` writes of
hart `i`, and changes of anything but its address space. -/
def VmSteps (mc : EmuConfig δ) (i : Nat) (m m' : EmuMachine δ) : Prop :=
  ∀ s : VmRun δ, s.machine = m →
    ∃ s', Reach (vmStep mc i) (LooksUpCanon i) s s' ∧ s'.machine = m'

section Steps

variable {mc : EmuConfig δ} {i h : Nat} {m m' : EmuMachine δ}

theorem VmSteps.trans {first second third : EmuMachine δ} (left : VmSteps mc i first second)
    (right : VmSteps mc i second third) : VmSteps mc i first third := by
  intro s start
  obtain ⟨middle, before, arrived⟩ := left s start
  obtain ⟨last, after, arrived⟩ := right middle arrived
  exact ⟨last, before.trans after, arrived⟩

theorem vmSteps_event (e : VmEvent δ) (event : ∀ s : VmRun δ, s.machine = m →
      LooksUpCanon i s e ∧ (vmStep mc i s e).machine = m') : VmSteps mc i m m' :=
  fun s start => ⟨vmStep mc i s e, Reach.single e (event s start).1, (event s start).2⟩

theorem vmSteps_same (same : SameVm (m.cpus i) (m'.cpus i)) : VmSteps mc i m m' := by
  apply vmSteps_event (.other m')
  rintro s rfl
  refine ⟨trivial, ?_⟩
  simp only [vmStep, EmuMachine.withVm, EmuMachine.setCpu, ← same.tlb, ← same.satp]
  rw [Function.update_eq_self]

theorem vmSteps_refl (m : EmuMachine δ) : VmSteps mc i m m := vmSteps_same (SameVm.refl _)

theorem vmSteps_lookup {vaddr : U64} (canonical : rvIsCanonVaddr (m.cpus i) vaddr = true)
    (mode : RvAccess) : VmSteps mc i m (rvPagingLookup mc m i vaddr mode).machine := by
  apply vmSteps_event (.lookup vaddr mode)
  rintro s rfl
  exact ⟨canonical, rfl⟩

theorem vmSteps_fence (vaddr : U64) (asid : U16) (withVaddr withAsid : Bool) :
    VmSteps mc i m (m.setCpu i (rvInvalTlb (m.cpus i) vaddr asid withVaddr withAsid)) := by
  apply vmSteps_event (.fence vaddr asid withVaddr withAsid)
  rintro s rfl
  exact ⟨trivial, rfl⟩

theorem vmSteps_satp (wdata : U64) :
    VmSteps mc i m (m.setCpu i (rvSatpWrite (m.cpus i) wdata)) := by
  apply vmSteps_event (.satp wdata)
  rintro s rfl
  exact ⟨trivial, rfl⟩

theorem rvIsCanonVaddr_frame {cpu cpu' : RvCpu} (frame : CoreFrame cpu cpu') (vaddr : U64) :
    rvIsCanonVaddr cpu' vaddr = rvIsCanonVaddr cpu vaddr := by
  simp only [rvIsCanonVaddr, frame.csr]

/-- An access looks up canonical addresses, and only with paging on. -/
theorem rvAccessVirt_vmSteps (vaddr data : U64) (sizeExp : Fin 4) (mode : RvAccess) :
    VmSteps mc i m (rvAccessVirt mc m h vaddr data sizeExp mode).machine := by
  by_cases mine : i = h
  · subst mine
    simp only [rvAccessVirt, rvAccessVirtBy]
    split
    · exact vmSteps_same ((rvAccessPhys_frame mc m i vaddr data sizeExp mode false).sameVm i)
    split
    · exact vmSteps_refl m
    next canonical =>
    have first : VmSteps mc i m (rvPagingLookup mc m i vaddr mode).machine :=
      vmSteps_lookup (by simpa using canonical) mode
    split
    · simp only [rvAccessVirtPageboundary]
      split
      · exact vmSteps_refl m
      next canonical' =>
      split
      · exact first
      have frame := (rvPagingLookup_frame mc m i vaddr mode).core i
      have next := (rvIsCanonVaddr_frame frame (rvNextPage vaddr)).trans (by simpa using canonical')
      have second := first.trans (vmSteps_lookup next mode)
      split
      · exact second
      · exact second.trans
          (vmSteps_same ((rvAccessTwoPages_frame mc _ i vaddr data _ mode _ _).sameVm i))
    split
    · exact first
    · exact first.trans
        (vmSteps_same ((rvAccessPhys_frame mc _ i _ data sizeExp mode true).sameVm i))
  · exact vmSteps_same ((rvAccessVirt_frame mc m h vaddr data sizeExp mode).sameVm mine)

theorem MicroSteps.vmSteps (steps : MicroSteps mc h m m') : VmSteps mc i m m' := by
  induction steps with
  | refl => exact vmSteps_refl m
  | access _ vaddr data sizeExp mode ih =>
      exact ih.trans (rvAccessVirt_vmSteps vaddr data sizeExp mode)
  | regs _ same ih => exact ih.trans (vmSteps_same (sameVm_setCpu _ same.sameVm i))
  | pc _ pc epc ih => exact ih.trans (vmSteps_same (sameVm_setCpu _ (sameVm_pc _ _ _) i))
  | fence _ insn ih =>
      by_cases mine : i = h
      · subst mine
        exact ih.trans (vmSteps_fence _ _ _ _)
      · exact ih.trans (vmSteps_same (sameVm_other _ mine _))
  | reserve _ reservations ih => exact ih.trans (vmSteps_same (SameVm.refl _))
  | round _ mode ih => exact ih.trans (vmSteps_same (SameVm.refl _))

theorem VmSteps.setCpu {cpu cpu' : RvCpu} (steps : VmSteps mc i m (m.setCpu h cpu))
    (same : SameVm cpu cpu') : VmSteps mc i m (m.setCpu h cpu') := by
  apply steps.trans
  apply vmSteps_same
  by_cases mine : i = h
  · subst mine
    rw [EmuMachine.setCpu_same, EmuMachine.setCpu_same]
    exact same
  · rw [EmuMachine.setCpu_other _ _ mine]
    exact sameVm_other m mine _

/-- A CSR instruction writes `satp` or leaves the address space alone. -/
theorem doCsrWrite_vmSteps {insn : U32} {rdata : U64} {cpu : RvCpu} (form : IsCsrInsn insn)
    (read : doCsrRead (m.cpus h) insn = some rdata)
    (written : doCsrWrite (m.cpus h) insn rdata = some cpu) : VmSteps mc i m (m.setCpu h cpu) := by
  rcases doCsrWrite_cases form read written with rfl | ⟨reg, wdata, _, stored⟩
  · exact vmSteps_same (sameVm_setCpu m (SameVm.refl _) i)
  by_cases satp : reg = .satp
  · subst satp
    by_cases mine : i = h
    · subst mine
      have written : cpu = rvSatpWrite (m.cpus i) wdata := by rw [rvSatpWrite, stored]; rfl
      rw [written]
      exact vmSteps_satp wdata
    · exact vmSteps_same (sameVm_other m mine _)
  · exact vmSteps_same (sameVm_setCpu m (rvCsrWriteReg_sameVm stored satp) i)

theorem InsnSteps.vmSteps (hooks : mc.HooksKeepVm) {insn : U32}
    (executed : InsnSteps mc m h insn m') : VmSteps mc i m m' := by
  cases executed with
  | data steps => exact steps.vmSteps
  | trap trap steps => exact steps.vmSteps.trans (vmSteps_same (rvDoTrap_sameVm hooks _ h trap i))
  | csr form read written =>
      exact (doCsrWrite_vmSteps form read written).setCpu (regsOnly_xreg _ _ _).sameVm
  | mret machine => exact vmSteps_same (sameVm_setCpu m (rvMret_sameVm _) i)
  | sret legal => exact vmSteps_same (sameVm_setCpu m (rvSret_sameVm _) i)
  | abort level => exact vmSteps_same (SameVm.refl _)

/-- Whatever happens to the machine is a run of the address space of each hart. -/
theorem machineStep_vmSteps (hooks : mc.HooksKeepVm) (i : Nat) (m : EmuMachine δ)
    (e : MachineEvent δ) : VmSteps mc i m (machineStep mc m e) := by
  cases e with
  | step h =>
      have fetched : VmSteps mc i m (rvFetchInsn mc m h).machine :=
        (rvFetchInsn_steps mc m h).vmSteps
      simp only [machineStep, machineStepBy, rvStepInsnBy]
      cases outcome : rvFetchInsn mc m h with
      | fault m' trap =>
          rw [outcome] at fetched
          exact fetched.trans (vmSteps_same (rvDoTrap_sameVm hooks m' h trap i))
      | illegal m' hw =>
          rw [outcome] at fetched
          exact fetched.trans (vmSteps_same (rvDoTrap_sameVm hooks m' h _ i))
      | word m' insn =>
          rw [outcome] at fetched
          exact (fetched.trans (rvForcefeedInsn_steps.vmSteps hooks)).trans
            (vmSteps_same (rvCheckInterrupts_sameVm hooks _ h i))
  | insn h insn => exact rvForcefeedInsn_steps.vmSteps hooks
  | trap h trap => exact vmSteps_same (rvDoTrap_sameVm hooks m h trap i)
  | interrupts h => exact vmSteps_same (rvCheckInterrupts_sameVm hooks m h i)
  | devices bus => exact vmSteps_same ((setBus_frame m bus).sameVm i)
  | load ram => exact vmSteps_same ((setRam_frame m ram).sameVm i)

end Steps

/-- Every state of a run of the machine is one of a run of the address space of a hart. -/
theorem vmReach_run {mc : EmuConfig δ} (hooks : mc.HooksKeepVm) (h : Nat) (device : δ)
    (events : List (MachineEvent δ)) :
    ∃ s, Reach (vmStep mc h) (LooksUpCanon h) (VmRun.init device) s ∧
      s.machine = run (machineStep mc) (emuMachineInit device) events :=
  reach_of_run (R := fun m (s : VmRun δ) => s.machine = m)
    (fun m e s start => machineStep_vmSteps hooks h m e s start)
    (rfl : (VmRun.init device).machine = emuMachineInit device) events

/-! ### Runs -/

theorem rvSatpWrite_mode {cpu : RvCpu}
    (mode : rvSatpMode cpu.csr.satp = 0 ∨ rvSatpMode cpu.csr.satp = 8) (wdata : U64) :
    rvSatpMode (rvSatpWrite cpu wdata).csr.satp = 0 ∨
      rvSatpMode (rvSatpWrite cpu wdata).csr.satp = 8 := by
  simp only [rvSatpWrite, rvCsrWriteReg]
  split_ifs with _ unsupported off
  · exact mode
  · exact mode
  · left
    by_contra other
    exact unsupported ⟨off, other⟩
  · exact Or.inr (not_not.mp off)

/-- Each event keeps the mode off or Sv39. -/
theorem satpMode_step {mc : EmuConfig δ} {h : Nat} (s : VmRun δ) (e : VmEvent δ)
    (mode : rvSatpMode (s.machine.cpus h).csr.satp = 0 ∨
      rvSatpMode (s.machine.cpus h).csr.satp = 8) :
    rvSatpMode ((vmStep mc h s e).machine.cpus h).csr.satp = 0 ∨
      rvSatpMode ((vmStep mc h s e).machine.cpus h).csr.satp = 8 := by
  cases e with
  | lookup vaddr mode' =>
      have frame := (rvPagingLookup_frame mc s.machine h vaddr mode').core h
      simp only [vmStep, VmRun.lookup, TlbLookup.outcome, frame.csr]
      exact mode
  | fence vaddr asid withVaddr withAsid =>
      have frame := rvInvalTlb_frame (s.machine.cpus h) vaddr asid withVaddr withAsid
      simp only [vmStep, EmuMachine.setCpu_same, frame.csr]
      exact mode
  | satp wdata =>
      simp only [vmStep, EmuMachine.setCpu_same]
      exact rvSatpWrite_mode mode wdata
  | other next =>
      simp only [vmStep, EmuMachine.withVm, EmuMachine.setCpu_same]
      exact mode

theorem FillsCanon.shrink {h : Nat} {s : VmRun δ} (canonical : FillsCanon h s)
    {m : EmuMachine δ} (shrinks : TlbShrinks (s.machine.cpus h).tlb (m.cpus h).tlb) :
    FillsCanon h { s with machine := m } :=
  fun row col bound valid => canonical row col bound (shrinks.valid row col valid)

theorem fillsCanon_step {mc : EmuConfig δ} {h : Nat} (s : VmRun δ) (e : VmEvent δ)
    (canonical : FillsCanon h s) (looksUp : LooksUpCanon h s e) :
    FillsCanon h (vmStep mc h s e) := by
  cases e with
  | lookup vaddr mode =>
      intro row col bound valid
      simp only [vmStep] at valid ⊢
      rcases vmLookup_slots mc h s ⟨s.machine, vaddr, mode⟩ rfl valid with
        ⟨recorded, _, _⟩ | ⟨recorded, before, _⟩
      · rw [recorded]
        exact looksUp
      · rw [recorded]
        exact canonical row col bound before
  | fence vaddr asid withVaddr withAsid =>
      obtain ⟨entries, valid⟩ := rvInvalTlb_slots (s.machine.cpus h) vaddr asid withVaddr withAsid
      apply canonical.shrink
      rw [EmuMachine.setCpu_same]
      exact ⟨entries, valid⟩
  | satp wdata =>
      apply canonical.shrink
      rw [EmuMachine.setCpu_same]
      exact satpWrite_shrinks (s.machine.cpus h) wdata
  | other next =>
      apply canonical.shrink
      rw [EmuMachine.withVm, EmuMachine.setCpu_same]
      exact ⟨rfl, fun _ _ valid => valid⟩

theorem tlbHeld_run {mc : EmuConfig δ} (hooks : mc.HooksKeepVm) (device : δ) (h : Nat)
    (events : List (MachineEvent δ)) :
    ∃ fills, HistoryHolds mc h ⟨run (machineStep mc) (emuMachineInit device) events, fills⟩ ∧
      FillsCanon h ⟨run (machineStep mc) (emuMachineInit device) events, fills⟩ := by
  obtain ⟨s, reach, arrived⟩ := vmReach_run hooks h device events
  have holds := reach.invariant (I := HistoryHolds mc h)
    (fun s e holds _ => historyHolds_step holds e)
    (historyHolds_empty (emuMachineInit_empty device h))
  have canonical := reach.invariant (I := FillsCanon h) fillsCanon_step (by
    intro row col bound valid
    rw [VmRun.init, emuMachineInit_empty device h row col bound] at valid
    cases valid)
  rw [← arrived]
  exact ⟨s.fills, holds, canonical⟩

theorem bareEmpty_run {mc : EmuConfig δ} (hooks : mc.HooksKeepVm) (device : δ) (h : Nat)
    (events : List (MachineEvent δ)) :
    BareEmpty ((run (machineStep mc) (emuMachineInit device) events).cpus h) := by
  obtain ⟨s, reach, arrived⟩ := vmReach_run hooks h device events
  have off : rvSatpMode ((VmRun.init device).machine.cpus h).csr.satp = 0 := by
    show rvSatpMode 0 = 0
    decide
  have mode := reach.invariant (fun s e mode _ => satpMode_step s e mode) (Or.inl off)
  have empty := reach.invariant (I := fun s : VmRun δ => EmptyWhenOff (s.machine.cpus h))
    emptyWhenOff_step (Or.inr (emuMachineInit_empty device h))
  rw [← arrived]
  refine ⟨mode, fun off => empty.resolve_left fun sv39 => ?_⟩
  rw [off] at sv39
  exact absurd sv39 (by decide)

theorem BareEmpty.skip {mc : EmuConfig δ} {m : EmuMachine δ} {h : Nat}
    (bare : BareEmpty (m.cpus h)) {vaddr : U64}
    (outside : rvIsCanonVaddr (m.cpus h) vaddr = false) : SkipSound mc m h vaddr where
  off := by
    intro off asid withAsid row col bound
    rw [bare.empty off row col bound]
    cases valid : (rvInvalTlbVaddr (m.cpus h) vaddr asid withAsid).tlb.isValid row col with
    | false => rfl
    | true =>
        have before := isValid_of_dropWhere valid
        rw [bare.empty off row col bound] at before
        cases before
  on := by
    intro sv39 data sizeExp mode low
    have paged : rvIsBare (m.cpus h) mode = false := by
      rw [rvIsBare, sv39, Bool.or_eq_false_iff]
      exact ⟨beq_eq_false_iff_ne.mpr low, rfl⟩
    simp only [rvAccessVirt, rvAccessVirtBy, paged, outside, Bool.false_eq_true, Bool.not_false,
      if_false, if_true]

/-- In every state that the machine reaches from `emu_machine_init`, a hart with paging off
has an empty TLB, and the fences that return early lose nothing. -/
theorem tlbsSound_run (mc : EmuConfig δ) (hooks : mc.HooksKeepVm) (device : δ)
    (events : List (MachineEvent δ)) :
    Throughout (machineStep mc) (TlbsSound mc) (emuMachineInit device) events := by
  intro before _
  have bare := fun h => bareEmpty_run hooks device h before
  exact ⟨bare, fun h => tlbHeld_run hooks device h before,
    fun h vaddr outside => (bare h).skip outside⟩

/-- Sv39 is switched on and off again. -/
theorem tlbsSound_run_satp :
    Throughout (machineStep (EmuConfig.ramOnly 0 0x1000 1))
      (TlbsSound (EmuConfig.ramOnly 0 0x1000 1)) (emuMachineInit ())
      [.insn 0 0xfff00093, .insn 0 0x03f09093, .insn 0 0x18009073, .insn 0 0x18001073] :=
  tlbsSound_run (EmuConfig.ramOnly 0 0x1000 1) (EmuConfig.NoHooks.keepVm fun _ => rfl) ()
    [.insn 0 0xfff00093, .insn 0 0x03f09093, .insn 0 0x18009073, .insn 0 0x18001073]

end Riscmulator
