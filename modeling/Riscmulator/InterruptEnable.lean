import Riscmulator.CsrWrite
import Riscmulator.Lib.Transition
import Riscmulator.Privileged
import Riscmulator.Lib.FirstMatch

/-! The interrupt-enable registers over runs of CSR writes: `sie` against the
delegated part of `mie`, and the interrupts taken into S-mode. -/

namespace Riscmulator

open Transition

/-- A change to the registers of one hart: a CSR write, or (`core`) any change
that leaves `mie`, `sie` and `mideleg` alone. -/
inductive EnableEvent
  | csrWrite (index : Nat) (wdata : U64)
  | core (cpu : RvCpu)

def enableStep (cpu : RvCpu) : EnableEvent → RvCpu
  | .csrWrite index wdata => (rvCsrWrite cpu index wdata).getD cpu
  | .core cpu' => cpu'.withCsr { cpu'.csr with
      mie := cpu.csr.mie
      sie := cpu.csr.sie
      mideleg := cpu.csr.mideleg }

/-- `sie` reads as the delegated part of `mie`. -/
def SieView (cpu : RvCpu) : Prop :=
  rvCsrReadReg cpu .sie = (rvCsrReadReg cpu .mie).map (· &&& cpu.csr.mideleg)

/-- A write of `sie` sets exactly the delegated bits of `mie`. -/
def SieWriteSets (cpu : RvCpu) : EnableEvent → Prop
  | .csrWrite index wdata =>
      CsrGrants cpu index .sie →
        (enableStep cpu (.csrWrite index wdata)).csr.mie =
          (cpu.csr.mie &&& ~~~cpu.csr.mideleg) ||| (wdata &&& cpu.csr.mideleg)
  | .core _ => True

def SEnabled (cpu : RvCpu) : Prop :=
  cpu.privilege = 0 ∨ (cpu.privilege = 1 ∧ cpu.csr.mstatus.getLsbD rvStatusSieBit = true)

/-- The machine has taken interrupt `j` of hart `h` into S-mode. -/
structure TakenIntoS (before after : RvCpu) (j : Nat) : Prop where
  privilege : after.privilege = 1
  scause : after.csr.scause = rvCauseIntrFlag ||| BitVec.ofNat 64 j
  sepc : after.csr.sepc = before.pc

/-- An interrupt that is pending, delegated and enabled through `sie`, with no
enabled interrupt of M-mode pending, is taken into S-mode, unless one of higher
priority is. -/
def DelegatedTaken (cpu : RvCpu) : Prop :=
  ∀ i ∈ irqPriority, cpu.irqPending.getLsbD i = true → cpu.csr.mideleg.getLsbD i = true →
    cpu.csr.sie.getLsbD i = true → SEnabled cpu →
    cpu.irqPending &&& cpu.csr.mie &&& ~~~cpu.csr.mideleg = 0 →
    ∀ (δ : Type) (mc : EmuConfig δ) (m : EmuMachine δ) (h : Nat), m.cpus h = cpu →
      ∃ j ∈ irqPriority, irqPriority.idxOf j ≤ irqPriority.idxOf i ∧
        TakenIntoS cpu ((rvCheckInterrupts mc m h).cpus h) j

/-- The condition on a step: what is written to one of the three registers
agrees with the other two. -/
def KeepsSieView (cpu : RvCpu) : EnableEvent → Prop
  | .csrWrite index wdata =>
      (CsrGrants cpu index .sie → wdata = cpu.csr.mie &&& cpu.csr.mideleg) ∧
      (CsrGrants cpu index .mie → wdata &&& cpu.csr.mideleg = cpu.csr.sie) ∧
      (CsrGrants cpu index .mideleg → cpu.csr.mie &&& wdata = cpu.csr.sie)
  | .core _ => True

theorem sieView_iff (cpu : RvCpu) : SieView cpu ↔ cpu.csr.sie = cpu.csr.mie &&& cpu.csr.mideleg := by
  simp [SieView, rvCsrReadReg]

/-! ### One write -/

theorem sieView_step {cpu : RvCpu} (view : SieView cpu) (e : EnableEvent) :
    SieView (enableStep cpu e) ↔ KeepsSieView cpu e := by
  rw [sieView_iff] at view ⊢
  cases e with
  | core cpu' => exact iff_of_true view trivial
  | csrWrite index wdata =>
      simp only [enableStep, KeepsSieView]
      cases written : rvCsrWrite cpu index wdata with
      | none =>
          refine iff_of_true view ⟨?_, ?_, ?_⟩
          · intro sie
            cases rvCsrWriteReg_eq_none written sie
          · intro mie
            cases rvCsrWriteReg_eq_none written mie
          · intro mideleg
            cases rvCsrWriteReg_eq_none written mideleg
      | some cpu' =>
          rcases rvCsrWrite_eq_some.mp written with ⟨reg, ⟨allowed, selected⟩, written⟩
          obtain ⟨mie, mideleg, sie⟩ := rvCsrWriteReg_interrupts written
          simp only [Option.getD_some, mie, mideleg, sie, CsrGrants, allowed, selected, true_and,
            Option.some.injEq]
          by_cases isSie : reg = .sie
          · subst isSie
            simp
          · by_cases isMie : reg = .mie
            · subst isMie
              simp [eq_comm]
            · by_cases isMideleg : reg = .mideleg
              · subst isMideleg
                simp [eq_comm]
              · simp [isSie, isMie, isMideleg, view]

/-- A `sie` write of the value that is already there sets the bits it should. -/
theorem sieWriteSets_of_keeps {cpu : RvCpu} {e : EnableEvent} (keeps : KeepsSieView cpu e) :
    SieWriteSets cpu e := by
  cases e with
  | core cpu' => trivial
  | csrWrite index wdata =>
      intro sie
      have same := keeps.1 sie
      simp only [enableStep]
      cases written : rvCsrWrite cpu index wdata with
      | none => cases rvCsrWriteReg_eq_none written sie
      | some cpu' =>
          obtain ⟨reg, ⟨_, selected⟩, written⟩ := rvCsrWrite_eq_some.mp written
          rcases rvCsrWriteReg_interrupts written with ⟨mie, _, _⟩
          rw [sie.2, Option.some.injEq] at selected
          rw [Option.getD_some, mie, if_neg (by rw [← selected]; decide), same,
            BitField.replace_own]

/-! ### Taking an interrupt -/

theorem rvInterruptTrap_cause (pc : U64) {j : Nat} (known : j ∈ irqPriority) :
    (rvInterruptTrap pc j).isInterrupt = true ∧ (rvInterruptTrap pc j).causeLow = j := by
  simp only [irqPriority, List.mem_cons, List.not_mem_nil, or_false] at known
  simp only [RvTrap.isInterrupt, RvTrap.causeLow, rvInterruptTrap]
  rcases known with rfl | rfl | rfl | rfl | rfl | rfl <;>
    exact ⟨decide_eq_true (by decide), by decide⟩

/-- With only delegated interrupts to take, the set taken from is that of the
delegated ones. -/
theorem rvInterruptTake_delegated {cpu : RvCpu} (sEnabled : SEnabled cpu)
    (quiet : cpu.irqPending &&& cpu.csr.mie &&& ~~~cpu.csr.mideleg = 0) :
    rvInterruptTake cpu = cpu.irqPending &&& cpu.csr.mie &&& cpu.csr.mideleg := by
  have enabled : (decide (cpu.privilege < 1) || (cpu.privilege == 1 &&
      cpu.csr.mstatus.getLsbD rvStatusSieBit)) = true := by
    rcases sEnabled with user | ⟨supervisor, sie⟩
    · simp [user]
    · simp [supervisor, sie]
  simp only [rvInterruptTake, quiet, enabled]
  simp only [ne_eq, not_true_eq_false, decide_false, Bool.and_false, Bool.false_eq_true, if_false,
    Bool.true_and, decide_eq_true_eq, ite_not]
  split
  · next none => exact none.symm
  · rfl

theorem rvTrapDelegated_interrupt {cpu : RvCpu} {j : Nat} (known : j ∈ irqPriority)
    (sEnabled : SEnabled cpu) (delegated : cpu.csr.mideleg.getLsbD j = true) :
    rvTrapDelegated cpu (rvInterruptTrap cpu.pc j) = true := by
  obtain ⟨interrupt, cause⟩ := rvInterruptTrap_cause cpu.pc known
  rcases sEnabled with user | ⟨supervisor, _⟩
  · simp [rvTrapDelegated, interrupt, cause, delegated, user]
  · simp [rvTrapDelegated, interrupt, cause, delegated, supervisor]

/-- While `sie` is the delegated part of `mie`, what it enables is taken. -/
theorem delegatedTaken_of_view {cpu : RvCpu} (view : SieView cpu) : DelegatedTaken cpu := by
  intro i known pending delegated enabled sEnabled quiet δ mc m h here
  rw [sieView_iff] at view
  rw [view, BitVec.getLsbD_and, Bool.and_eq_true] at enabled
  have takes := rvInterruptTake_delegated sEnabled quiet
  have member : (rvInterruptTake cpu).getLsbD i = true := by
    rw [takes, BitVec.getLsbD_and, BitVec.getLsbD_and, pending, enabled.1, delegated]
    rfl
  obtain ⟨j, inside, found, holds, first⟩ :=
    FirstMatch.find_first (fun i => (rvInterruptTake cpu).getLsbD i) irqPriority known member
  refine ⟨j, inside, first, ?_⟩
  rw [takes, BitVec.getLsbD_and, Bool.and_eq_true] at holds
  have intoS := rvTrapDelegated_interrupt inside sEnabled holds.2
  subst here
  have cause : rvInterruptCause (m.cpus h) = some j := found
  simp only [rvCheckInterrupts, cause]
  rw [rvDoTrap_interrupt mc m h (rvInterruptTrap_cause _ inside).1, EmuMachine.setCpu_same,
    rvTrapEnter, if_pos intoS]
  exact ⟨rfl, rfl, rfl⟩

/-! ### Runs -/

/-- What the registers owe each other over a run: in every state `sie` is the
delegated part of `mie` and what it enables is taken into S-mode, and every
write of `sie` sets the delegated bits of `mie`. -/
def SieRight (start : RvCpu) (events : List EnableEvent) : Prop :=
  Throughout enableStep (fun cpu => SieView cpu ∧ DelegatedTaken cpu) start events ∧
    StepsMeet enableStep SieWriteSets start events

theorem sieView_run {start : RvCpu} (view : SieView start) (events : List EnableEvent) :
    Throughout enableStep SieView start events ↔ StepsMeet enableStep KeepsSieView start events :=
  throughout_iff_stepsMeet (I := fun _ => True) (E := fun _ => True) (P := SieView)
    (C := KeepsSieView) (fun _ _ _ _ => trivial) (fun _ e _ _ view => sieView_step view e)
    trivial view events (fun _ _ => trivial)

/-- From reset, the registers are right over a run of register changes of a hart
exactly when every CSR write to one of them agrees with the other two. -/
theorem sieRight_run {δ : Type} (device : δ) (h : Nat) (events : List EnableEvent) :
    SieRight ((emuMachineInit device).cpus h) events ↔
      StepsMeet enableStep KeepsSieView ((emuMachineInit device).cpus h) events := by
  have view : SieView ((emuMachineInit device).cpus h) := by
    simp [sieView_iff, emuMachineInit, RvCpu.zero]
  constructor
  · intro right
    rcases right with ⟨always, _⟩
    exact (sieView_run view events).mp fun before isPrefix => (always before isPrefix).1
  · intro keeps
    have views := (sieView_run view events).mpr keeps
    refine ⟨fun before isPrefix => ?_, stepsMeet_mono (fun _ _ => sieWriteSets_of_keeps) _ _ keeps⟩
    have now := views before isPrefix
    exact ⟨now, delegatedTaken_of_view now⟩

/-- Delegating SEI and enabling it through `sie`, as a kernel does, leaves it
disabled in `mie`. -/
theorem sieRight_lost :
    ¬SieRight ((emuMachineInit ()).cpus 0) [.csrWrite 0x303 0x200, .csrWrite 0x104 0x200] := by
  intro right
  rcases right with ⟨always, _⟩
  have view := (sieView_iff _).mp (always _ (List.prefix_refl _)).1
  revert view
  decide

end Riscmulator
