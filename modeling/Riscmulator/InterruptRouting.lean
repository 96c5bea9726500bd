import Riscmulator.InterruptChecks
import Riscmulator.TrapReturn

/-! Which interrupt `rv_check_interrupts` takes, and the mode that `rv_do_trap` then
enters. -/

namespace Riscmulator

variable {δ : Type}

/-! ### Targets -/

/-- The modes that handle interrupts. -/
inductive TrapTarget
  | supervisor | machine
  deriving DecidableEq, Repr

def TrapTarget.level : TrapTarget → U8
  | .supervisor => 1
  | .machine => 3

def TrapTarget.tvec (csr : RvCsrState) : TrapTarget → U64
  | .supervisor => csr.stvec
  | .machine => csr.mtvec

def TrapTarget.cause (csr : RvCsrState) : TrapTarget → U64
  | .supervisor => csr.scause
  | .machine => csr.mcause

def irqTarget (cpu : RvCpu) (i : Nat) : TrapTarget :=
  if cpu.csr.mideleg.getLsbD i then .supervisor else .machine

/-- Interrupts for a target are taken at all. -/
def GloballyEnabled (cpu : RvCpu) : TrapTarget → Prop
  | .supervisor => SEnabled cpu
  | .machine => cpu.privilege < 3 ∨ cpu.csr.mstatus.getLsbD rvStatusMieBit = true

/-- Interrupt `i` may be taken into mode `t`. -/
structure IrqReady (cpu : RvCpu) (t : TrapTarget) (i : Nat) : Prop where
  pending : cpu.irqPending.getLsbD i = true
  enabled : cpu.csr.mie.getLsbD i = true
  target : irqTarget cpu i = t
  globally : GloballyEnabled cpu t

/-- M-mode goes before S-mode, and then the order of priority decides. -/
structure IrqChosen (cpu : RvCpu) (t : TrapTarget) (i : Nat) : Prop where
  ready : IrqReady cpu t i
  preferred : t = .supervisor → ∀ j, ¬IrqReady cpu .machine j
  first : ∀ j, IrqReady cpu t j → irqPriority.idxOf i ≤ irqPriority.idxOf j

/-- The core has entered mode `t` for interrupt `i`. -/
structure IrqEntered (before after : RvCpu) (t : TrapTarget) (i : Nat) : Prop where
  privilege : after.privilege = t.level
  raised : before.privilege ≤ after.privilege
  cause : t.cause after.csr = rvCauseIntrFlag ||| BitVec.ofNat 64 i
  pc : after.pc = (t.tvec before.csr &&& ~~~3) +
    if (t.tvec before.csr).getLsbD 0 then BitVec.ofNat 64 (4 * i) else 0

/-! ### Selection -/

section Selection

variable {cpu : RvCpu}

theorem irqTarget_machine {i : Nat} :
    irqTarget cpu i = .machine ↔ cpu.csr.mideleg.getLsbD i = false := by
  rw [irqTarget]
  cases cpu.csr.mideleg.getLsbD i <;> simp

theorem irqTarget_supervisor {i : Nat} :
    irqTarget cpu i = .supervisor ↔ cpu.csr.mideleg.getLsbD i = true := by
  rw [irqTarget]
  cases cpu.csr.mideleg.getLsbD i <;> simp

theorem machineEnabled_iff : GloballyEnabled cpu .machine ↔
    (decide (cpu.privilege < 3) || cpu.csr.mstatus.getLsbD rvStatusMieBit) = true := by
  rw [Bool.or_eq_true, decide_eq_true_eq]
  rfl

theorem supervisorEnabled_iff : GloballyEnabled cpu .supervisor ↔
    (decide (cpu.privilege < 1) || (cpu.privilege == 1 &&
      cpu.csr.mstatus.getLsbD rvStatusSieBit)) = true := by
  have user : cpu.privilege = 0 ↔ cpu.privilege < 1 := by bv_omega
  rw [Bool.or_eq_true, decide_eq_true_eq, Bool.and_eq_true, beq_iff_eq, ← user]
  rfl

/-- The bits of the interrupts for M-mode. -/
theorem machinePending_getLsbD (enabled : GloballyEnabled cpu .machine) (i : Nat) :
    (cpu.irqPending &&& cpu.csr.mie &&& ~~~cpu.csr.mideleg).getLsbD i = true ↔
      IrqReady cpu .machine i := by
  rw [BitField.getLsbD_and_not, BitVec.getLsbD_and, Bool.and_eq_true, Bool.and_eq_true,
    Bool.not_eq_true', ← irqTarget_machine]
  constructor
  · rintro ⟨⟨pending, local_⟩, target⟩
    exact ⟨pending, local_, target, enabled⟩
  · intro ready
    exact ⟨⟨ready.pending, ready.enabled⟩, ready.target⟩

theorem supervisorPending_getLsbD (enabled : GloballyEnabled cpu .supervisor) (i : Nat) :
    (cpu.irqPending &&& cpu.csr.mie &&& cpu.csr.mideleg).getLsbD i = true ↔
      IrqReady cpu .supervisor i := by
  rw [BitVec.getLsbD_and, BitVec.getLsbD_and, Bool.and_eq_true, Bool.and_eq_true,
    ← irqTarget_supervisor]
  constructor
  · rintro ⟨⟨pending, local_⟩, target⟩
    exact ⟨pending, local_, target, enabled⟩
  · intro ready
    exact ⟨⟨ready.pending, ready.enabled⟩, ready.target⟩

theorem rvInterruptTake_ready {j : Nat} (ready : IrqReady cpu .machine j) :
    rvInterruptTake cpu = cpu.irqPending &&& cpu.csr.mie &&& ~~~cpu.csr.mideleg := by
  have some : cpu.irqPending &&& cpu.csr.mie &&& ~~~cpu.csr.mideleg ≠ 0 := by
    intro none
    have clear := (BitField.eq_zero_iff _).mp none j
    rw [(machinePending_getLsbD ready.globally j).mpr ready] at clear
    cases clear
  simp only [rvInterruptTake, machineEnabled_iff.mp ready.globally, decide_eq_true some,
    Bool.true_and, if_true]

theorem rvInterruptTake_unready (none : ∀ j, ¬IrqReady cpu .machine j) (i : Nat) :
    (rvInterruptTake cpu).getLsbD i = true ↔ IrqReady cpu .supervisor i := by
  have passed : (decide (cpu.privilege < 3) || cpu.csr.mstatus.getLsbD rvStatusMieBit) = true →
      cpu.irqPending &&& cpu.csr.mie &&& ~~~cpu.csr.mideleg = 0 := by
    intro enabled
    rw [BitField.eq_zero_iff]
    intro j
    rw [← Bool.not_eq_true]
    intro set
    exact none j ((machinePending_getLsbD (machineEnabled_iff.mpr enabled) j).mp set)
  have skipped : ((decide (cpu.privilege < 3) || cpu.csr.mstatus.getLsbD rvStatusMieBit) &&
      decide (cpu.irqPending &&& cpu.csr.mie &&& ~~~cpu.csr.mideleg ≠ 0)) = false := by
    rw [← Bool.not_eq_true, Bool.and_eq_true, decide_eq_true_eq]
    rintro ⟨enabled, some⟩
    exact some (passed enabled)
  simp only [rvInterruptTake, skipped, Bool.false_eq_true, if_false]
  by_cases enabled : GloballyEnabled cpu .supervisor
  · rw [supervisorEnabled_iff.mp enabled, ← supervisorPending_getLsbD enabled, Bool.true_and]
    by_cases some : cpu.irqPending &&& cpu.csr.mie &&& cpu.csr.mideleg = 0
    · simp [some]
    · rw [decide_eq_true some, if_pos rfl]
  · have disabled := mt supervisorEnabled_iff.mpr enabled
    rw [Bool.not_eq_true] at disabled
    rw [disabled, Bool.false_and, if_neg Bool.false_ne_true]
    constructor
    · intro set
      rw [BitVec.ofNat_eq_ofNat, BitVec.getLsbD_zero] at set
      cases set
    · intro ready
      exact absurd ready.globally enabled

/-- The interrupts that the code picks from. -/
theorem rvInterruptTake_getLsbD (i : Nat) : (rvInterruptTake cpu).getLsbD i = true ↔
    ∃ t, IrqReady cpu t i ∧ (t = .supervisor → ∀ j, ¬IrqReady cpu .machine j) := by
  by_cases machine : ∃ j, IrqReady cpu .machine j
  · rcases machine with ⟨j, ready⟩
    rw [rvInterruptTake_ready ready, machinePending_getLsbD ready.globally]
    constructor
    · intro here
      exact ⟨.machine, here, fun other => nomatch other⟩
    · rintro ⟨t, here, preferred⟩
      cases t with
      | machine => exact here
      | supervisor => exact absurd ready (preferred rfl j)
  · rw [not_exists] at machine
    rw [rvInterruptTake_unready machine]
    constructor
    · intro here
      exact ⟨.supervisor, here, fun _ => machine⟩
    · rintro ⟨t, here, _⟩
      cases t with
      | machine => exact absurd here (machine i)
      | supervisor => exact here

/-- What is taken is chosen by target and priority. -/
theorem rvInterruptCause_chosen {i : Nat} (found : rvInterruptCause cpu = some i) :
    i ∈ irqPriority ∧ ∃ t, IrqChosen cpu t i := by
  have known : i ∈ irqPriority := List.mem_of_find?_eq_some found
  rcases (rvInterruptTake_getLsbD i).mp (List.find?_some found) with ⟨t, ready, preferred⟩
  refine ⟨known, t, ready, preferred, ?_⟩
  intro j other
  by_cases member : j ∈ irqPriority
  · have taken := (rvInterruptTake_getLsbD j).mpr ⟨t, other, preferred⟩
    rcases FirstMatch.find_first (fun i => (rvInterruptTake cpu).getLsbD i) irqPriority member taken
      with ⟨k, _, search, _, before⟩
    have same : some k = some i := search.symm.trans found
    cases same
    exact before
  · rw [List.idxOf_eq_length member]
    exact le_of_lt (List.idxOf_lt_length_of_mem known)

/-- Nothing is taken when nothing is ready. -/
theorem rvInterruptCause_idle (idle : ∀ t i, ¬IrqReady cpu t i) : rvInterruptCause cpu = none := by
  apply List.find?_eq_none.mpr
  intro i _ taken
  rcases (rvInterruptTake_getLsbD i).mp taken with ⟨t, ready, _⟩
  exact idle t i ready

theorem rvInterruptCause_none (standard : ∀ i, cpu.irqPending.getLsbD i = true → i ∈ irqPriority) :
    rvInterruptCause cpu = none ↔ ∀ t i, ¬IrqReady cpu t i := by
  constructor
  · intro none
    have idle (i : Nat) (pending : cpu.irqPending.getLsbD i = true) :
        ¬(rvInterruptTake cpu).getLsbD i = true :=
      List.find?_eq_none.mp none i (standard i pending)
    have quiet (i : Nat) : ¬IrqReady cpu .machine i := fun ready =>
      idle i ready.pending ((rvInterruptTake_getLsbD i).mpr ⟨.machine, ready, fun t => nomatch t⟩)
    intro t i ready
    cases t with
    | machine => exact quiet i ready
    | supervisor =>
        exact idle i ready.pending
          ((rvInterruptTake_getLsbD i).mpr ⟨.supervisor, ready, fun _ => quiet⟩)
  · exact rvInterruptCause_idle

end Selection

/-! ### Entry -/

section Entry

variable {cpu : RvCpu} {t : TrapTarget} {i : Nat}

/-- The two functions agree on the mode that handles the interrupt. -/
theorem rvTrapDelegated_chosen (known : i ∈ irqPriority) (ready : IrqReady cpu t i) :
    rvTrapDelegated cpu (rvInterruptTrap cpu.pc i) = decide (t = .supervisor) := by
  cases t with
  | supervisor =>
      exact rvTrapDelegated_interrupt known ready.globally (irqTarget_supervisor.mp ready.target)
  | machine => exact rvInterruptTrap_direct known fun _ => irqTarget_machine.mp ready.target

theorem rvTrapPc_interrupt (known : i ∈ irqPriority) (tvec pc : U64) :
    rvTrapPc tvec (rvInterruptTrap pc i) =
      (tvec &&& ~~~3) + if tvec.getLsbD 0 then BitVec.ofNat 64 (4 * i) else 0 := by
  rcases rvInterruptTrap_cause pc known with ⟨interrupt, cause⟩
  rw [rvTrapPc, interrupt, cause, Bool.true_and]
  split
  · rfl
  · exact (BitVec.add_zero _).symm

theorem rvTrapEnter_chosen (level : PrivLevel cpu.privilege) (known : i ∈ irqPriority)
    (ready : IrqReady cpu t i) :
    IrqEntered cpu (rvTrapEnter cpu (rvInterruptTrap cpu.pc i)) t i := by
  rw [rvTrapEnter, rvTrapDelegated_chosen known ready]
  cases t with
  | supervisor =>
      constructor
      · rfl
      · change cpu.privilege ≤ 1
        rcases ready.globally with user | ⟨supervisor, _⟩ <;> bv_omega
      · rfl
      · exact rvTrapPc_interrupt known cpu.csr.stvec cpu.pc
  | machine =>
      constructor
      · rfl
      · change cpu.privilege ≤ 3
        rcases level with user | supervisor | machine <;> bv_omega
      · rfl
      · exact rvTrapPc_interrupt known cpu.csr.mtvec cpu.pc

/-- In M-mode with MIE clear nothing is ready. -/
theorem not_ready_machine (machine : cpu.privilege = 3)
    (mie : cpu.csr.mstatus.getLsbD rvStatusMieBit = false) (t : TrapTarget) (j : Nat) :
    ¬IrqReady cpu t j := by
  intro ready
  cases t with
  | machine =>
      rcases ready.globally with low | set
      · rw [machine] at low
        exact absurd low (by decide)
      · rw [mie] at set
        cases set
  | supervisor =>
      rcases ready.globally with user | ⟨supervisor, _⟩
      · rw [machine] at user
        exact absurd user (by decide)
      · rw [machine] at supervisor
        exact absurd supervisor (by decide)

/-- Right after the entry nothing is taken. -/
theorem rvInterruptCause_entered (level : PrivLevel cpu.privilege) (known : i ∈ irqPriority)
    (chosen : IrqChosen cpu t i) :
    rvInterruptCause (rvTrapEnter cpu (rvInterruptTrap cpu.pc i)) = none := by
  rw [rvTrapEnter, rvTrapDelegated_chosen known chosen.ready]
  apply rvInterruptCause_idle
  cases t with
  | machine =>
      have bounded : cpu.privilege ≤ 3 := by
        rcases level with user | supervisor | machine <;> bv_omega
      have mie : (rvTrapMstatusM cpu.csr.mstatus cpu.privilege).getLsbD 3 = false := by
        rw [rvTrapMstatusM_getLsbD _ bounded]
        rfl
      exact not_ready_machine rfl mie
  | supervisor =>
      have low : cpu.privilege ≤ 1 := by
        rcases chosen.ready.globally with user | ⟨supervisor, _⟩ <;> bv_omega
      have sie : (rvTrapMstatusS cpu.csr.mstatus cpu.privilege).getLsbD 1 = false := by
        rw [rvTrapMstatusS_getLsbD _ low]
        rfl
      intro t j ready
      cases t with
      | machine =>
          have below : cpu.privilege < 3 := by bv_omega
          exact chosen.preferred rfl j ⟨ready.pending, ready.enabled, ready.target, Or.inl below⟩
      | supervisor =>
          rcases ready.globally with user | ⟨_, set⟩
          · exact absurd user (by decide : (1 : U8) ≠ 0)
          · have clear := set.symm.trans sie
            cases clear

end Entry

/-! ### Checks -/

/-- `rv_check_interrupts` takes an interrupt exactly when one is ready, the first one of
the preferred mode; `rv_do_trap` enters that mode, and a second check takes no other. -/
theorem rvCheckInterrupts_routes (mc : EmuConfig δ) (m : EmuMachine δ) (h : Nat)
    (level : PrivLevel (m.cpus h).privilege)
    (standard : ∀ i, (m.cpus h).irqPending.getLsbD i = true → i ∈ irqPriority) :
    ((∃ i, rvInterruptCause (m.cpus h) = some i) ↔ ∃ t i, IrqReady (m.cpus h) t i) ∧
    (rvInterruptCause (m.cpus h) = none → rvCheckInterrupts mc m h = m) ∧
    ∀ i, rvInterruptCause (m.cpus h) = some i → ∃ t, IrqChosen (m.cpus h) t i ∧
      rvCheckInterrupts mc m h =
        m.setCpu h (rvTrapEnter (m.cpus h) (rvInterruptTrap (m.cpus h).pc i)) ∧
      IrqEntered (m.cpus h) ((rvCheckInterrupts mc m h).cpus h) t i ∧
      rvCheckInterrupts mc (rvCheckInterrupts mc m h) h = rvCheckInterrupts mc m h := by
  refine ⟨?_, ?_, ?_⟩
  · constructor
    · rintro ⟨i, found⟩
      rcases rvInterruptCause_chosen found with ⟨_, t, chosen⟩
      exact ⟨t, i, chosen.ready⟩
    · rintro ⟨t, i, ready⟩
      rw [← Option.ne_none_iff_exists']
      intro none
      exact (rvInterruptCause_none standard).mp none t i ready
  · intro none
    rw [rvCheckInterrupts, none]
  · intro i found
    rcases rvInterruptCause_chosen found with ⟨known, t, chosen⟩
    have taken : rvCheckInterrupts mc m h =
        m.setCpu h (rvTrapEnter (m.cpus h) (rvInterruptTrap (m.cpus h).pc i)) := by
      rw [rvCheckInterrupts, found]
      exact rvDoTrap_interrupt mc m h (rvInterruptTrap_cause _ known).1
    refine ⟨t, chosen, taken, ?_, ?_⟩
    · rw [taken, EmuMachine.setCpu_same]
      exact rvTrapEnter_chosen level known chosen.ready
    · rw [taken, rvCheckInterrupts, EmuMachine.setCpu_same,
        rvInterruptCause_entered level known chosen]

/-- A machine at reset with the timer interrupt of M-mode pending and enabled. -/
def timerPending : EmuMachine Unit :=
  (emuMachineInit ()).setCpu 0 { (emuMachineInit ()).cpus 0 with
    irqPending := bit rvMipMtipBit
    csr := { ((emuMachineInit ()).cpus 0).csr with
      mie := bit rvMipMtipBit
      mstatus := bit rvStatusMieBit } }

/-- The timer interrupt is chosen, and M-mode entered for it. -/
theorem rvCheckInterrupts_routes_timer :
    ∃ t, IrqChosen (timerPending.cpus 0) t rvMipMtipBit ∧
      IrqEntered (timerPending.cpus 0)
        ((rvCheckInterrupts (EmuConfig.ramOnly 0 0x1000 1) timerPending 0).cpus 0) t
        rvMipMtipBit := by
  have routes := rvCheckInterrupts_routes (EmuConfig.ramOnly 0 0x1000 1) timerPending 0
    (Or.inr (Or.inr (by decide))) (by
      intro i pending
      have here : i = rvMipMtipBit := by
        have single : (timerPending.cpus 0).irqPending = 1#64 <<< rvMipMtipBit := rfl
        rw [single, BitField.getLsbD_one_shiftLeft, Bool.and_eq_true, decide_eq_true_eq] at pending
        exact pending.1
      rw [here]
      decide)
  rcases routes.2.2 rvMipMtipBit (by decide +kernel) with ⟨t, chosen, _, entered, _⟩
  exact ⟨t, chosen, entered⟩

end Riscmulator
