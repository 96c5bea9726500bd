import Riscmulator.Exclusive

/-! Load-reserved and store-conditional on one hart: which LR a successful SC
answers, and what an SC leaves reserved. -/

namespace Riscmulator

open Transition

variable {δ : Type}

/-! ### One operation -/

/-- What an outcome says about the word that led to it, for a hart that held
`own` and the operand `addr`. A failing SC leaves the machine as it was. -/
def AtomicOutcome.Kind (m : EmuMachine δ) (own : RvReservation) (insn : U32) (operand : U64) :
    AtomicOutcome δ → Prop
  | .lr _ addr _ => rvInsnFunct5 insn = amoLr ∧ addr = operand
  | .sc m' addr success =>
      rvInsnFunct5 insn = amoSc ∧ addr = operand ∧
        success = (own.valid && own.addr == operand) ∧ (success = false → m' = m)
  | .amo _ _ _ => rvInsnFunct5 insn ≠ amoSc
  | _ => True

theorem rvAtomicExec_kind (mc : EmuConfig δ) (m : EmuMachine δ) (h : Nat) (insn : U32) :
    (rvAtomicExec mc m h insn).Kind m (m.reservations (m.cpus h).csr.mhartid.toNat) insn
      (m.xreg h (rvInsnRs1 insn)) := by
  simp only [rvAtomicExec]
  generalize (if rvInsnFunct3 insn = 2 then (3 : U64) else 7) = alignMask
  split
  · trivial
  split
  · trivial
  split
  · next lr =>
      simp only [rvAtomicLr, rvAtomicFault]
      split
      · trivial
      split
      · trivial
      · exact ⟨lr, rfl⟩
  split
  · next sc =>
      simp only [rvAtomicSc, rvAtomicFault]
      split
      · next own =>
          split
          · trivial
          · exact ⟨sc, rfl, own.symm, fun impossible => by cases impossible⟩
      · next other => exact ⟨sc, rfl, (Bool.not_eq_true _ ▸ other : _ = false).symm, fun _ => rfl⟩
  · next sc =>
      simp only [rvAtomicAmo, rvAtomicFault]
      split
      · trivial
      split
      · trivial
      split
      · trivial
      · exact sc

/-! ### Runs of one hart -/

/-- An LR or SC that was carried out, with the address of the LR. -/
inductive LrSc
  | lr (addr : U64)
  | sc
  deriving DecidableEq, Repr

/-- A machine and the last LR or SC of the hart under observation. The latter is
a history of the run: the code does not keep it. -/
structure LrScRun (δ : Type) where
  machine : EmuMachine δ
  last : Option LrSc

/-- The hart executes an atomic instruction, or anything happens that is neither
an atomic operation nor a change of the reservations or of a hart's number. -/
inductive LrScEvent (δ : Type)
  | atomic (insn : U32)
  | other (next : EmuMachine δ)

def AtomicOutcome.lrSc (last : Option LrSc) : AtomicOutcome δ → Option LrSc
  | .lr _ addr _ => some (.lr addr)
  | .sc _ _ _ => some .sc
  | _ => last

def lrScStep (mc : EmuConfig δ) (h : Nat) (s : LrScRun δ) : LrScEvent δ → LrScRun δ
  | .atomic insn =>
      { machine := rvAtomicOp mc s.machine h insn
        last := (rvAtomicExec mc s.machine h insn).lrSc s.last }
  | .other next => { s with machine := s.machine.otherThan next }

/-- The reservation of hart `h`. -/
def LrScRun.own (s : LrScRun δ) (h : Nat) : RvReservation :=
  s.machine.reservations (s.machine.cpus h).csr.mhartid.toNat

def AtomicOutcome.completes : AtomicOutcome δ → Bool
  | .lr _ _ _ | .sc _ _ _ | .amo _ _ _ => true
  | _ => false

/-- The instruction is an LR, SC or AMO whose accesses do not fault. -/
def Completes (mc : EmuConfig δ) (h : Nat) (s : LrScRun δ) : LrScEvent δ → Prop
  | .atomic insn => (rvAtomicExec mc s.machine h insn).completes = true
  | .other _ => True

/-- What is reserved was reserved by the last LR or SC, so no SC left it behind. -/
def Consumed (h : Nat) (s : LrScRun δ) : Prop :=
  (s.own h).valid = true → s.last = some (.lr (s.own h).addr)

/-- A successful SC answers an LR of its address, with no LR or SC in between;
an SC that follows another fails and leaves memory unchanged. -/
def AnswersLr (mc : EmuConfig δ) (h : Nat) (s : LrScRun δ) (e : LrScEvent δ) : Prop :=
  ∀ insn m' addr success, e = .atomic insn →
    rvAtomicExec mc s.machine h insn = .sc m' addr success →
      (success = true → s.last = some (.lr addr)) ∧
      (s.last = some .sc → success = false ∧
        (lrScStep mc h s e).machine.ram = s.machine.ram ∧
        (lrScStep mc h s e).machine.device = s.machine.device)

/-- An SC is executed without a valid reservation, or with one of its own address. -/
def NoStraySc (h : Nat) (s : LrScRun δ) : LrScEvent δ → Prop
  | .atomic insn => rvInsnFunct5 insn = amoSc → (s.own h).valid = true →
      (s.own h).addr = s.machine.xreg h (rvInsnRs1 insn)
  | .other _ => True

section Step

variable {mc : EmuConfig δ} {h : Nat} {s : LrScRun δ}

theorem rvAtomicExec_mhartid (mc : EmuConfig δ) (m : EmuMachine δ) (h : Nat) (insn : U32) :
    ((rvAtomicExec mc m h insn).machine.cpus h).csr.mhartid = (m.cpus h).csr.mhartid := by
  have executed : DataStep m (rvAtomicExec mc m h insn).machine := rvAtomicExec_machine
  rcases (executed.core h).csr with ⟨fcsr, csr⟩
  rw [csr]

/-- A completed operation leaves the reservation of its outcome. -/
theorem lrScStep_own {insn : U32} (complete : Completes mc h s (.atomic insn)) :
    (lrScStep mc h s (.atomic insn)).own h =
      (rvAtomicExec mc s.machine h insn).machine.reservations
        (s.machine.cpus h).csr.mhartid.toNat := by
  have kept := rvAtomicExec_mhartid mc s.machine h insn
  have written : ∀ (m : EmuMachine δ) (value : U64),
      ((m.writeXreg h (rvInsnRd insn) value).cpus h).csr.mhartid = (m.cpus h).csr.mhartid :=
    fun m value => setCpu_mhartid m h (by rw [rvXregWrite_csr]) h
  simp only [Completes] at complete
  simp only [lrScStep, LrScRun.own, rvAtomicOp]
  cases outcome : rvAtomicExec mc s.machine h insn with
  | iillegal m => rw [outcome] at complete; cases complete
  | trap m trap => rw [outcome] at complete; cases complete
  | lr m addr val =>
      rw [outcome] at kept
      simp only [written, AtomicOutcome.machine, ← show (m.cpus h).csr.mhartid = _ from kept]
      rfl
  | sc m addr success =>
      rw [outcome] at kept
      simp only [written, AtomicOutcome.machine, ← show (m.cpus h).csr.mhartid = _ from kept]
      rfl
  | amo m addr old =>
      rw [outcome] at kept
      simp only [written, AtomicOutcome.machine, ← show (m.cpus h).csr.mhartid = _ from kept]
      rfl

/-- A completed operation keeps every reservation accounted for exactly when it
is not an SC that strays from a valid reservation. -/
theorem consumed_step {e : LrScEvent δ} (complete : Completes mc h s e) (before : Consumed h s) :
    Consumed h (lrScStep mc h s e) ↔ NoStraySc h s e := by
  cases e with
  | other next => exact iff_of_true before trivial
  | atomic insn =>
      have kind := rvAtomicExec_kind mc s.machine h insn
      have reserves : (rvAtomicExec mc s.machine h insn).Reserves mc s.machine.reservations
          (s.machine.cpus h).csr.mhartid.toNat (s.machine.xreg h (rvInsnRs1 insn)) :=
        rvAtomicExec_reserves
      unfold Consumed
      rw [lrScStep_own complete]
      simp only [Completes] at complete
      simp only [lrScStep, NoStraySc]
      cases outcome : rvAtomicExec mc s.machine h insn with
      | iillegal m => rw [outcome] at complete; cases complete
      | trap m trap => rw [outcome] at complete; cases complete
      | lr m addr val =>
          rw [outcome] at kind reserves
          obtain ⟨lr, _⟩ := kind
          obtain ⟨_, updated⟩ := reserves
          simp only [AtomicOutcome.machine, updated, Function.update_self]
          refine iff_of_true (fun _ => rfl) fun sc => ?_
          rw [lr] at sc
          cases sc
      | amo m addr old =>
          rw [outcome] at kind reserves
          obtain ⟨_, updated⟩ := reserves
          simp only [AtomicOutcome.machine, updated, rvInvalReservations]
          refine iff_of_true ?_ fun sc => absurd sc kind
          split
          · intro impossible
            cases impossible
          · exact before
      | sc m addr success =>
          rw [outcome] at kind reserves
          obtain ⟨sc, rfl, answered, kept⟩ := kind
          cases success with
          | true =>
              obtain ⟨_, _, same, updated⟩ := reserves
              simp only [AtomicOutcome.machine, updated, Function.update_self]
              refine iff_of_true (fun impossible => by cases impossible) fun _ _ => same
          | false =>
              rw [kept rfl]
              constructor
              · intro after _ valid
                cases after valid
              · intro straight valid
                have same := straight sc valid
                rw [show (s.machine.reservations _).valid = true from valid,
                  show (s.machine.reservations _).addr = _ from same, beq_self_eq_true] at answered
                cases answered

/-- Where what is reserved is accounted for, an SC answers the LR before it. -/
theorem answersLr_of_consumed (accounted : Consumed h s) (e : LrScEvent δ) :
    AnswersLr mc h s e := by
  intro insn m' addr success same outcome
  subst same
  have kind := rvAtomicExec_kind mc s.machine h insn
  rw [outcome] at kind
  obtain ⟨_, rfl, answered, kept⟩ := kind
  have held : success = true → s.last = some (.lr (s.machine.xreg h (rvInsnRs1 insn))) := by
    intro succeeds
    rw [succeeds, eq_comm, Bool.and_eq_true, beq_iff_eq] at answered
    rw [← answered.2]
    exact accounted answered.1
  refine ⟨held, fun after => ?_⟩
  have fails : success = false := by
    rw [← Bool.not_eq_true]
    intro succeeds
    rw [held succeeds] at after
    cases after
  refine ⟨fails, ?_, ?_⟩ <;>
    simp only [lrScStep, rvAtomicOp, outcome, kept fails] <;> rfl

end Step

/-- The machine of `emu_machine_init`, before any LR or SC. -/
def LrScRun.init (device : δ) : LrScRun δ := ⟨emuMachineInit device, none⟩

/-- A hart that adds up the number 4 at address 0, reserves the word there while
it loads it, fails an SC at address 4 and then carries out one at 0. -/
def strayedSc : List (LrScEvent Unit) :=
  [.atomic 0x180020af, .atomic 0x0010202f, .atomic 0x0010202f, .atomic 0x0010202f,
    .atomic 0x0010202f, .atomic 0x1000212f, .atomic 0x181121af, .atomic 0x180021af]

end Riscmulator
