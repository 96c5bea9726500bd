import Riscmulator.Device.Clint
import Riscmulator.Lib.Transition

/-! The machine timer over runs: the precomputed nanosecond deadline against
the tick comparison it stands for. -/

namespace Riscmulator

open Transition

/-! ### The comparison timer -/

/-- What the timer of one hart is for: the compare value written last, and
whether a check since that write found `mtime` at or past it. -/
structure CompareTimer where
  mtimecmp : U64
  due : Bool
  deriving DecidableEq, Repr

/-- The abstract timers of all harts; a hart has none before its first write. -/
abbrev CompareTimers := Nat → Option CompareTimer

def CompareTimers.write (timers : CompareTimers) (hart : Nat) (value : U64) : CompareTimers :=
  Function.update timers hart (some ⟨value, false⟩)

def CompareTimers.check (timers : CompareTimers) (hart : Nat) (mtime : U64) : CompareTimers :=
  Function.update timers hart ((timers hart).map fun timer =>
    { timer with due := timer.due || decide (timer.mtimecmp ≤ mtime) })

/-! ### Both timers side by side -/

/-- An operation on the timer of a hart. A check carries the host time it reads. -/
inductive TimerEvent
  | setMtimecmp (hart : Nat) (value : U64)
  | check (hart : Nat) (now : U64)

/-- The host clock of a check has reached `epoch`. -/
def TimerEvent.Since (epoch : U64) : TimerEvent → Prop
  | .setMtimecmp _ _ => True
  | .check _ now => epoch ≤ now

/-- The device next to the timers it implements. -/
structure TimerRun where
  bus : DeviceBus RvClint
  timers : CompareTimers

def timerStep (s : TimerRun) : TimerEvent → TimerRun
  | .setMtimecmp hart value =>
      ⟨rvClintSetMtimecmp s.bus hart value, s.timers.write hart value⟩
  | .check hart now =>
      ⟨cpuThreadCheckTimer s.bus hart now, s.timers.check hart (rvClintMtime s.bus.device now)⟩

/-- The device after `rv_clint_init`, before any write of a compare register. -/
def timerStart (epoch : U64) (cpuCount : Nat) (irq : Nat → U64) : TimerRun where
  bus := { device := rvClintInit epoch cpuCount, irqPending := irq, clintTimerArmed := fun _ => false }
  timers := fun _ => none

def mtip (bus : DeviceBus RvClint) (hart : Nat) : Bool :=
  (bus.irqPending hart).getLsbD rvClintMtipBit

/-- MTIP of every hart whose compare register was written is set exactly when
its timer is due. -/
def TimerRight (s : TimerRun) : Prop :=
  ∀ hart timer, s.timers hart = some timer → mtip s.bus hart = timer.due

/-- The nanosecond at which a compare value is reached, before reduction to 64 bits. -/
def deadlineNat (epoch value : U64) : Nat := epoch.toNat + 100 * value.toNat

/-- The condition on a step: a check of an armed timer is made with a deadline
that fits 64 bits, or before the reduced deadline. -/
def CheckSound (s : TimerRun) : TimerEvent → Prop
  | .setMtimecmp _ _ => True
  | .check hart now =>
      let deadline := deadlineNat s.bus.device.epochNs (s.bus.device.mtimecmp hart)
      s.bus.clintTimerArmed hart = true → deadline < 2 ^ 64 ∨ now.toNat < deadline % 2 ^ 64

/-- Where the deadline comparison agrees with the tick comparison. -/
theorem deadline_exact {epoch now : U64} (value : U64) (since : epoch ≤ now) :
    ((now ≥ epoch + value * clintNsPerTick) ↔ (value ≤ (now - epoch) / clintNsPerTick)) ↔
      (deadlineNat epoch value < 2 ^ 64 ∨ now.toNat < deadlineNat epoch value % 2 ^ 64) := by
  have hundred : clintNsPerTick.toNat = 100 := by decide
  have elapsed : (now - epoch).toNat = now.toNat - epoch.toNat := by
    bv_omega
  have reached : value ≤ (now - epoch) / clintNsPerTick ↔
      deadlineNat epoch value ≤ now.toNat := by
    rw [BitVec.le_def, BitVec.toNat_udiv, hundred, elapsed,
      Nat.le_div_iff_mul_le (by decide), deadlineNat]
    have : epoch.toNat ≤ now.toNat := BitVec.le_def.mp since
    omega
  have product : (epoch + value * clintNsPerTick).toNat = deadlineNat epoch value % 2 ^ 64 :=
    calc
      (epoch + value * clintNsPerTick).toNat =
          (epoch.toNat + value.toNat * 100 % 2 ^ 64) % 2 ^ 64 := by
        rw [BitVec.toNat_add, BitVec.toNat_mul, hundred]
      _ = (epoch.toNat + value.toNat * 100) % 2 ^ 64 := Nat.add_mod_mod _ _ _
      _ = deadlineNat epoch value % 2 ^ 64 := by
        rw [deadlineNat, Nat.mul_comm value.toNat]
  have passed : now ≥ epoch + value * clintNsPerTick ↔
      deadlineNat epoch value % 2 ^ 64 ≤ now.toNat := by
    rw [ge_iff_le, BitVec.le_def, product]
  rw [reached, passed]
  have bound := now.isLt
  omega

/-! ### One operation -/

theorem mtip_setMtimecmp (bus : DeviceBus RvClint) (hart : Nat) (value : U64) (h : Nat) :
    mtip (rvClintSetMtimecmp bus hart value) h = (mtip bus h && !decide (h = hart)) := by
  have cleared := clearIrq_bit bus hart rvClintMtipBit h rvClintMtipBit
  simpa [mtip, rvClintSetMtimecmp] using cleared

theorem cpuThreadCheckTimer_device (bus : DeviceBus RvClint) (hart : Nat) (now : U64) :
    (cpuThreadCheckTimer bus hart now).device = bus.device := by
  simp only [cpuThreadCheckTimer, rvClintCheckTimer]
  split
  · split <;> rfl
  · rfl

/-- The check raises MTIP once the deadline of an armed timer has passed. -/
theorem mtip_check (bus : DeviceBus RvClint) (hart : Nat) (now : U64) (h : Nat) :
    mtip (cpuThreadCheckTimer bus hart now) h =
      (mtip bus h || (decide (h = hart) &&
        (bus.clintTimerArmed hart && decide (now ≥ bus.device.deadlineNs hart)))) := by
  simp only [cpuThreadCheckTimer, rvClintCheckTimer]
  cases armed : bus.clintTimerArmed hart with
  | false => simp
  | true =>
      by_cases passed : now ≥ bus.device.deadlineNs hart
      · have raised := setIrq_bit bus hart rvClintMtipBit (by decide) h rvClintMtipBit
        simpa [mtip, passed] using raised
      · simp [mtip, passed]

theorem armed_check (bus : DeviceBus RvClint) (hart : Nat) (now : U64) (h : Nat) :
    (cpuThreadCheckTimer bus hart now).clintTimerArmed h =
      (bus.clintTimerArmed h && !(decide (h = hart) && decide (now ≥ bus.device.deadlineNs hart))) := by
  simp only [cpuThreadCheckTimer, rvClintCheckTimer]
  by_cases mine : h = hart
  · subst mine
    cases armed : bus.clintTimerArmed h with
    | false => simp [armed]
    | true =>
        by_cases passed : now ≥ bus.device.deadlineNs h
        · simp [passed, DeviceBus.setIrq]
        · simp [passed, armed]
  · split
    · split
      · simp [mine, DeviceBus.setIrq]
      · simp [mine]
    · simp [mine]

structure TimerSync (epoch : U64) (s : TimerRun) : Prop where
  epochNs : s.bus.device.epochNs = epoch
  unwritten : ∀ hart, s.timers hart = none → s.bus.clintTimerArmed hart = false
  written : ∀ hart timer, s.timers hart = some timer →
    s.bus.device.mtimecmp hart = timer.mtimecmp ∧
    s.bus.device.deadlineNs hart = epoch + timer.mtimecmp * clintNsPerTick ∧
    s.bus.clintTimerArmed hart = !mtip s.bus hart

theorem timerSync_setMtimecmp {epoch : U64} {s : TimerRun} (sync : TimerSync epoch s)
    (hart : Nat) (value : U64) : TimerSync epoch (timerStep s (.setMtimecmp hart value)) := by
  refine ⟨sync.epochNs, ?_, ?_⟩
  · intro h none
    by_cases mine : h = hart
    · simp [timerStep, CompareTimers.write, mine] at none
    · simp only [timerStep, CompareTimers.write, Function.update_of_ne mine] at none
      have disarmed := sync.unwritten h none
      simpa [timerStep, rvClintSetMtimecmp, DeviceBus.clearIrq, mine] using disarmed
  · intro h timer some
    have cleared : mtip (timerStep s (.setMtimecmp hart value)).bus h =
        (mtip s.bus h && !decide (h = hart)) := mtip_setMtimecmp s.bus hart value h
    rw [cleared]
    by_cases mine : h = hart
    · subst mine
      simp only [timerStep, CompareTimers.write, Function.update_self, Option.some.injEq] at some
      subst some
      simp [timerStep, rvClintSetMtimecmp, DeviceBus.clearIrq, sync.epochNs]
    · simp only [timerStep, CompareTimers.write, Function.update_of_ne mine] at some
      simpa [timerStep, rvClintSetMtimecmp, DeviceBus.clearIrq, mine] using sync.written h timer some

theorem timers_check {s : TimerRun} {hart : Nat} {now : U64} {h : Nat} {timer : CompareTimer}
    (some : (timerStep s (.check hart now)).timers h = some timer) :
    ∃ before, s.timers h = Option.some before ∧ before.mtimecmp = timer.mtimecmp ∧
      timer.due = (before.due || (decide (h = hart) &&
        decide (before.mtimecmp ≤ rvClintMtime s.bus.device now))) := by
  simp only [timerStep, CompareTimers.check] at some
  by_cases mine : h = hart
  · subst mine
    rw [Function.update_self, Option.map_eq_some_iff] at some
    rcases some with ⟨before, found, rfl⟩
    exact ⟨before, found, rfl, by simp⟩
  · rw [Function.update_of_ne mine] at some
    exact ⟨timer, some, rfl, by simp [mine]⟩

theorem timerSync_check {epoch : U64} {s : TimerRun} (sync : TimerSync epoch s) (hart : Nat)
    (now : U64) : TimerSync epoch (timerStep s (.check hart now)) := by
  have device : (timerStep s (.check hart now)).bus.device = s.bus.device :=
    cpuThreadCheckTimer_device s.bus hart now
  have armed : ∀ h, (timerStep s (.check hart now)).bus.clintTimerArmed h = _ :=
    armed_check s.bus hart now
  have raised : ∀ h, mtip (timerStep s (.check hart now)).bus h = _ := mtip_check s.bus hart now
  refine ⟨by rw [device, sync.epochNs], ?_, ?_⟩
  · intro h none
    have before : s.timers h = Option.none := by
      by_cases mine : h = hart
      · simpa [timerStep, CompareTimers.check, mine] using none
      · simpa [timerStep, CompareTimers.check, mine] using none
    rw [armed, sync.unwritten h before, Bool.false_and]
  · intro h timer some
    obtain ⟨before, found, value, _⟩ := timers_check some
    obtain ⟨mtimecmp, deadline, arms⟩ := sync.written h before found
    rw [← value, device]
    refine ⟨mtimecmp, deadline, ?_⟩
    rw [armed, raised, arms]
    by_cases mine : h = hart
    · subst mine
      rw [arms]
      cases mtip s.bus h <;> simp
    · simp [mine]

theorem timerSync_step {epoch : U64} (s : TimerRun) (e : TimerEvent) (sync : TimerSync epoch s) :
    TimerSync epoch (timerStep s e) := by
  cases e with
  | setMtimecmp hart value => exact timerSync_setMtimecmp sync hart value
  | check hart now => exact timerSync_check sync hart now

theorem timerRight_setMtimecmp {s : TimerRun} (right : TimerRight s) (hart : Nat) (value : U64) :
    TimerRight (timerStep s (.setMtimecmp hart value)) := by
  intro h timer some
  have cleared : mtip (timerStep s (.setMtimecmp hart value)).bus h =
      (mtip s.bus h && !decide (h = hart)) := mtip_setMtimecmp s.bus hart value h
  rw [cleared]
  by_cases mine : h = hart
  · subst mine
    simp only [timerStep, CompareTimers.write, Function.update_self, Option.some.injEq] at some
    subst some
    simp
  · simp only [timerStep, CompareTimers.write, Function.update_of_ne mine] at some
    simp [mine, right h timer some]

/-- After a check every timer is right exactly when the checked one is. -/
theorem timerRight_check {s : TimerRun} (right : TimerRight s) (hart : Nat) (now : U64) :
    TimerRight (timerStep s (.check hart now)) ↔
      ∀ timer, s.timers hart = some timer →
        (mtip s.bus hart || (s.bus.clintTimerArmed hart &&
          decide (now ≥ s.bus.device.deadlineNs hart))) =
        (timer.due || decide (timer.mtimecmp ≤ rvClintMtime s.bus.device now)) := by
  have raised : ∀ h, mtip (timerStep s (.check hart now)).bus h = _ := mtip_check s.bus hart now
  constructor
  · intro after timer found
    have checked : (timerStep s (.check hart now)).timers hart =
        some ⟨timer.mtimecmp,
          timer.due || decide (timer.mtimecmp ≤ rvClintMtime s.bus.device now)⟩ := by
      simp [timerStep, CompareTimers.check, found]
    have eq := after hart _ checked
    rw [raised] at eq
    simpa using eq
  · intro agree h timer some
    rcases timers_check some with ⟨before, found, _, due⟩
    rw [raised, due]
    by_cases mine : h = hart
    · subst mine
      simpa using agree before found
    · simp [mine, right h before found]

theorem timerRight_step {epoch : U64} {s : TimerRun} {e : TimerEvent} (since : e.Since epoch)
    (sync : TimerSync epoch s) (right : TimerRight s) :
    TimerRight (timerStep s e) ↔ CheckSound s e := by
  cases e with
  | setMtimecmp hart value => exact iff_of_true (timerRight_setMtimecmp right hart value) trivial
  | check hart now =>
      rw [timerRight_check right, CheckSound, sync.epochNs]
      cases found : s.timers hart with
      | none => simp [sync.unwritten hart found]
      | some timer =>
          obtain ⟨mtimecmp, deadline, armed⟩ := sync.written hart timer found
          have exactly := deadline_exact timer.mtimecmp since
          simp only [Option.some.injEq, forall_eq']
          rw [armed, mtimecmp, deadline, ← right hart timer found, rvClintMtime, sync.epochNs,
            ← exactly]
          cases mtip s.bus hart with
          | true => simp
          | false => simp

theorem timerStart_sync (epoch : U64) (cpuCount : Nat) (irq : Nat → U64) :
    TimerSync epoch (timerStart epoch cpuCount irq) := by
  refine ⟨rfl, fun _ _ => rfl, ?_⟩
  intro hart timer some
  cases some

/-- In every run of compare writes and guarded checks, with a clock that has
reached the epoch, MTIP is right for every hart after every operation exactly
when no check of an armed timer meets a deadline reduced modulo 2^64. -/
theorem timerRight_run (epoch : U64) (cpuCount : Nat) (irq : Nat → U64)
    (events : List TimerEvent) (since : ∀ e ∈ events, e.Since epoch) :
    Throughout timerStep TimerRight (timerStart epoch cpuCount irq) events ↔
      StepsMeet timerStep CheckSound (timerStart epoch cpuCount irq) events := by
  refine throughout_iff_stepsMeet (I := TimerSync epoch) (E := TimerEvent.Since epoch) ?_
    (fun s e since sync right => timerRight_step since sync right)
    (timerStart_sync epoch cpuCount irq) ?_ events since
  · intro s e _ sync
    exact timerSync_step s e sync
  · intro hart timer some
    cases some

/-- A run with an ordinary compare value: tick 5 is due at 500 ns after the epoch. -/
theorem timerRight_run_ordinary :
    Throughout timerStep TimerRight (timerStart 1000 1 fun _ => 0)
      [.setMtimecmp 0 5, .check 0 1499, .check 0 1500] :=
  (timerRight_run 1000 1 (fun _ => 0) [.setMtimecmp 0 5, .check 0 1499, .check 0 1500]
    (by simp [TimerEvent.Since])).mpr (by
      simp only [StepsMeet, CheckSound, deadlineNat]
      decide)

/-- The all-ones compare value fires at once when the clock started at one second. -/
theorem timerRight_allOnes :
    ¬∀ (epoch : U64) (events : List TimerEvent), (∀ e ∈ events, e.Since epoch) →
      Throughout timerStep TimerRight (timerStart epoch 1 fun _ => 0) events := by
  intro always
  have run := always 1000000000 [.setMtimecmp 0 (BitVec.allOnes 64), .check 0 1000000000]
    (by simp [TimerEvent.Since])
  have after := run _ (List.prefix_refl _) 0 ⟨BitVec.allOnes 64, false⟩ (by decide)
  revert after
  decide

end Riscmulator
