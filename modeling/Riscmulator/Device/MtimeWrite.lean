import Riscmulator.Device.Timer

/-! Writes of `mtime`: what a later read returns, and where the next check of each
hart leaves MTIP. The write moves the epoch and the deadlines; it does not touch
MTIP or the armed flag of a timer that has fired. -/

namespace Riscmulator

open Transition

section

variable (bus : DeviceBus RvClint) (timers : CompareTimers) (v t₁ t₂ : U64)

def mtimeOffset : U64 := 0xBFF8

/-- The bus after an MMIO write of `v` to `mtime` at `t₁`. -/
def mtimeWritten : DeviceBus RvClint := (clintWrite t₁ bus mtimeOffset 8 v).2

/-- A clock that showed `v` at `t₁`, read at `t₂`. -/
def mtimeSince : U64 := v + (t₂ - t₁) / clintNsPerTick

/-- The write is accepted, the register counts on from the value written, and MTIP of
every hart with a compare value compares it with the new time after a check. -/
structure MtimeWriteRight : Prop where
  accepted : (clintWrite t₁ bus mtimeOffset 8 v).1 = true
  reads : (clintRead t₂ (mtimeWritten bus v t₁) mtimeOffset 8).1 = (true, mtimeSince v t₁ t₂)
  checks : ∀ hart < bus.device.cpuCount, ∀ timer, timers hart = some timer →
    mtip (cpuThreadCheckTimer (mtimeWritten bus v t₁) hart t₂) hart =
      decide (timer.mtimecmp ≤ mtimeSince v t₁ t₂)

/-- The nanoseconds that the clock set at `t₁` shows at `t₂`: the tick count wraps
after 2^64 ticks of 100 ns. -/
def mtimeNs : Nat := (100 * v.toNat + (t₂.toNat - t₁.toNat)) % (100 * 2 ^ 64)

/-- What the timer of a hart needs. One that has fired has to be due still; one that is
armed has to have a deadline, in host time, that is neither before the host clock's
zero nor reached early by its reduction to 64 bits. -/
def TimerCarried (value : U64) (fired : Bool) : Prop :=
  if fired then 100 * value.toNat ≤ mtimeNs v t₁ t₂
  else
    mtimeNs v t₁ t₂ ≤ t₂.toNat + 100 * value.toNat ∧
      (t₂.toNat + 100 * value.toNat - mtimeNs v t₁ t₂ < 2 ^ 64 ∨
        t₂.toNat < (t₂.toNat + 100 * value.toNat - mtimeNs v t₁ t₂) % 2 ^ 64)

instance (value : U64) (fired : Bool) : Decidable (TimerCarried v t₁ t₂ value fired) :=
  inferInstanceAs (Decidable (if fired then _ else _))

/-! ### The clock -/

theorem mtimeWritten_eq :
    mtimeWritten bus v t₁ = { bus with device := clintWriteMtime bus.device t₁ v } := rfl

variable {v t₁ t₂}

theorem elapsed_toNat (order : t₁ ≤ t₂) : (t₂ - t₁).toNat = t₂.toNat - t₁.toNat := by
  bv_omega

/-- The host time since the moved epoch. -/
theorem sinceEpoch_toNat (order : t₁ ≤ t₂) :
    (t₂ - (t₁ - v * clintNsPerTick)).toNat = mtimeNs v t₁ t₂ % 2 ^ 64 := by
  have split : t₂ - (t₁ - v * clintNsPerTick) = clintNsPerTick * v + (t₂ - t₁) := by
    rw [BitVec.mul_comm v]
    bv_omega
  have wraps : 2 ^ 64 ∣ 100 * 2 ^ 64 := Nat.dvd_mul_left _ _
  calc
    (t₂ - (t₁ - v * clintNsPerTick)).toNat =
        (100 * v.toNat % 2 ^ 64 + (t₂ - t₁).toNat) % 2 ^ 64 := by
      rw [split, BitVec.toNat_add, BitVec.toNat_mul]
      rfl
    _ = (100 * v.toNat + (t₂.toNat - t₁.toNat)) % 2 ^ 64 := by
      rw [Nat.mod_add_mod, elapsed_toNat order]
    _ = mtimeNs v t₁ t₂ % 2 ^ 64 := (Nat.mod_mod_of_dvd _ wraps).symm

theorem mtimeSince_toNat (order : t₁ ≤ t₂) :
    (mtimeSince v t₁ t₂).toNat = mtimeNs v t₁ t₂ / 100 := by
  have ticks : (100 * v.toNat + (t₂.toNat - t₁.toNat)) / 100 =
      v.toNat + (t₂.toNat - t₁.toNat) / 100 := by
    omega
  calc
    (mtimeSince v t₁ t₂).toNat = (v.toNat + (t₂.toNat - t₁.toNat) / 100) % 2 ^ 64 := by
      rw [mtimeSince, BitVec.toNat_add, BitVec.toNat_udiv, elapsed_toNat order]
      rfl
    _ = mtimeNs v t₁ t₂ / 100 := by
      rw [mtimeNs, Nat.mod_mul_right_div_self, ticks]

/-- The value read counts on exactly when the nanoseconds fit 64 bits. -/
theorem mtime_reads_iff (order : t₁ ≤ t₂) :
    (clintRead t₂ (mtimeWritten bus v t₁) mtimeOffset 8).1 = (true, mtimeSince v t₁ t₂) ↔
      mtimeNs v t₁ t₂ < 2 ^ 64 := by
  have shown : (clintRead t₂ (mtimeWritten bus v t₁) mtimeOffset 8).1 =
      (true, (t₂ - (t₁ - v * clintNsPerTick)) / clintNsPerTick) := rfl
  rw [shown, Prod.mk.injEq, ← BitVec.toNat_inj, BitVec.toNat_udiv, sinceEpoch_toNat order,
    mtimeSince_toNat order]
  have hundred : clintNsPerTick.toNat = 100 := rfl
  rw [hundred, and_iff_right rfl]
  omega

/-! ### The timers -/

/-- The deadline that the write computes for a compare value, where the clock fits. -/
theorem deadlineMoved_toNat (order : t₁ ≤ t₂) (value : U64) (fits : mtimeNs v t₁ t₂ < 2 ^ 64) :
    (t₁ - v * clintNsPerTick + value * clintNsPerTick).toNat =
      (t₂.toNat + 100 * value.toNat + (2 ^ 64 - mtimeNs v t₁ t₂)) % 2 ^ 64 := by
  have since : (t₂ - (t₁ - v * clintNsPerTick)).toNat = mtimeNs v t₁ t₂ := by
    rw [sinceEpoch_toNat order, Nat.mod_eq_of_lt fits]
  have epoch : t₁ - v * clintNsPerTick = t₂ - (t₂ - (t₁ - v * clintNsPerTick)) := by
    bv_omega
  have hundred : clintNsPerTick.toNat = 100 := rfl
  rw [epoch, BitVec.toNat_add, BitVec.toNat_sub, BitVec.toNat_mul, since, hundred]
  omega

/-- The armed timer of a hart fires at the check iff it is due, exactly when its
deadline lies in host time or is not reached early. -/
theorem armed_right_iff (order : t₁ ≤ t₂) (value : U64) (fits : mtimeNs v t₁ t₂ < 2 ^ 64) :
    (t₂ ≥ t₁ - v * clintNsPerTick + value * clintNsPerTick ↔ value ≤ mtimeSince v t₁ t₂) ↔
      TimerCarried v t₁ t₂ value false := by
  have due : value ≤ mtimeSince v t₁ t₂ ↔ 100 * value.toNat ≤ mtimeNs v t₁ t₂ := by
    rw [BitVec.le_def, mtimeSince_toNat order]
    omega
  have now := t₂.isLt
  rw [due, ge_iff_le, BitVec.le_def, deadlineMoved_toNat order value fits, TimerCarried,
    if_neg Bool.false_ne_true]
  omega

theorem fired_right_iff (order : t₁ ≤ t₂) (value : U64) :
    true = decide (value ≤ mtimeSince v t₁ t₂) ↔ TimerCarried v t₁ t₂ value true := by
  rw [eq_comm, decide_eq_true_iff, BitVec.le_def, mtimeSince_toNat order, TimerCarried, if_pos rfl]
  omega

end

/-! ### Histories -/

theorem timerSync_run {epoch : U64} {s : TimerRun} (sync : TimerSync epoch s)
    (events : List TimerEvent) : TimerSync epoch (run timerStep s events) :=
  invariant_run_always timerSync_step events sync

theorem timerStep_cpuCount (s : TimerRun) (e : TimerEvent) :
    (timerStep s e).bus.device.cpuCount = s.bus.device.cpuCount := by
  cases e with
  | setMtimecmp hart value => rfl
  | check hart now => exact congrArg RvClint.cpuCount (cpuThreadCheckTimer_device s.bus hart now)

theorem timerRun_cpuCount (s : TimerRun) (events : List TimerEvent) :
    (run timerStep s events).bus.device.cpuCount = s.bus.device.cpuCount := by
  induction events generalizing s with
  | nil => rfl
  | cons e events ih => rw [run_cons, ih, timerStep_cpuCount]

/-- After the write and a check MTIP of one hart is right exactly when its timer is carried. -/
theorem mtimeWrite_hart {epoch : U64} {s : TimerRun} (sync : TimerSync epoch s) {v t₁ t₂ : U64}
    (order : t₁ ≤ t₂) (fits : mtimeNs v t₁ t₂ < 2 ^ 64) {hart : Nat}
    (inside : hart < s.bus.device.cpuCount) {timer : CompareTimer}
    (found : s.timers hart = some timer) :
    mtip (cpuThreadCheckTimer (mtimeWritten s.bus v t₁) hart t₂) hart =
        decide (timer.mtimecmp ≤ mtimeSince v t₁ t₂) ↔
      TimerCarried v t₁ t₂ timer.mtimecmp (mtip s.bus hart) := by
  rcases sync.written hart timer found with ⟨mtimecmp, _, armed⟩
  have deadline : (mtimeWritten s.bus v t₁).device.deadlineNs hart =
      t₁ - v * clintNsPerTick + timer.mtimecmp * clintNsPerTick := by
    rw [mtimeWritten_eq, ← mtimecmp]
    exact if_pos inside
  have kept : mtip (mtimeWritten s.bus v t₁) hart = mtip s.bus hart := rfl
  have flag : (mtimeWritten s.bus v t₁).clintTimerArmed hart = !mtip s.bus hart := armed
  rw [mtip_check, deadline, kept, flag]
  cases mtip s.bus hart with
  | true =>
      rw [← fired_right_iff order]
      simp
  | false =>
      rw [← armed_right_iff order timer.mtimecmp fits]
      simp

/-- After every history of compare writes and checks, a write of `mtime` is right
exactly when the clock it sets fits 64 bits of nanoseconds and every timer is carried. -/
theorem mtimeWrite_iff (epoch : U64) (cpuCount : Nat) (irq : Nat → U64)
    (events : List TimerEvent) (v t₁ t₂ : U64) (order : t₁ ≤ t₂) :
    MtimeWriteRight (run timerStep (timerStart epoch cpuCount irq) events).bus
        (run timerStep (timerStart epoch cpuCount irq) events).timers v t₁ t₂ ↔
      mtimeNs v t₁ t₂ < 2 ^ 64 ∧
        ∀ hart < cpuCount, ∀ timer,
          (run timerStep (timerStart epoch cpuCount irq) events).timers hart = some timer →
          TimerCarried v t₁ t₂ timer.mtimecmp
            (mtip (run timerStep (timerStart epoch cpuCount irq) events).bus hart) := by
  have sync := timerSync_run (timerStart_sync epoch cpuCount irq) events
  have count : (run timerStep (timerStart epoch cpuCount irq) events).bus.device.cpuCount =
      cpuCount := timerRun_cpuCount (timerStart epoch cpuCount irq) events
  constructor
  · intro right
    have fits := (mtime_reads_iff _ order).mp right.reads
    refine ⟨fits, ?_⟩
    intro hart inside timer found
    rw [← count] at inside
    exact (mtimeWrite_hart sync order fits inside found).mp (right.checks hart inside timer found)
  · rintro ⟨fits, carried⟩
    constructor
    · rfl
    · exact (mtime_reads_iff _ order).mpr fits
    · intro hart inside timer found
      have carries := carried hart (count ▸ inside) timer found
      exact (mtimeWrite_hart sync order fits inside found).mpr carries

/-- Tick 5 has fired when the clock is moved on to tick 10. -/
theorem mtimeWrite_iff_fired :
    MtimeWriteRight
      (run timerStep (timerStart 0 1 fun _ => 0) [.setMtimecmp 0 5, .check 0 1000]).bus
      (run timerStep (timerStart 0 1 fun _ => 0) [.setMtimecmp 0 5, .check 0 1000]).timers
      10 2000 2500 := by
  refine (mtimeWrite_iff 0 1 (fun _ => 0) [.setMtimecmp 0 5, .check 0 1000] 10 2000 2500
    (by decide)).mpr ⟨by decide, ?_⟩
  intro hart inside timer found
  cases Nat.lt_one_iff.mp inside
  cases found
  decide

/-- Tick 5 has fired when the clock is moved back to 0: MTIP stays set. -/
theorem mtimeWrite_back :
    ¬∀ (epoch : U64) (cpuCount : Nat) (irq : Nat → U64) (events : List TimerEvent)
      (v t₁ t₂ : U64), t₁ ≤ t₂ →
      MtimeWriteRight (run timerStep (timerStart epoch cpuCount irq) events).bus
        (run timerStep (timerStart epoch cpuCount irq) events).timers v t₁ t₂ := by
  intro always
  have right := always 0 1 (fun _ => 0) [.setMtimecmp 0 5, .check 0 1000] 0 1000 1000 (by decide)
  have pending := right.checks 0 (by decide) ⟨5, true⟩ (by decide)
  exact absurd pending (by decide)

end Riscmulator
