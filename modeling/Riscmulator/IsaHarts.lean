import Riscmulator.IsaSteps
import Riscmulator.PmpLocks
import Riscmulator.Lib.Interleave

/-! Harts that share RAM, each with bytes that only it writes: every interleaving of their
steps on the emulator is, for each of them, its own run of the ISA. -/

namespace Riscmulator

open Transition Interleave

variable {δ : Type}

/-- The harts of a group are in states of the ISA, and what one may write none of the
others looks at. -/
structure Together (mc : EmuConfig δ) (group : Nat → Prop) (states : Nat → Rv64.Hart)
    (m : EmuMachine δ) : Prop where
  each : ∀ h, group h → InState mc m h (states h)
  apart : ∀ h i, group h → group i → h ≠ i → ∀ a,
    (states h).mem.writable a = true → (states i).mem.held a = false

/-- What the harts of a group leave alone: the other harts, devices, and bytes of RAM that
none of them may write. -/
structure GroupKept (mc : EmuConfig δ) (group : Nat → Prop) (states : Nat → Rv64.Hart)
    (m m' : EmuMachine δ) : Prop where
  harts : ∀ i, ¬group i → m'.cpus i = m.cpus i
  ram : ∀ a, (∀ h, group h → (states h).mem.writable a = false) →
    m'.ram (a - mc.ramStart) = m.ram (a - mc.ramStart)
  reservations : ∀ i, (m'.reservations i).valid = true → m'.reservations i = m.reservations i
  others : m' = { m with ram := m'.ram, cpus := m'.cpus, reservations := m'.reservations }

section Steps

variable {mc : EmuConfig δ} {m m' : EmuMachine δ} {group : Nat → Prop} {states : Nat → Rv64.Hart}
  {h i : Nat} {s s' : Rv64.Hart}

/-- A step of another hart that writes nothing the hart looks at. -/
theorem InState.other (state : InState mc m i s) {owned : U64 → Bool} (other : i ≠ h)
    (step : LocalStep mc h owned m m') (apart : ∀ a, owned a = true → s.mem.held a = false) :
    InState mc m' i s := by
  have same := step.harts i other
  constructor
  · rw [same, state.pc]
  · rw [same, state.regs]
  · intro a byte present
    obtain ⟨low, high, stored⟩ := state.ram a byte present
    refine ⟨low, high, ?_⟩
    rw [step.ram a, stored]
    by_contra written
    have absent := apart a (by simpa using written)
    rw [Rv64.Memory.held, present] at absent
    cases absent
  · rw [same]
    exact state.free

theorem Together.step (together : Together mc group states m) (member : group h)
    (done : StepDone mc h (states h) s' m m') :
    Together mc group (Function.update states h s') m' := by
  have shape : ∀ i, (states i).mem.SameShape (Function.update states h s' i).mem := by
    intro i
    by_cases mine : i = h
    · rw [mine, Function.update_self]
      exact done.shape
    · rw [Function.update_of_ne mine]
      exact .refl _
  constructor
  · intro i other
    by_cases mine : i = h
    · rw [mine, Function.update_self]
      exact done.state
    · rw [Function.update_of_ne mine]
      exact (together.each i other).other mine done.kept
        (together.apart h i member other (Ne.symm mine))
  · intro first second inFirst inSecond different a
    rw [(shape first).writable, (shape second).held]
    exact together.apart first second inFirst inSecond different a

theorem GroupKept.step {start : EmuMachine δ} {initial : Nat → Rv64.Hart}
    (kept : GroupKept mc group initial start m) (member : group h)
    (shape : (initial h).mem.SameShape s.mem) (done : StepDone mc h s s' m m') :
    GroupKept mc group initial start m' := by
  constructor
  · intro i other
    rw [done.kept.harts i (fun mine => other (mine ▸ member)), kept.harts i other]
  · intro a foreign
    have unwritable : s.mem.writable a = false := by
      rw [shape.writable]
      exact foreign h member
    rw [done.kept.ram a unwritable, kept.ram a foreign]
  · intro i valid
    have same := done.kept.reservations i valid
    rw [same] at valid
    rw [same, kept.reservations i valid]
  · rw [done.kept.others, kept.others]

end Steps

/-- `sb x1, 0(x2)` at the start of RAM. -/
def storingRam : U64 → U8 := fun idx =>
  if idx < 4 then ((0x00110023 : U32) >>> (8 * idx.toNat)).setWidth 8 else 0

/-- A hart that owns the byte its `x2` points to. -/
def storingHart (h : Nat) : Rv64.Hart where
  pc := 0x80000000
  regs := ⟨fun index => if index = 2 then 0x80000100 + BitVec.ofNat 64 h else 0, rfl⟩
  mem :=
    { byte := fun a =>
        if a - 0x80000000 < 4 ∨ a = 0x80000100 + BitVec.ofNat 64 h then
          some (storingRam (a - 0x80000000))
        else none
      fixed := fun a => a - 0x80000000 < 4 }

def storingMachine : EmuMachine Unit :=
  { emuMachineInit () with
    ram := storingRam
    cpus := fun h => { (emuMachineInit ()).cpus h with
      pc := 0x80000000
      xregs := (storingHart h).regs.read } }

theorem storingMachine_together :
    Together (EmuConfig.ramOnly 0x80000000 0x1000 2) (fun h => h < 2) storingHart
      storingMachine := by
  constructor
  · intro h small
    constructor
    · rfl
    · rfl
    · intro a byte present
      simp only [storingHart] at present
      split at present
      · next held =>
          refine ⟨?_, ?_, Option.some.inj present⟩
          · change (0x80000000 : U64) ≤ a
            bv_omega
          · change a < (0x80000000 : U64) + 0x1000
            bv_omega
      · cases present
    · have unlocked : ∀ i, ((storingMachine.cpus h).csr.pmpcfgUnpacked i).getLsbD
          rvPmpcfgLBit = false := fun i =>
        congrArg (fun cfg : U8 => cfg.getLsbD rvPmpcfgLBit) (emuMachineInit_pmpOff () h i)
      exact .machine (rvIsBare_off rfl) rfl unlocked (rvInterruptCause_unasserted rfl) _
  · intro h i smallH smallI different a writable
    have held : ∀ h, (storingHart h).mem.held a = true ↔
        a - 0x80000000 < 4 ∨ a = 0x80000100 + BitVec.ofNat 64 h := by
      intro h
      simp only [storingHart, Rv64.Memory.held]
      split
      · next inside => simp only [inside, Option.isSome_some]
      · next outside => simp only [outside, Option.isSome_none, Bool.false_eq_true]
    rw [Rv64.Memory.writable, Bool.and_eq_true, held h] at writable
    by_contra looked
    rw [Bool.not_eq_false, held i] at looked
    have code : ¬a - 0x80000000 < 4 := by simpa [storingHart] using writable.2
    have mine := writable.1.resolve_left code
    have theirs := looked.resolve_left code
    interval_cases h <;> interval_cases i <;> simp_all

end Riscmulator
