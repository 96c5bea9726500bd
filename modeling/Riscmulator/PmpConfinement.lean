import Riscmulator.PmpAccess
import Riscmulator.PmpAgree
import Riscmulator.PmpRegions

/-! Instructions below M-mode without translation, in machines that differ in what PMP
hides. -/

namespace Riscmulator

open Transition

variable {δ : Type}

/-- Machines that agree on what is visible stay in lockstep while PMP confines the harts. -/
theorem agree_lockstep {mc : EmuConfig δ} (hooks : mc.NoHooks) (visible : U64 → Prop) :
    Lockstep mc mc (Agree mc visible) fun m h => LowConfined visible (m.cpus h) where
  toAlikeHarts := agree_harts
  hooks := hooks
  hooks' := hooks
  host := ⟨rfl, rfl, rfl, rfl⟩
  steps := fun confined steps => confined.control (steps.work.dataStep.core _)
  access := fun agree low _ data _ _ => rvAccessVirt_agree agree low data

/-! ### Runs -/

/-- The hart is about to take a step below M-mode without translation. -/
def BelowMachine (m : EmuMachine δ) (h : Nat) : Prop :=
  (m.cpus h).privilege ≤ 1 ∧ rvSatpMode (m.cpus h).csr.satp = 0

theorem BelowMachine.lowBare {m : EmuMachine δ} {h : Nat} (below : BelowMachine m h) :
    LowBare (m.cpus h) := by
  obtain ⟨low, off⟩ := below
  constructor
  · bv_omega
  · intro mode
    rw [rvIsBare, off, beq_self_eq_true, Bool.or_true]

/-- A core with the PMP registers of the first, or in M-mode. -/
def PmpOrMachine (first cpu : RvCpu) : Prop := cpu.privilege = 3 ∨ SamePmp first cpu

theorem PmpOrMachine.same {first cpu : RvCpu} (keeps : PmpOrMachine first cpu) (low : cpu.privilege ≤ 1) :
    SamePmp first cpu := by
  rcases keeps with machine | same
  · rw [machine] at low
    exact absurd low (by decide)
  · exact same

section Runs

variable {mc : EmuConfig δ} {m m' : EmuMachine δ} {h i : Nat} {first : RvCpu}

theorem rvStepInsn_pmpOrMachine (hooks : mc.NoHooks) (synced : MemSynced (m.cpus h))
    (low : (m.cpus h).privilege ≤ 1) (keeps : PmpOrMachine first (m.cpus i)) :
    PmpOrMachine first ((rvStepInsn mc m h).cpus i) := by
  by_cases mine : i = h
  · subst mine
    have same := keeps.same low
    rcases rvStepInsn_lowOrMachine hooks synced low with ⟨_, kept⟩ | machine
    · exact Or.inr ⟨kept.pmpcfg.trans same.1, kept.pmpaddr.trans same.2⟩
    · exact Or.inl machine
  · have control : SameControl (m.cpus i) ((rvStepInsn mc m h).cpus i) :=
      rvStepInsn_other hooks mine
    rcases control.csr with ⟨fcsr, csr⟩
    rcases keeps with machine | same
    · exact Or.inl (control.privilege.trans machine)
    · right
      rw [SamePmp, csr]
      exact same

/-- What a group of harts keeps while those that step are below M-mode. -/
def GroupPmp (schedule : List Nat) (start m : EmuMachine δ) : Prop :=
  ∀ i ∈ schedule, MemSynced (m.cpus i) ∧ PmpOrMachine (start.cpus i) (m.cpus i)

theorem GroupPmp.step {schedule : List Nat} {start : EmuMachine δ} (hooks : mc.NoHooks)
    (group : GroupPmp schedule start m) (member : h ∈ schedule)
    (low : (m.cpus h).privilege ≤ 1) : GroupPmp schedule start (rvStepInsn mc m h) := by
  intro i inGroup
  obtain ⟨synced, keeps⟩ := group i inGroup
  exact ⟨(memSynced_invariant (hooks.keeps _)).step synced,
    rvStepInsn_pmpOrMachine hooks (group h member).1 low keeps⟩

end Runs

/-- Bytes of RAM that PMP hides from every hart that takes a step make no difference to
what the harts do below M-mode, in whatever order they take their steps. -/
theorem pmp_hides (mc : EmuConfig δ) (hooks : mc.NoHooks) (visible : U64 → Prop)
    {m m' : EmuMachine δ} (agree : Agree mc visible m m') (schedule : List Nat)
    (confined : ∀ h ∈ schedule, MemSynced (m.cpus h) ∧ Confined (m.cpus h) visible)
    (below : StepsMeet (rvStepInsn mc) BelowMachine m schedule) :
    Agree mc visible (run (rvStepInsn mc) m schedule) (run (rvStepInsn mc) m' schedule) := by
  have start : GroupPmp schedule m m :=
    fun h member => ⟨(confined h member).1, Or.inr ⟨rfl, rfl⟩⟩
  have members : StepsMeet (rvStepInsn mc) (fun _ h => h ∈ schedule) m schedule :=
    stepsMeet_of_forall m fun h member => member
  suffices reached : Agree mc visible (run (rvStepInsn mc) m schedule)
      (run (rvStepInsn mc) m' schedule) ∧ GroupPmp schedule m (run (rvStepInsn mc) m schedule) from
    reached.1
  refine related_run (R := fun now now' => Agree mc visible now now' ∧ GroupPmp schedule m now)
    ?_ ⟨agree, start⟩ (stepsMeet_and below members)
  · rintro now now' h ⟨agree, group⟩ ⟨low, member⟩
    have same := (group h member).2.same low.1
    have confined' := (confined h member).2.congr same.1 same.2
    exact ⟨(agree_lockstep hooks visible).stepInsn agree ⟨low.lowBare, confined'⟩,
      group.step hooks member low.1⟩

/-! ### One page -/

/-- What the entries that are enabled cover is all that PMP grants below M-mode. -/
theorem confined_of_entries {cpu : RvCpu} {visible : U64 → Prop}
    (covered : ∀ i, rvPmpApplies cpu false i = true → ∀ a,
      pmpaddrMatch a (cpu.csr.pmpaddr i) = true → visible a) : Confined cpu visible := by
  intro a b _ granted
  rw [rvPmpCheck] at granted
  cases decided : (List.finRange 64).findSome? (rvPmpEntry cpu a (a + 1 - 1) false) with
  | none =>
      rw [decided] at granted
      exact absurd granted (by simp)
  | some perms =>
      obtain ⟨i, -, entry⟩ := List.exists_of_findSome?_eq_some decided
      have last : a + 1 - 1 = a := by bv_omega
      simp only [rvPmpEntry, last, bne_self_eq_false] at entry
      split at entry
      · cases entry
      next applies =>
      split at entry
      · next differs => cases differs
      split at entry
      · cases entry
      · next matched => exact covered i (by simpa using applies) a (by simpa using matched)

/-- A hart in U-mode that may access the first page of RAM and no more. -/
def onePageCpu : RvCpu :=
  { run csrWriteStep ((emuMachineInit ()).cpus 0) [(0x3B0, 0x200001FF), (0x3A0, 0x1F)] with
    privilege := 0
    memPrivilege := 0
    pc := 0x80000000
    xregs := fun index => if index = 2 then 0x80000100 else if index = 4 then 0x80002000 else 0 }

/-- `sb x1, 0(x2)` inside the page and `lb x3, 0(x4)` outside it, on a byte of this value. -/
def onePageSecret (secret : U8) : EmuMachine Unit :=
  { emuMachineInit () with
    ram := fun idx =>
      if idx < 8 then ((0x0002018300110023 : U64) >>> (8 * idx.toNat)).setWidth 8
      else if idx = 0x2000 then secret else 0
    cpus := fun _ => onePageCpu }

def InFirstPage (a : U64) : Prop := a &&& ~~~0xfff = 0x80000000

theorem onePageCpu_confined : Confined onePageCpu InFirstPage := by
  apply confined_of_entries
  intro i applies a matched
  have only : ∀ i, rvPmpApplies onePageCpu false i = true → i = 0 := by decide +kernel
  rw [only i applies] at matched
  have region : onePageCpu.csr.pmpaddr 0 = 0x200001ff := by decide +kernel
  rw [region] at matched
  simpa [pmpaddrMatch, InFirstPage] using matched

theorem onePageSecret_agree (secret secret' : U8) :
    Agree (EmuConfig.ramOnly 0x80000000 0x3000 2) InFirstPage (onePageSecret secret)
      (onePageSecret secret') := by
  refine ⟨?_, rfl⟩
  intro a inside
  have other : a - 0x80000000 ≠ 0x2000 := by
    intro same
    have high : a = 0x80002000 := by bv_omega
    rw [high, InFirstPage] at inside
    exact absurd inside (by decide)
  simp only [onePageSecret, EmuConfig.ramOnly, other, if_false]

/-- Two harts store, and are refused the load: the value they are after never shows. -/
theorem pmp_hides_secret :
    Agree (EmuConfig.ramOnly 0x80000000 0x3000 2) InFirstPage
      (run (rvStepInsn (EmuConfig.ramOnly 0x80000000 0x3000 2)) (onePageSecret 0x55) [0, 1, 1, 0])
      (run (rvStepInsn (EmuConfig.ramOnly 0x80000000 0x3000 2)) (onePageSecret 0xaa)
        [0, 1, 1, 0]) := by
  have synced : MemSynced onePageCpu :=
    ⟨by decide +kernel, by decide +kernel, by decide +kernel⟩
  refine pmp_hides _ (fun _ => rfl) InFirstPage (onePageSecret_agree 0x55 0xaa) [0, 1, 1, 0]
    (fun _ _ => ⟨synced, onePageCpu_confined⟩) ?_
  exact ⟨⟨by decide +kernel, by decide +kernel⟩, ⟨by decide +kernel, by decide +kernel⟩,
    ⟨by decide +kernel, by decide +kernel⟩, ⟨by decide +kernel, by decide +kernel⟩, trivial⟩

end Riscmulator
