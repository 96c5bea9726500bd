import Riscmulator.PmpConfinement

/-! Instructions below M-mode without translation leave alone every byte of RAM that PMP
does not let them write. -/

namespace Riscmulator

open Transition

variable {δ : Type}

/-- RAM is the same at every address that may not be written. -/
def RamKept (mc : EmuConfig δ) (writable : U64 → Prop) (m m' : EmuMachine δ) : Prop :=
  ∀ a, ¬writable a → m'.ram (a - mc.ramStart) = m.ram (a - mc.ramStart)

section Phys

variable {mc : EmuConfig δ} {writable : U64 → Prop} {m m' m'' : EmuMachine δ} {addr : U64}
  {mode : RvAccess}

theorem RamKept.refl : RamKept mc writable m m := fun _ _ => rfl

theorem RamKept.trans (left : RamKept mc writable m m') (right : RamKept mc writable m' m'') :
    RamKept mc writable m m'' := fun a foreign => (right a foreign).trans (left a foreign)

theorem ramTransfer_kept (m : EmuMachine δ) (data : Option U64) {len : U64}
    (stores : mode = .store → VisibleRange writable addr len.toNat) :
    RamKept mc writable m (ramTransfer mc m addr data len mode).machine := by
  cases data with
  | none => exact .refl
  | some d =>
      simp only [ramTransfer]
      split
      · next store =>
          intro a foreign
          apply ramStore_other
          by_contra inside
          have position : addr + BitVec.ofNat 64 (a - mc.ramStart - (addr - mc.ramStart)).toNat =
              a := by bv_omega
          have mine := stores store _ (Nat.lt_of_not_le inside)
          rw [position] at mine
          exact foreign mine
      · exact .refl

theorem mmioDispatch_kept (m : EmuMachine δ) (r : EmuMmioRegion δ) (data : Option U64)
    (size : U8) : RamKept mc writable m (mmioDispatch m r addr data size mode).machine := by
  cases data with
  | none => exact .refl
  | some d =>
      simp only [mmioDispatch]
      split <;> exact fun _ _ => rfl

theorem misalignedAccess_kept (fuel : Nat) (m : EmuMachine δ) (data : Option U64) {size : U64}
    (stores : mode = .store → VisibleRange writable addr size.toNat) :
    RamKept mc writable m (misalignedAccess mc fuel m addr data size mode).machine := by
  induction fuel generalizing m addr data size with
  | zero => exact .refl
  | succ fuel ih =>
      simp only [misalignedAccess]
      split
      · exact .refl
      next pos =>
      split
      · next ram =>
          have below : addr + 1 ≤ mc.ramEnd := by
            rw [ramHoldsByte, Bool.and_eq_true, decide_eq_true_iff, decide_eq_true_iff] at ram
            exact ram.2
          have le := (clipPart_part below pos).2
          exact (ramTransfer_kept m data fun store => (stores store).part le).trans
            (ih _ _ fun store => (stores store).rest le)
      · split
        · exact .refl
        · next r found =>
            have below : addr + 1 ≤ r.limit := by
              have holds := List.find?_some found
              rw [EmuMmioRegion.holdsByte, Bool.and_eq_true, decide_eq_true_iff,
                decide_eq_true_iff] at holds
              bv_omega
            have le := (clipPart_part below pos).2
            have first : RamKept mc writable m (mmioDispatch m r addr data
                ((clipPart addr size r.limit).setWidth 8) mode).machine := mmioDispatch_kept m r _ _
            split
            · exact first
            · exact first.trans (ih _ _ fun store => (stores store).rest le)

theorem misalignedTwoPass_kept (m : EmuMachine δ) (data : U64) {size : U64}
    (stores : mode = .store → VisibleRange writable addr size.toNat) :
    RamKept mc writable m (misalignedTwoPass mc m addr data size mode).machine := by
  have pass : RamKept mc writable m (misalignedAccess mc size.toNat m addr none size mode).machine :=
    misalignedAccess_kept size.toNat m none stores
  simp only [misalignedTwoPass]
  split
  · exact pass
  · exact pass.trans (misalignedAccess_kept size.toNat _ (some data) stores)

theorem rvAccessPhysUnchecked_kept (m : EmuMachine δ) (data : U64) {sizeExp : Fin 4}
    (stores : mode = .store → VisibleRange writable addr (bit sizeExp.val).toNat) :
    RamKept mc writable m (rvAccessPhysUnchecked mc m addr data sizeExp mode).machine := by
  simp only [rvAccessPhysUnchecked]
  split
  · exact ramTransfer_kept m (some data) stores
  split
  · exact misalignedTwoPass_kept m data stores
  split
  · exact mmioDispatch_kept m _ (some data) _
  · exact .refl

end Phys

/-! ### Steps -/

/-- Whatever PMP lets the core write below M-mode is writable. -/
def StoresWithin (cpu : RvCpu) (writable : U64 → Prop) : Prop :=
  ∀ a, (rvPmpCheck cpu a 1 false).getLsbD rvPmpcfgWBit = true → writable a

theorem StoresWithin.congr {cpu cpu' : RvCpu} {writable : U64 → Prop}
    (within : StoresWithin cpu writable) (same : SamePmp cpu cpu') :
    StoresWithin cpu' writable := by
  intro a granted
  rw [same.check] at granted
  exact within a granted

theorem SameControl.samePmp {cpu cpu' : RvCpu} (same : SameControl cpu cpu') :
    SamePmp cpu cpu' := by
  rcases same.csr with ⟨fcsr, csr⟩
  rw [SamePmp, csr]
  exact ⟨rfl, rfl⟩

section Step

variable {mc : EmuConfig δ} {writable : U64 → Prop} {m m' : EmuMachine δ} {h : Nat}

theorem rvAccessVirt_kept (low : LowBare (m.cpus h)) (within : StoresWithin (m.cpus h) writable)
    (addr data : U64) (sizeExp : Fin 4) (mode : RvAccess) :
    RamKept mc writable m (rvAccessVirt mc m h addr data sizeExp mode).machine := by
  simp only [rvAccessVirt, rvAccessVirtBy, low.bare mode, if_true, rvAccessPhys, Bool.not_false,
    Bool.true_and]
  by_cases granted : doPmpCheck (m.cpus h) addr (bit sizeExp.val) mode = .ok
  · simp only [granted, ne_eq, not_true_eq_false, decide_false, Bool.false_eq_true, if_false]
    apply rvAccessPhysUnchecked_kept
    rintro rfl k inside
    exact within _ (low.granted granted inside)
  · simp only [granted, ne_eq, not_false_eq_true, decide_true, if_true]
    exact .refl

/-- The control state decides what is refused, and none of the steps of an instruction
changes it. -/
theorem MicroSteps.ramKept (low : LowBare (m.cpus h)) (within : StoresWithin (m.cpus h) writable)
    (steps : MicroSteps mc h m m') : RamKept mc writable m m' := by
  induction steps with
  | refl => exact .refl
  | access before vaddr data sizeExp mode ih =>
      have same := before.work.dataStep.core h
      exact ih.trans (rvAccessVirt_kept (low.control same) (within.congr same.samePmp) vaddr data
        sizeExp mode)
  | regs _ _ ih => exact ih
  | pc _ _ _ ih => exact ih
  | fence _ _ ih => exact ih
  | reserve _ _ ih => exact ih
  | round _ _ ih => exact ih

theorem InsnSteps.ramKept {insn : U32} (hooks : mc.NoHooks) (low : LowBare (m.cpus h))
    (within : StoresWithin (m.cpus h) writable) (executed : InsnSteps mc m h insn m') :
    RamKept mc writable m m' := by
  cases executed with
  | data steps => exact steps.ramKept low within
  | trap trap steps =>
      rw [rvDoTrap_noHooks hooks]
      exact fun a foreign => steps.ramKept low within a foreign
  | csr form read written => exact .refl
  | mret machine => exact .refl
  | sret legal => exact .refl
  | abort level => exact .refl

theorem rvStepInsn_ramKept (hooks : mc.NoHooks) (low : LowBare (m.cpus h))
    (within : StoresWithin (m.cpus h) writable) : RamKept mc writable m (rvStepInsn mc m h) := by
  have fetched := (rvFetchInsn_steps mc m h).ramKept low within
  have same := (rvFetchInsn_step mc m h).core h
  have trapped : ∀ (m' : EmuMachine δ) trap, RamKept mc writable m m' →
      RamKept mc writable m (rvDoTrap mc m' h trap) := by
    intro m' trap kept
    rw [rvDoTrap_noHooks hooks]
    exact kept
  unfold rvStepInsn rvStepInsnBy
  revert fetched same
  generalize rvFetchInsn mc m h = outcome
  intro fetched same
  cases outcome with
  | fault m' trap => exact trapped m' trap fetched
  | illegal m' hw => exact trapped m' _ fetched
  | word m' insn =>
      have executed : RamKept mc writable m' (rvForcefeedInsn mc m' h insn) :=
        rvForcefeedInsn_steps.ramKept hooks (low.control same) (within.congr same.samePmp)
      simp only [rvCheckInterrupts]
      split
      · exact fetched.trans executed
      · exact trapped _ _ (fetched.trans executed)

end Step

/-- Harts below M-mode, in whatever order they take their steps, change no byte of RAM that
PMP lets none of them write. -/
theorem pmp_protects (mc : EmuConfig δ) (hooks : mc.NoHooks) (writable : U64 → Prop)
    (m : EmuMachine δ) (schedule : List Nat)
    (within : ∀ h ∈ schedule, MemSynced (m.cpus h) ∧ StoresWithin (m.cpus h) writable)
    (below : StepsMeet (rvStepInsn mc) BelowMachine m schedule) :
    RamKept mc writable m (run (rvStepInsn mc) m schedule) := by
  have start : GroupPmp schedule m m :=
    fun h member => ⟨(within h member).1, Or.inr ⟨rfl, rfl⟩⟩
  have members : StepsMeet (rvStepInsn mc) (fun _ h => h ∈ schedule) m schedule :=
    stepsMeet_of_forall m fun h member => member
  suffices reached : RamKept mc writable m (run (rvStepInsn mc) m schedule) ∧
      GroupPmp schedule m (run (rvStepInsn mc) m schedule) from reached.1
  refine invariant_run (I := fun now => RamKept mc writable m now ∧ GroupPmp schedule m now)
    ?_ ⟨.refl, start⟩ (stepsMeet_and below members)
  · rintro now h ⟨kept, group⟩ ⟨low, member⟩
    have same := (group h member).2.same low.1
    have within' := (within h member).2.congr same
    exact ⟨kept.trans (rvStepInsn_ramKept hooks low.lowBare within'),
      group.step hooks member low.1⟩

/-- Two harts that store inside their page leave the rest of RAM as it was. -/
theorem pmp_protects_page :
    RamKept (EmuConfig.ramOnly 0x80000000 0x3000 2) InFirstPage (onePageSecret 0x55)
      (run (rvStepInsn (EmuConfig.ramOnly 0x80000000 0x3000 2)) (onePageSecret 0x55)
        [0, 1, 1, 0]) := by
  have synced : MemSynced onePageCpu :=
    ⟨by decide +kernel, by decide +kernel, by decide +kernel⟩
  have within : StoresWithin onePageCpu InFirstPage :=
    fun a granted => onePageCpu_confined a 1 (by decide) granted
  refine pmp_protects _ (fun _ => rfl) InFirstPage (onePageSecret 0x55) [0, 1, 1, 0]
    (fun _ _ => ⟨synced, within⟩) ?_
  exact ⟨⟨by decide +kernel, by decide +kernel⟩, ⟨by decide +kernel, by decide +kernel⟩,
    ⟨by decide +kernel, by decide +kernel⟩, ⟨by decide +kernel, by decide +kernel⟩, trivial⟩

end Riscmulator
