import Riscmulator.Runs

/-! The TLB array in the host's memory. A step whose TLB stores all stay in the array does the
same with the memory behind it as without, and so does a run of such steps. -/

namespace Riscmulator

open Transition

variable {δ : Type}

/-- No store has left the array: the slots past the last one bear no mark. A stored entry
has its V bit set, so a mark is never zero, and only `rvTlbOverrun` takes one away. -/
def RvTlb.InArray (tlb : RvTlb) : Prop := ∀ slot, rvTlbSlots ≤ slot → tlb.entries slot = ⟨0, 0⟩

def EmuMachine.InArray (m : EmuMachine δ) : Prop := ∀ i, (m.cpus i).tlb.InArray

def EmuConfig.unhooked (mc : EmuConfig δ) : EmuConfig δ := mc.hooked fun _ => none

/-- Every TLB store that the event makes, in any of its lookups, is inside the 256 slots.
The code calls a trap hook after its last lookup, so the hooks are left out. -/
def StoresInArray (mc : EmuConfig δ) (m : EmuMachine δ) (e : MachineEvent δ) : Prop :=
  (machineStep mc.unhooked m e).InArray

/-! ### Lookups -/

section Lookup

variable {mc : EmuConfig δ} {m m' : EmuMachine δ} {h : Nat} {vaddr : U64} {mode : RvAccess}

theorem inArray_of_entries (same : ∀ i, (m'.cpus i).tlb.entries = (m.cpus i).tlb.entries) :
    m'.InArray ↔ m.InArray := by
  simp only [EmuMachine.InArray, RvTlb.InArray, same]

theorem inArray_setCpu {cpu : RvCpu} (same : cpu.tlb.entries = (m.cpus h).tlb.entries) :
    (m.setCpu h cpu).InArray ↔ m.InArray := by
  apply inArray_of_entries
  intro i
  by_cases mine : i = h
  · rw [mine, EmuMachine.setCpu_same, same]
  · rw [EmuMachine.setCpu_other _ _ mine]

theorem PhysFrame.inArray (frame : PhysFrame m m') : m'.InArray ↔ m.InArray :=
  inArray_of_entries fun i => congrArg RvTlb.entries (frame.tlb i)

/-- What a miss stores, if it stores anything, is a valid entry in one slot. -/
theorem rvPagingMiss_store (mc : EmuConfig δ) (m : EmuMachine δ) (h : Nat) (vaddr : U64)
    (mode : RvAccess) :
    ((∀ slot, (rvPagingMiss mc m h vaddr mode).path ≠ .filled slot) ∧
        ((rvPagingMiss mc m h vaddr mode).machine.cpus h).tlb.entries = (m.cpus h).tlb.entries) ∨
      ∃ slot entry, entry.pte.getLsbD rvPteVBit = true ∧
        (rvPagingMiss mc m h vaddr mode).path = .filled slot ∧
        ((rvPagingMiss mc m h vaddr mode).machine.cpus h).tlb.entries =
          Function.update (m.cpus h).tlb.entries slot entry := by
  have walked := (rvPagingRawLookup_frame mc m h vaddr mode).tlb h
  simp only [rvPagingMiss]
  split
  · exact Or.inl ⟨fun slot => LookupPath.noConfusion, by rw [walked]⟩
  split
  · exact Or.inl ⟨fun slot => LookupPath.noConfusion, by rw [walked]⟩
  · next valid =>
      have set : (rvPagingRawLookup mc m h vaddr mode).entry.pte.getLsbD rvPteVBit = true := by
        simpa using valid
      refine Or.inr ⟨_, _, set, rfl, ?_⟩
      simp only [EmuMachine.setTlb, EmuMachine.setCpu_same, walked, rvTlbInsert]
      split <;> rfl

theorem rvPagingLookup_store (mc : EmuConfig δ) (m : EmuMachine δ) (h : Nat) (vaddr : U64)
    (mode : RvAccess) :
    ((∀ slot, (rvPagingLookup mc m h vaddr mode).path ≠ .filled slot) ∧
        ((rvPagingLookup mc m h vaddr mode).machine.cpus h).tlb.entries =
          (m.cpus h).tlb.entries) ∨
      ∃ slot entry, entry.pte.getLsbD rvPteVBit = true ∧
        (rvPagingLookup mc m h vaddr mode).path = .filled slot ∧
        ((rvPagingLookup mc m h vaddr mode).machine.cpus h).tlb.entries =
          Function.update (m.cpus h).tlb.entries slot entry := by
  simp only [rvPagingLookup]
  split
  · exact Or.inl ⟨fun slot => LookupPath.noConfusion, rfl⟩
  · next col _ =>
      have dropped : ((m.setTlb h ((m.cpus h).tlb.clearValid (rvTlbRow vaddr) col)).cpus
          h).tlb.entries = (m.cpus h).tlb.entries := by
        rw [EmuMachine.setTlb, EmuMachine.setCpu_same]
        rfl
      rw [← dropped]
      exact rvPagingMiss_store mc _ h vaddr mode
  · exact rvPagingMiss_store mc m h vaddr mode

/-- A lookup leaves the array alone exactly when it stores in a slot of it, or nowhere. -/
theorem rvPagingLookup_inArray :
    (rvPagingLookup mc m h vaddr mode).machine.InArray ↔
      m.InArray ∧ ∀ slot, (rvPagingLookup mc m h vaddr mode).path = .filled slot →
        slot < rvTlbSlots := by
  have other : ∀ i, i ≠ h → ((rvPagingLookup mc m h vaddr mode).machine.cpus i).tlb =
      (m.cpus i).tlb := (rvPagingLookup_frame mc m h vaddr mode).tlb
  have split : ∀ m : EmuMachine δ, m.InArray ↔
      (m.cpus h).tlb.InArray ∧ ∀ i, i ≠ h → (m.cpus i).tlb.InArray := by
    intro m
    refine ⟨fun all => ⟨all h, fun i _ => all i⟩, fun both i => ?_⟩
    by_cases mine : i = h
    · exact mine ▸ both.1
    · exact both.2 i mine
  rw [split, split m]
  have others : (∀ i, i ≠ h → ((rvPagingLookup mc m h vaddr mode).machine.cpus i).tlb.InArray) ↔
      ∀ i, i ≠ h → (m.cpus i).tlb.InArray :=
    forall₂_congr fun i apart => by rw [other i apart]
  rw [others]
  rcases rvPagingLookup_store mc m h vaddr mode with ⟨path, entries⟩ |
    ⟨slot, entry, valid, path, entries⟩
  · simp only [RvTlb.InArray, entries, path, false_imp_iff, implies_true, and_true]
  · have mark : entry ≠ ⟨0, 0⟩ := by
      rintro rfl
      cases valid
    have own : ((rvPagingLookup mc m h vaddr mode).machine.cpus h).tlb.InArray ↔
        (m.cpus h).tlb.InArray ∧ slot < rvTlbSlots := by
      simp only [RvTlb.InArray, entries]
      constructor
      · intro kept
        have inside : slot < rvTlbSlots := by
          by_contra past
          have zero := kept slot (Nat.le_of_not_lt past)
          rw [Function.update_self] at zero
          exact mark zero
        refine ⟨fun place far => ?_, inside⟩
        have zero := kept place far
        rwa [Function.update_of_ne (by omega)] at zero
      · rintro ⟨kept, inside⟩ place far
        rw [Function.update_of_ne (by omega)]
        exact kept place far
    rw [own, path]
    simp only [LookupPath.filled.injEq, forall_eq']
    tauto

/-- A lookup that stores in the array is the one of the code. -/
theorem hostPagingLookup_eq (inside : ∀ slot,
    (rvPagingLookup mc m h vaddr mode).path = .filled slot → slot < rvTlbSlots) :
    hostPagingLookup mc m h vaddr mode = rvPagingLookup mc m h vaddr mode := by
  simp only [hostPagingLookup]
  split
  · next slot path => rw [if_pos (inside slot path)]
  · rfl
  · rfl

end Lookup

/-! ### Accesses -/

section Access

variable {mc : EmuConfig δ} {m m' : EmuMachine δ} {h : Nat}

theorem rvAccessTwoPages_inArray {vaddr data size : U64} {mode : RvAccess}
    {result0 result1 : RvTlbEntry}
    (after : (rvAccessTwoPages mc m h vaddr data size mode result0 result1).machine.InArray) :
    m.InArray :=
  (rvAccessTwoPages_frame mc m h vaddr data size mode result0 result1).inArray.mp after

theorem hostPagingLookup_eq_of_after {vaddr : U64} {mode : RvAccess}
    (after : (rvPagingLookup mc m h vaddr mode).machine.InArray) :
    m.InArray ∧ hostPagingLookup mc m h vaddr mode = rvPagingLookup mc m h vaddr mode := by
  rcases rvPagingLookup_inArray.mp after with ⟨before, inside⟩
  exact ⟨before, hostPagingLookup_eq inside⟩

theorem hostPageboundary_eq {vaddr data : U64} {sizeExp : Fin 4} {mode : RvAccess}
    (after : (rvAccessVirtPageboundary mc m h vaddr data sizeExp mode).machine.InArray) :
    m.InArray ∧
      rvAccessVirtPageboundary mc m h vaddr data sizeExp mode (hostPagingLookup mc) =
        rvAccessVirtPageboundary mc m h vaddr data sizeExp mode := by
  simp only [rvAccessVirtPageboundary] at after ⊢
  split at after
  · next outside => exact ⟨after, by rw [if_pos outside, if_pos outside]⟩
  next canonical =>
  rw [if_neg canonical, if_neg canonical]
  split at after
  · next failed =>
      obtain ⟨before, same⟩ := hostPagingLookup_eq_of_after after
      exact ⟨before, by rw [same, if_pos failed, if_pos failed]⟩
  next found =>
  -- The second lookup starts where the first ended, so the first stored in the array too.
  have second : (rvPagingLookup mc (rvPagingLookup mc m h vaddr mode).machine h
      (rvNextPage vaddr) mode).machine.InArray := by
    split at after
    · exact after
    · exact rvAccessTwoPages_inArray after
  obtain ⟨between, same'⟩ := hostPagingLookup_eq_of_after second
  obtain ⟨before, same⟩ := hostPagingLookup_eq_of_after between
  exact ⟨before, by rw [same, same']⟩

/-- Where the lookups of an access store in the array, it is the access of the code, and
nothing was stored past the array before it. -/
theorem hostAccessVirt_eq {vaddr data : U64} {sizeExp : Fin 4} {mode : RvAccess}
    (after : (rvAccessVirt mc m h vaddr data sizeExp mode).machine.InArray) :
    m.InArray ∧ hostAccessVirt mc m h vaddr data sizeExp mode =
      rvAccessVirt mc m h vaddr data sizeExp mode := by
  simp only [hostAccessVirt, rvAccessVirt, rvAccessVirtBy] at after ⊢
  split at after
  · next bare =>
      have before := (rvAccessPhys_frame mc m h vaddr data sizeExp mode false).inArray.mp after
      exact ⟨before, by rw [if_pos bare, if_pos bare]⟩
  next paged =>
  rw [if_neg paged, if_neg paged]
  split at after
  · next outside => exact ⟨after, by rw [if_pos outside, if_pos outside]⟩
  next canonical =>
  rw [if_neg canonical, if_neg canonical]
  split at after
  · next crosses =>
      rw [if_pos crosses, if_pos crosses]
      exact hostPageboundary_eq after
  next within =>
  rw [if_neg within, if_neg within]
  have looked : (rvPagingLookup mc m h vaddr mode).machine.InArray := by
    split at after
    · exact after
    · exact (rvAccessPhys_frame mc _ h _ data sizeExp mode true).inArray.mp after
  obtain ⟨before, same⟩ := hostPagingLookup_eq_of_after looked
  exact ⟨before, by rw [same]⟩

end Access

/-! ### Instructions -/

section Insn

variable {mc : EmuConfig δ} {m m' : EmuMachine δ} {h : Nat} {insn : U32}

theorem rvDoTrap_inArray {trap : RvTrap} :
    (rvDoTrap mc.unhooked m h trap).InArray ↔ m.InArray := by
  rw [rvDoTrap_noHooks fun _ => rfl]
  exact inArray_setCpu (by rw [rvTrapEnter_tlb])

theorem rvCheckInterrupts_inArray :
    (rvCheckInterrupts mc.unhooked m h).InArray ↔ m.InArray := by
  unfold rvCheckInterrupts
  split
  · rfl
  · exact rvDoTrap_inArray

theorem writeXreg_inArray {index : BitVec 5} {value : U64} :
    (m.writeXreg h index value).InArray ↔ m.InArray :=
  inArray_setCpu (by rw [rvXregWrite_tlb])

theorem rvSfenceVma_entries (cpu : RvCpu) (insn : U32) :
    (rvSfenceVma cpu insn).tlb.entries = cpu.tlb.entries := by
  unfold rvSfenceVma rvInvalTlb
  split_ifs <;> rfl

/-- Without the host's memory nothing a hart does takes a mark away. -/
theorem MicroSteps.inArray (steps : MicroSteps mc h m m') (after : m'.InArray) : m.InArray := by
  induction steps with
  | refl => exact after
  | access _ vaddr data sizeExp mode ih => exact ih (hostAccessVirt_eq after).1
  | regs _ same ih =>
      rcases same with ⟨_, _, _, rfl⟩
      exact ih ((inArray_setCpu (by rfl)).mp after)
  | pc _ pc epc ih => exact ih ((inArray_setCpu (by rfl)).mp after)
  | fence _ insn ih => exact ih ((inArray_setCpu (rvSfenceVma_entries _ insn)).mp after)
  | reserve _ reservations ih => exact ih after
  | round _ mode ih => exact ih after

theorem rvForcefeedInsn_inArray (after : (rvForcefeedInsn mc.unhooked m h insn).InArray) :
    m.InArray := by
  have executed : InsnSteps mc.unhooked m h insn (rvForcefeedInsn mc.unhooked m h insn) :=
    rvForcefeedInsn_steps
  generalize rvForcefeedInsn mc.unhooked m h insn = last at executed after
  cases executed with
  | data steps => exact steps.inArray after
  | trap trap steps => exact steps.inArray (rvDoTrap_inArray.mp after)
  | csr form read written =>
      obtain rfl | ⟨reg, wdata, _, stored⟩ := doCsrWrite_cases form read written
      · exact (inArray_setCpu (by rw [rvXregWrite_tlb])).mp after
      · exact (inArray_setCpu (by rw [rvXregWrite_tlb, rvCsrWriteReg_entries stored])).mp after
  | mret machine => exact (inArray_setCpu (by rfl)).mp after
  | sret legal => exact (inArray_setCpu (by rfl)).mp after
  | abort level => exact after

theorem hostBaseLoad_eq (after : (rvBaseLoad mc.unhooked m h insn).InArray) :
    rvBaseLoad mc m h insn (hostAccessVirt mc) = rvBaseLoad mc m h insn := by
  simp only [rvBaseLoad, EmuConfig.unhooked, rvAccessVirt_hooked] at after ⊢
  split at after
  · next illegal => rw [if_pos illegal, if_pos illegal]
  next legal =>
  rw [if_neg legal, if_neg legal]
  cases size : rvLoadSizeExp (rvInsnFunct3 insn) with
  | none => rfl
  | some sizeExp =>
      simp only [size] at after
      have loaded : (rvAccessVirt mc m h (m.xreg h (rvInsnRs1 insn) + rvInsnImm12 insn) 0
          sizeExp .load).machine.InArray := by
        split at after
        · exact rvDoTrap_inArray.mp after
        split at after
        · exact (inArray_setCpu (by rfl)).mp after
        · exact writeXreg_inArray.mp after
      simp only [(hostAccessVirt_eq loaded).2]

theorem hostBaseStore_eq (after : (rvBaseStore mc.unhooked m h insn).InArray) :
    rvBaseStore mc m h insn (hostAccessVirt mc) = rvBaseStore mc m h insn := by
  simp only [rvBaseStore, EmuConfig.unhooked, rvAccessVirt_hooked] at after ⊢
  generalize (if (rvInsnOpMaj insn).getLsbD 0 then rvFregRead (m.cpus h) (rvInsnRs2 insn)
    else m.xreg h (rvInsnRs2 insn)) = wdata at after ⊢
  split at after
  · next illegal => rw [if_pos illegal, if_pos illegal]
  next legal =>
  rw [if_neg legal, if_neg legal]
  have stored : (rvAccessVirt mc m h (m.xreg h (rvInsnRs1 insn) + rvInsnSImm12 insn) wdata
      (rvStoreSizeExp (rvInsnFunct3 insn)) .store).machine.InArray := by
    split at after
    · exact rvDoTrap_inArray.mp after
    · exact after
  rw [(hostAccessVirt_eq stored).2]

theorem hostAtomicLr_eq {addr : U64} (after : (rvAtomicLr mc m h insn addr).machine.InArray) :
    rvAtomicLr mc m h insn addr (hostAccessVirt mc) = rvAtomicLr mc m h insn addr := by
  simp only [rvAtomicLr, rvAtomicFault] at after ⊢
  split at after
  · next illegal => rw [if_pos illegal, if_pos illegal]
  next legal =>
  rw [if_neg legal, if_neg legal]
  have loaded : (rvAccessVirt mc m h addr 0 (rvAtomicSizeExp insn) .load).machine.InArray := by
    split at after <;> exact after
  rw [(hostAccessVirt_eq loaded).2]

theorem hostAtomicSc_eq {addr : U64} (after : (rvAtomicSc mc m h insn addr).machine.InArray) :
    rvAtomicSc mc m h insn addr (hostAccessVirt mc) = rvAtomicSc mc m h insn addr := by
  simp only [rvAtomicSc, rvAtomicFault] at after ⊢
  split at after
  · next reserved =>
      rw [if_pos reserved, if_pos reserved]
      have stored : (rvAccessVirt mc m h addr (m.xreg h (rvInsnRs2 insn)) (rvAtomicSizeExp insn)
          .store).machine.InArray := by
        split at after <;> exact after
      rw [(hostAccessVirt_eq stored).2]
  · next free => rw [if_neg free, if_neg free]

theorem hostAtomicAmo_eq {addr : U64} (after : (rvAtomicAmo mc m h insn addr).machine.InArray) :
    rvAtomicAmo mc m h insn addr (hostAccessVirt mc) = rvAtomicAmo mc m h insn addr := by
  simp only [rvAtomicAmo, rvAtomicFault] at after ⊢
  generalize first : rvAccessVirt mc m h addr 0 (rvAtomicSizeExp insn) .amo = out at after
  split at after
  · next failed =>
      have same := (hostAccessVirt_eq (first ▸ after)).2
      rw [same, first, if_pos failed, if_pos failed]
  next loaded =>
  split at after
  · next unlisted =>
      have same := (hostAccessVirt_eq (first ▸ after)).2
      simp only [same, first, unlisted]
  next newval listed =>
  have stored : (rvAccessVirt mc out.machine h addr newval (rvAtomicSizeExp insn)
      .store).machine.InArray := by
    split at after <;> exact after
  obtain ⟨between, second⟩ := hostAccessVirt_eq stored
  have same := (hostAccessVirt_eq (first ▸ between)).2
  simp only [same, first, listed, second]

theorem hostAtomicExec_eq (after : (rvAtomicExec mc m h insn).machine.InArray) :
    rvAtomicExec mc m h insn (hostAccessVirt mc) = rvAtomicExec mc m h insn := by
  simp only [rvAtomicExec] at after ⊢
  generalize (if rvInsnFunct3 insn = 2 then (3 : U64) else 7) = alignMask at after ⊢
  split
  · rfl
  next width =>
  rw [if_neg width] at after
  split
  · rfl
  next aligned =>
  rw [if_neg aligned] at after
  split
  · next lr => exact hostAtomicLr_eq (by rwa [if_pos lr] at after)
  next other =>
  rw [if_neg other] at after
  split
  · next sc => exact hostAtomicSc_eq (by rwa [if_pos sc] at after)
  · next amo => exact hostAtomicAmo_eq (by rwa [if_neg amo] at after)

theorem hostAtomicOp_eq (after : (rvAtomicOp mc.unhooked m h insn).InArray) :
    rvAtomicOp mc m h insn (hostAccessVirt mc) = rvAtomicOp mc m h insn := by
  have executed : (rvAtomicExec mc m h insn).machine.InArray := by
    have same : rvAtomicExec mc.unhooked m h insn = rvAtomicExec mc m h insn := by
      rw [EmuConfig.unhooked, rvAccessVirt_hooked]
      rfl
    rw [rvAtomicOp, same] at after
    cases outcome : rvAtomicExec mc m h insn with
    | iillegal m' => exact rvDoTrap_inArray.mp (by rwa [outcome] at after)
    | trap m' trap => exact rvDoTrap_inArray.mp (by rwa [outcome] at after)
    | lr m' addr val => exact writeXreg_inArray.mp (by rwa [outcome] at after)
    | sc m' addr success => exact writeXreg_inArray.mp (by rwa [outcome] at after)
    | amo m' addr old => exact writeXreg_inArray.mp (by rwa [outcome] at after)
  rw [rvAtomicOp, hostAtomicExec_eq executed, rvAtomicOp]

theorem hostForcefeedInsn_eq (after : (rvForcefeedInsn mc.unhooked m h insn).InArray) :
    rvForcefeedInsn mc m h insn (hostAccessVirt mc) = rvForcefeedInsn mc m h insn := by
  unfold rvForcefeedInsn at after ⊢
  cases form : rvOpMajOf insn with
  | none => rfl
  | some major =>
      rw [form] at after
      cases major <;> first
        | rfl
        | exact hostBaseLoad_eq after
        | exact hostBaseStore_eq after
        | exact hostAtomicOp_eq after

end Insn

/-! ### Steps and runs -/

section Step

variable {mc : EmuConfig δ} {m : EmuMachine δ} {h : Nat}

theorem hostFetchInsn_eq (after : (rvFetchInsn mc m h).machine.InArray) :
    rvFetchInsn mc m h (hostAccessVirt mc) = rvFetchInsn mc m h := by
  have fetched : ∀ (m : EmuMachine δ) (insn : U32) (len : U64),
      (rvFetched m h insn len).machine.InArray → m.InArray :=
    fun m insn len => (inArray_setCpu (by rfl)).mp
  simp only [rvFetchInsn] at after ⊢
  generalize first : rvAccessVirt mc m h (m.cpus h).pc 0 1 .insn = low at after
  split at after
  · next failed =>
      have same := (hostAccessVirt_eq (first ▸ after)).2
      rw [same, first, if_pos failed, if_pos failed]
  next loaded =>
  split at after
  · next short =>
      have between : low.machine.InArray := by
        split at after
        · exact (inArray_setCpu (by rfl)).mp after
        · exact fetched _ _ _ after
      have same := (hostAccessVirt_eq (first ▸ between)).2
      rw [same, first, if_neg loaded, if_neg loaded, if_pos short, if_pos short]
  · next long =>
      have second : (rvAccessVirt mc low.machine h ((low.machine.cpus h).pc + 2) 0 1
          .insn).machine.InArray := by
        split at after
        · exact after
        · exact fetched _ _ _ after
      obtain ⟨between, same'⟩ := hostAccessVirt_eq second
      have same := (hostAccessVirt_eq (first ▸ between)).2
      rw [same, first, if_neg loaded, if_neg loaded, if_neg long, if_neg long, same']

theorem rvFetchInsn_unhooked : rvFetchInsn mc.unhooked m h = rvFetchInsn mc m h := by
  rw [EmuConfig.unhooked, rvAccessVirt_hooked]
  rfl

/-- The fetch of a step stores in the array if all of the step does. -/
theorem fetched_inArray (after : (rvStepInsn mc.unhooked m h).InArray) :
    (rvFetchInsn mc m h).machine.InArray := by
  simp only [rvStepInsn, rvStepInsnBy, rvFetchInsn_unhooked] at after
  cases outcome : rvFetchInsn mc m h with
  | fault m' trap =>
      rw [outcome] at after
      exact rvDoTrap_inArray.mp after
  | illegal m' hw =>
      rw [outcome] at after
      exact rvDoTrap_inArray.mp after
  | word m' insn =>
      rw [outcome] at after
      exact rvForcefeedInsn_inArray (rvCheckInterrupts_inArray.mp after)

/-- So does the word it executes. -/
theorem executed_inArray {fetched : EmuMachine δ} {insn : U32}
    (after : (rvStepInsn mc.unhooked m h).InArray)
    (word : rvFetchInsn mc m h = .word fetched insn) :
    (rvForcefeedInsn mc.unhooked fetched h insn).InArray := by
  simp only [rvStepInsn, rvStepInsnBy, rvFetchInsn_unhooked, word] at after
  exact rvCheckInterrupts_inArray.mp after

theorem hostStepInsn_eq (after : (rvStepInsn mc.unhooked m h).InArray) :
    hostStepInsn mc m h = rvStepInsn mc m h := by
  simp only [hostStepInsn, rvStepInsn, rvStepInsnBy, hostFetchInsn_eq (fetched_inArray after)]
  cases outcome : rvFetchInsn mc m h with
  | fault m' trap => rfl
  | illegal m' hw => rfl
  | word m' insn => simp only [hostForcefeedInsn_eq (executed_inArray after outcome)]

/-- An event whose TLB stores are inside the array comes to the same in the host's memory. -/
theorem hostStep_eq {e : MachineEvent δ} (stores : StoresInArray mc m e) :
    hostStep mc m e = machineStep mc m e := by
  cases e with
  | step h => exact hostStepInsn_eq stores
  | insn h insn => exact hostForcefeedInsn_eq stores
  | trap h trap => rfl
  | interrupts h => rfl
  | devices bus => rfl
  | load ram => rfl

theorem unhooked_eq (hooks : mc.NoHooks) : mc.unhooked = mc := by
  have none : mc.trapHook = fun _ => none := funext hooks
  rw [EmuConfig.unhooked, EmuConfig.hooked, ← none]

/-- What `StoresInArray` says of the step of a hart, for schedules. -/
def StepInArray (mc : EmuConfig δ) (m : EmuMachine δ) (h : Nat) : Prop :=
  StoresInArray mc m (.step h)

theorem hostSchedule_eq {schedule : List Nat}
    (inside : StepsMeet (hostStepInsn mc) (StepInArray mc) m schedule) :
    run (hostStepInsn mc) m schedule = run (rvStepInsn mc) m schedule :=
  run_congr (fun _ _ => hostStepInsn_eq) inside

theorem hostScheduleMeets_iff {schedule : List Nat} {D : EmuMachine δ → Nat → Prop}
    (inside : StepsMeet (hostStepInsn mc) (StepInArray mc) m schedule) :
    StepsMeet (hostStepInsn mc) D m schedule ↔ StepsMeet (rvStepInsn mc) D m schedule :=
  stepsMeet_congr (fun _ _ => hostStepInsn_eq) inside

theorem hostStep_inArray (hooks : mc.NoHooks) {e : MachineEvent δ}
    (stores : StoresInArray mc m e) : (hostStep mc m e).InArray := by
  rw [hostStep_eq stores]
  rwa [StoresInArray, unhooked_eq hooks] at stores

section Runs

variable {events : List (MachineEvent δ)}
  (inside : StepsMeet (hostStep mc) (StoresInArray mc) m events)

include inside

theorem hostRun_eq : run (hostStep mc) m events = run (machineStep mc) m events :=
  run_congr (fun _ _ => hostStep_eq) inside

theorem hostStepsMeet_iff {D : EmuMachine δ → MachineEvent δ → Prop} :
    StepsMeet (hostStep mc) D m events ↔ StepsMeet (machineStep mc) D m events :=
  stepsMeet_congr (fun _ _ => hostStep_eq) inside

theorem hostRun_inArray (hooks : mc.NoHooks) (before : m.InArray) :
    (run (hostStep mc) m events).InArray :=
  invariant_run (fun _ _ _ stores => hostStep_inArray hooks stores) before inside

theorem hostThroughout_iff {P : EmuMachine δ → Prop} :
    Throughout (hostStep mc) P m events ↔ Throughout (machineStep mc) P m events :=
  throughout_congr (fun _ _ => hostStep_eq) inside

end Runs

end Step

/-! ### How far a store reaches -/

section Others

variable {mc : EmuConfig δ} {m m' : EmuMachine δ} {h i : Nat}

theorem rvDoTrap_other (hooks : mc.NoHooks) (other : i ≠ h) (m : EmuMachine δ) (trap : RvTrap) :
    (rvDoTrap mc m h trap).cpus i = m.cpus i := by
  rw [rvDoTrap_noHooks hooks, EmuMachine.setCpu_other _ _ other]

theorem setCpu_tlb_other (other : i ≠ h) (m : EmuMachine δ) (cpu : RvCpu) :
    ((m.setCpu h cpu).cpus i).tlb = (m.cpus i).tlb := by
  rw [EmuMachine.setCpu_other _ _ other]

theorem MicroSteps.tlb_other (other : i ≠ h) (steps : MicroSteps mc h m m') :
    (m'.cpus i).tlb = (m.cpus i).tlb := by
  induction steps with
  | refl => rfl
  | access _ vaddr data sizeExp mode ih =>
      exact ((rvAccessVirt_frame mc _ h vaddr data sizeExp mode).tlb i other).trans ih
  | regs _ _ ih => exact (setCpu_tlb_other other _ _).trans ih
  | pc _ _ _ ih => exact (setCpu_tlb_other other _ _).trans ih
  | fence _ _ ih => exact (setCpu_tlb_other other _ _).trans ih
  | reserve _ _ ih => exact ih
  | round _ _ ih => exact ih

theorem InsnSteps.tlb_other {insn : U32} (hooks : mc.NoHooks) (other : i ≠ h)
    (executed : InsnSteps mc m h insn m') : (m'.cpus i).tlb = (m.cpus i).tlb := by
  cases executed with
  | data steps => exact steps.tlb_other other
  | trap trap steps =>
      rw [rvDoTrap_other hooks other]
      exact steps.tlb_other other
  | csr form read written => exact setCpu_tlb_other other _ _
  | mret machine => exact setCpu_tlb_other other _ _
  | sret legal => exact setCpu_tlb_other other _ _
  | abort level => rfl

/-- A step leaves the TLBs of the other harts alone. -/
theorem rvStepInsn_tlb_other (hooks : mc.NoHooks) (other : i ≠ h) (m : EmuMachine δ) :
    ((rvStepInsn mc m h).cpus i).tlb = (m.cpus i).tlb := by
  have fetched := (rvFetchInsn_steps mc m h).tlb_other other
  unfold rvStepInsn rvStepInsnBy
  revert fetched
  generalize rvFetchInsn mc m h = outcome
  intro fetched
  cases outcome with
  | fault m' trap =>
      rw [rvDoTrap_other hooks other]
      exact fetched
  | illegal m' hw =>
      change ((rvDoTrap mc m' h _).cpus i).tlb = _
      rw [rvDoTrap_other hooks other]
      exact fetched
  | word m' insn =>
      have executed : ((rvForcefeedInsn mc m' h insn).cpus i).tlb = (m'.cpus i).tlb :=
        rvForcefeedInsn_steps.tlb_other hooks other
      simp only [rvCheckInterrupts]
      split
      · exact executed.trans fetched
      · rw [rvDoTrap_other hooks other]
        exact executed.trans fetched

end Others

/-- The slots from here on are past what `next_column`, a byte, can name in the last row. -/
def rvTlbReach : Nat := 496

def RvTlb.Short (tlb : RvTlb) : Prop := ∀ slot, rvTlbReach ≤ slot → tlb.entries slot = ⟨0, 0⟩

section Reach

variable {mc : EmuConfig δ} {m m' : EmuMachine δ} {h : Nat}

theorem RvTlb.Short.of_entries {tlb tlb' : RvTlb} (short : tlb.Short)
    (same : tlb'.entries = tlb.entries) : tlb'.Short := by
  intro slot far
  rw [same]
  exact short slot far

theorem rvTlbInsert_short {tlb : RvTlb} (short : tlb.Short) (vaddr : U64) (entry : RvTlbEntry) :
    (rvTlbInsert tlb (rvTlbRow vaddr) entry).1.Short := by
  have row : rvTlbRow vaddr < 16 := by
    rw [rvTlbRow, BitVec.toNat_umod]
    exact Nat.mod_lt _ (by decide)
  have stored : ∀ index, index < rvTlbReach → ∀ slot, rvTlbReach ≤ slot →
      Function.update tlb.entries index entry slot = ⟨0, 0⟩ := by
    intro index near slot far
    rw [Function.update_of_ne (by omega)]
    exact short slot far
  simp only [rvTlbInsert]
  split
  · next col found =>
      have column := List.mem_range.mp (List.mem_of_find?_eq_some found)
      exact stored _ (by rw [rvTlbColumns] at column ⊢; rw [rvTlbReach]; omega)
  · have column := tlb.nextColumn.isLt
    exact stored _ (by rw [rvTlbColumns, rvTlbReach]; omega)

theorem rvPagingMiss_short (short : (m.cpus h).tlb.Short) (vaddr : U64) (mode : RvAccess) :
    ((rvPagingMiss mc m h vaddr mode).machine.cpus h).tlb.Short := by
  have walked := (rvPagingRawLookup_frame mc m h vaddr mode).tlb h
  have short' : ((rvPagingRawLookup mc m h vaddr mode).machine.cpus h).tlb.Short :=
    walked.symm ▸ short
  simp only [rvPagingMiss]
  split
  · exact short'
  split
  · exact short'
  · simp only [EmuMachine.setTlb, EmuMachine.setCpu_same]
    exact rvTlbInsert_short short' vaddr _

theorem rvPagingLookup_short (short : (m.cpus h).tlb.Short) (vaddr : U64) (mode : RvAccess) :
    ((rvPagingLookup mc m h vaddr mode).machine.cpus h).tlb.Short := by
  simp only [rvPagingLookup]
  split
  · exact short
  · apply rvPagingMiss_short
    rw [EmuMachine.setTlb, EmuMachine.setCpu_same]
    exact short.of_entries rfl
  · exact rvPagingMiss_short short vaddr mode

theorem PhysFrame.short (frame : PhysFrame m m') (short : (m.cpus h).tlb.Short) :
    (m'.cpus h).tlb.Short := (frame.tlb h).symm ▸ short

theorem rvAccessVirt_short (short : (m.cpus h).tlb.Short) (vaddr data : U64) (sizeExp : Fin 4)
    (mode : RvAccess) :
    ((rvAccessVirt mc m h vaddr data sizeExp mode).machine.cpus h).tlb.Short := by
  have first : ((rvPagingLookup mc m h vaddr mode).machine.cpus h).tlb.Short :=
    rvPagingLookup_short short vaddr mode
  simp only [rvAccessVirt, rvAccessVirtBy]
  split
  · exact (rvAccessPhys_frame mc m h vaddr data sizeExp mode false).short short
  split
  · exact short
  split
  · simp only [rvAccessVirtPageboundary]
    have second : ((rvPagingLookup mc (rvPagingLookup mc m h vaddr mode).machine h
        (rvNextPage vaddr) mode).machine.cpus h).tlb.Short :=
      rvPagingLookup_short first (rvNextPage vaddr) mode
    split
    · exact short
    split
    · exact first
    split
    · exact second
    · exact (rvAccessTwoPages_frame mc _ h vaddr data _ mode _ _).short second
  · split
    · exact first
    · exact (rvAccessPhys_frame mc _ h _ data sizeExp mode true).short first

theorem setCpu_short {cpu : RvCpu} (short : (m.cpus h).tlb.Short)
    (same : cpu.tlb.entries = (m.cpus h).tlb.entries) : ((m.setCpu h cpu).cpus h).tlb.Short := by
  rw [EmuMachine.setCpu_same]
  exact short.of_entries same

theorem MicroSteps.short (steps : MicroSteps mc h m m') (short : (m.cpus h).tlb.Short) :
    (m'.cpus h).tlb.Short := by
  induction steps with
  | refl => exact short
  | access _ vaddr data sizeExp mode ih => exact rvAccessVirt_short ih vaddr data sizeExp mode
  | regs _ same ih =>
      rcases same with ⟨_, _, _, rfl⟩
      exact setCpu_short ih rfl
  | pc _ pc epc ih => exact setCpu_short ih rfl
  | fence _ insn ih => exact setCpu_short ih (rvSfenceVma_entries _ insn)
  | reserve _ reservations ih => exact ih
  | round _ mode ih => exact ih

theorem rvDoTrap_short (hooks : mc.NoHooks) (short : (m.cpus h).tlb.Short) (trap : RvTrap) :
    ((rvDoTrap mc m h trap).cpus h).tlb.Short := by
  rw [rvDoTrap_noHooks hooks]
  exact setCpu_short short (by rw [rvTrapEnter_tlb])

theorem InsnSteps.short {insn : U32} (hooks : mc.NoHooks) (executed : InsnSteps mc m h insn m')
    (short : (m.cpus h).tlb.Short) : (m'.cpus h).tlb.Short := by
  cases executed with
  | data steps => exact steps.short short
  | trap trap steps => exact rvDoTrap_short hooks (steps.short short) trap
  | csr form read written =>
      obtain rfl | ⟨reg, wdata, _, stored⟩ := doCsrWrite_cases form read written
      · exact setCpu_short short (by rw [rvXregWrite_tlb])
      · exact setCpu_short short (by rw [rvXregWrite_tlb, rvCsrWriteReg_entries stored])
  | mret machine => exact setCpu_short short rfl
  | sret legal => exact setCpu_short short rfl
  | abort level => exact short

theorem rvStepInsn_short (hooks : mc.NoHooks) (short : (m.cpus h).tlb.Short) :
    ((rvStepInsn mc m h).cpus h).tlb.Short := by
  have fetched := (rvFetchInsn_steps mc m h).short short
  simp only [rvStepInsn, rvStepInsnBy]
  revert fetched
  generalize rvFetchInsn mc m h = outcome
  intro fetched
  cases outcome with
  | fault m' trap => exact rvDoTrap_short hooks fetched trap
  | illegal m' hw => exact rvDoTrap_short hooks fetched _
  | word m' insn =>
      have executed : ((rvForcefeedInsn mc m' h insn).cpus h).tlb.Short :=
        rvForcefeedInsn_steps.short hooks fetched
      simp only [rvCheckInterrupts]
      split
      · exact executed
      · exact rvDoTrap_short hooks executed _

/-- The slots past the array that a store can reach bear no mark after the step. -/
def StepMarksNone (mc : EmuConfig δ) (m : EmuMachine δ) (h : Nat) : Prop :=
  ∀ slot < rvTlbReach, rvTlbSlots ≤ slot →
    ((rvStepInsn mc.unhooked m h).cpus h).tlb.entries slot = ⟨0, 0⟩

instance (mc : EmuConfig δ) (m : EmuMachine δ) (h : Nat) : Decidable (StepMarksNone mc m h) :=
  inferInstanceAs (Decidable (∀ slot < rvTlbReach, rvTlbSlots ≤ slot →
    ((rvStepInsn mc.unhooked m h).cpus h).tlb.entries slot = ⟨0, 0⟩))

theorem stepInArray_of_slots (before : m.InArray) (empty : StepMarksNone mc m h) :
    StepInArray mc m h := by
  have hooks : mc.unhooked.NoHooks := fun _ => rfl
  intro i slot past
  change ((rvStepInsn mc.unhooked m h).cpus i).tlb.entries slot = ⟨0, 0⟩
  by_cases mine : i = h
  · subst mine
    by_cases near : slot < rvTlbReach
    · exact empty slot near past
    · refine rvStepInsn_short hooks (fun slot far => before i slot ?_) slot (Nat.le_of_not_lt near)
      exact Nat.le_trans (by decide) far
  · rw [rvStepInsn_tlb_other hooks mine]
    exact before i slot past

theorem stepsInArray_of_slots (hooks : mc.NoHooks) {schedule : List Nat} (before : m.InArray)
    (empty : StepsMeet (hostStepInsn mc) (StepMarksNone mc) m schedule) :
    StepsMeet (hostStepInsn mc) (StepInArray mc) m schedule := by
  induction schedule generalizing m with
  | nil => trivial
  | cons h schedule ih =>
      have stores := stepInArray_of_slots before empty.1
      exact ⟨stores, ih (hostStep_inArray hooks stores) empty.2⟩

end Reach

/-! ### Translation off -/

section Bare

variable {mc : EmuConfig δ} {m m' : EmuMachine δ} {h : Nat}

/-- The hart that acts, if one does, has translation off. -/
def MachineEvent.Untranslated (m : EmuMachine δ) : MachineEvent δ → Prop
  | .step h | .insn h _ => rvSatpMode (m.cpus h).csr.satp = 0
  | _ => True

instance (m : EmuMachine δ) (e : MachineEvent δ) : Decidable (e.Untranslated m) := by
  cases e <;> unfold MachineEvent.Untranslated <;> infer_instance

theorem MicroSteps.untranslated (steps : MicroSteps mc h m m')
    (bare : rvSatpMode (m.cpus h).csr.satp = 0) : rvSatpMode (m'.cpus h).csr.satp = 0 := by
  rcases (steps.work.dataStep.core h).csr with ⟨fcsr, csr⟩
  rw [csr]
  exact bare

/-- Untranslated accesses store nothing in a TLB. -/
theorem MicroSteps.bare_inArray (steps : MicroSteps mc h m m')
    (bare : rvSatpMode (m.cpus h).csr.satp = 0) (before : m.InArray) : m'.InArray := by
  induction steps with
  | refl => exact before
  | @access m' earlier vaddr data sizeExp mode ih =>
      have off : rvIsBare (m'.cpus h) mode = true := by
        rw [rvIsBare, earlier.untranslated bare, beq_self_eq_true, Bool.or_true]
      rw [rvAccessVirt, rvAccessVirtBy, if_pos off]
      exact (rvAccessPhys_frame mc m' h vaddr data sizeExp mode false).inArray.mpr ih
  | regs _ same ih =>
      rcases same with ⟨_, _, _, rfl⟩
      exact (inArray_setCpu (by rfl)).mpr ih
  | pc _ pc epc ih => exact (inArray_setCpu (by rfl)).mpr ih
  | fence _ insn ih => exact (inArray_setCpu (rvSfenceVma_entries _ insn)).mpr ih
  | reserve _ reservations ih => exact ih
  | round _ mode ih => exact ih

theorem rvForcefeedInsn_bare {insn : U32} (bare : rvSatpMode (m.cpus h).csr.satp = 0)
    (before : m.InArray) : (rvForcefeedInsn mc.unhooked m h insn).InArray := by
  have executed : InsnSteps mc.unhooked m h insn (rvForcefeedInsn mc.unhooked m h insn) :=
    rvForcefeedInsn_steps
  generalize rvForcefeedInsn mc.unhooked m h insn = last at executed
  cases executed with
  | data steps => exact steps.bare_inArray bare before
  | trap trap steps => exact rvDoTrap_inArray.mpr (steps.bare_inArray bare before)
  | csr form read written =>
      obtain rfl | ⟨reg, wdata, _, stored⟩ := doCsrWrite_cases form read written
      · exact (inArray_setCpu (by rw [rvXregWrite_tlb])).mpr before
      · exact (inArray_setCpu (by rw [rvXregWrite_tlb, rvCsrWriteReg_entries stored])).mpr before
  | mret machine => exact (inArray_setCpu (by rfl)).mpr before
  | sret legal => exact (inArray_setCpu (by rfl)).mpr before
  | abort level => exact before

theorem rvStepInsn_bare (bare : rvSatpMode (m.cpus h).csr.satp = 0) (before : m.InArray) :
    (rvStepInsn mc.unhooked m h).InArray := by
  have steps := rvFetchInsn_steps mc.unhooked m h
  have fetched := steps.bare_inArray bare before
  have off := steps.untranslated bare
  simp only [rvStepInsn, rvStepInsnBy]
  cases outcome : rvFetchInsn mc.unhooked m h with
  | fault m' trap =>
      rw [outcome] at fetched
      exact rvDoTrap_inArray.mpr fetched
  | illegal m' hw =>
      rw [outcome] at fetched
      exact rvDoTrap_inArray.mpr fetched
  | word m' insn =>
      rw [outcome] at fetched off
      exact rvCheckInterrupts_inArray.mpr (rvForcefeedInsn_bare off fetched)

theorem storesInArray_bare {e : MachineEvent δ} (bare : e.Untranslated m) (before : m.InArray) :
    StoresInArray mc m e := by
  cases e with
  | step h => exact rvStepInsn_bare bare before
  | insn h insn => exact rvForcefeedInsn_bare bare before
  | trap h trap =>
      show (rvDoTrap mc.unhooked m h trap).InArray
      exact rvDoTrap_inArray.mpr before
  | interrupts h =>
      show (rvCheckInterrupts mc.unhooked m h).InArray
      exact rvCheckInterrupts_inArray.mpr before
  | devices bus => exact before
  | load ram => exact before

/-- With translation off all along, no store leaves an array. -/
theorem storesInArray_run (hooks : mc.NoHooks) {events : List (MachineEvent δ)}
    (before : m.InArray)
    (bare : StepsMeet (hostStep mc) (fun m e => e.Untranslated m) m events) :
    StepsMeet (hostStep mc) (StoresInArray mc) m events := by
  induction events generalizing m with
  | nil => trivial
  | cons e events ih =>
      have stores : StoresInArray mc m e := storesInArray_bare bare.1 before
      exact ⟨stores, ih (hostStep_inArray hooks stores) bare.2⟩

theorem emuMachineInit_inArray (device : δ) : (emuMachineInit device).InArray :=
  fun _ _ _ => rfl

end Bare

end Riscmulator
