import Riscmulator.Device.Plic
import Riscmulator.Lib.Traced

/-! Which array elements the functions of the interrupt controller use. Each
function is run again with its indices recorded, in the order of the source. -/

namespace Riscmulator

/-- An index into an array of `struct rv_plic`, or into the `enable` array of a context. -/
inductive PlicIndex
  | pending (word : Nat)
  | enable (word : Nat)
  | priority (src : Nat)
  | context (ctx : Nat)
  deriving DecidableEq, Repr

/-- The index is within its array. -/
def PlicIndex.InBounds (plic : RvPlic) : PlicIndex → Prop
  | .pending word => word < rvPlicRegWords
  | .enable word => word < rvPlicRegWords
  | .priority src => src < rvPlicNumSources + 1
  | .context ctx => ctx < plic.numContexts

instance (plic : RvPlic) : DecidablePred (PlicIndex.InBounds plic) := fun i => by
  cases i <;> exact inferInstanceAs (Decidable (_ < _))

abbrev PlicTraced := Traced PlicIndex

open Traced

/-! ### The functions with their indices -/

def plicPendingT (plic : RvPlic) (src : Nat) : PlicTraced Bool := do
  touch (.pending (src / 32))
  pure (plicBit plic.pending src)

def plicEnabledT (plic : RvPlic) (ctx src : Nat) : PlicTraced Bool := do
  touch (.enable (src / 32))
  pure (plicBit (plic.contexts ctx).enable src)

def plicPriorityT (plic : RvPlic) (src : Nat) : PlicTraced U32 := do
  touch (.priority src)
  pure (plic.priority src)

/-- The loop over the sources in `plic_update_harts`, which ends at the first
source that interrupts the context. -/
def plicHasIrqT (plic : RvPlic) (ctx : Nat) : List Nat → PlicTraced Bool
  | [] => pure false
  | src :: rest => do
      let pending ← plicPendingT plic src
      let enabled ← plicEnabledT plic ctx src
      if pending && enabled then
        let priority ← plicPriorityT plic src
        if priority > (plic.contexts ctx).threshold then pure true
        else plicHasIrqT plic ctx rest
      else plicHasIrqT plic ctx rest

def plicUpdateContextT (cpuCount : Nat) (plic : RvPlic) (irq : Nat → U64) (ctx : Nat) :
    PlicTraced (Nat → U64) :=
  let hart := ctx / 2
  if hart ≥ cpuCount then pure irq
  else do
    touch (.context ctx)
    let hasIrq ← plicHasIrqT plic ctx plicSources
    if hasIrq then pure (Function.update irq hart (irq hart ||| plicIrqBit ctx))
    else pure (Function.update irq hart (irq hart &&& ~~~plicIrqBit ctx))

def plicUpdateHartsT (cpuCount : Nat) (bus : DeviceBus RvPlic) : PlicTraced (DeviceBus RvPlic) := do
  let irq ← (List.range bus.device.numContexts).foldlM (plicUpdateContextT cpuCount bus.device)
    bus.irqPending
  pure { bus with irqPending := irq }

def plicClaimRoundT (plic : RvPlic) (ctx : Nat) (best : Nat × U32) (src : Nat) :
    PlicTraced (Nat × U32) := do
  let pending ← plicPendingT plic src
  let enabled ← plicEnabledT plic ctx src
  if !(pending && enabled) then pure best
  else
    let priority ← plicPriorityT plic src
    if priority ≤ (plic.contexts ctx).threshold then pure best
    else if priority > best.2 then pure (src, priority)
    else pure best

def plicDoClaimT (cpuCount : Nat) (bus : DeviceBus RvPlic) (ctx : Nat) :
    PlicTraced (Nat × DeviceBus RvPlic) :=
  if !bus.device.hasContext ctx then pure (0, bus)
  else do
    touch (.context ctx)
    let best ← plicSources.foldlM (plicClaimRoundT bus.device ctx) (0, 0)
    if best.1 ≠ 0 then
      touch (.pending (best.1 / 32))
      let bus ← plicUpdateHartsT cpuCount { bus with device := bus.device.clearPending best.1 }
      pure (best.1, bus)
    else pure (0, bus)

def plicReadT (cpuCount : Nat) (bus : DeviceBus RvPlic) (offset : U64) (size : U8) :
    PlicTraced ((Bool × U64) × DeviceBus RvPlic) :=
  let plic := bus.device
  if size ≠ 4 then pure ((false, 0), bus)
  else
    match plicDecode plic offset with
    | .priority src => do
        let priority ← plicPriorityT plic src
        pure ((true, priority.setWidth 64), bus)
    | .pending word => do
        touch (.pending word)
        pure ((true, (plic.pending word).setWidth 64), bus)
    | .enable ctx word => do
        touch (.context ctx)
        touch (.enable word)
        pure ((true, ((plic.contexts ctx).enable word).setWidth 64), bus)
    | .threshold ctx => do
        touch (.context ctx)
        pure ((true, (plic.contexts ctx).threshold.setWidth 64), bus)
    | .claim ctx => do
        let out ← plicDoClaimT cpuCount bus ctx
        pure ((true, BitVec.ofNat 64 out.1), out.2)
    | .none => pure ((true, 0), bus)

def plicWriteT (cpuCount : Nat) (bus : DeviceBus RvPlic) (offset : U64) (size : U8) (value : U64) :
    PlicTraced (Bool × DeviceBus RvPlic) :=
  let plic := bus.device
  let v32 : U32 := value.setWidth 32
  let update (plic : RvPlic) : PlicTraced (Bool × DeviceBus RvPlic) := do
    let bus ← plicUpdateHartsT cpuCount { bus with device := plic }
    pure (true, bus)
  if size ≠ 4 then pure (false, bus)
  else
    match plicDecode plic offset with
    | .priority src => do
        touch (.priority src)
        update { plic with priority := Function.update plic.priority src v32 }
    | .pending _ => pure (true, bus)
    | .enable ctx word => do
        touch (.context ctx)
        touch (.enable word)
        let c := plic.contexts ctx
        update (plic.setContext ctx { c with enable := Function.update c.enable word v32 })
    | .threshold ctx => do
        touch (.context ctx)
        update (plic.setContext ctx { plic.contexts ctx with threshold := v32 })
    | .claim _ => pure (true, bus)
    | .none => pure (true, bus)

def rvPlicSetPendingT (cpuCount : Nat) (bus : DeviceBus RvPlic) (source : U32) :
    PlicTraced (DeviceBus RvPlic) :=
  if source = 0 ∨ source.toNat > rvPlicNumSources then pure bus
  else do
    touch (.pending (source.toNat / 32))
    plicUpdateHartsT cpuCount { bus with device := bus.device.setPending source.toNat }

/-! ### They are the same functions -/

section Values

variable (cpuCount : Nat) (plic : RvPlic) (bus : DeviceBus RvPlic)

theorem plicHasIrqT_value (ctx : Nat) (sources : List Nat) :
    (plicHasIrqT plic ctx sources).value = sources.any (plic.claimable ctx) := by
  induction sources with
  | nil => rfl
  | cons src rest ih =>
      simp only [plicHasIrqT, plicPendingT, plicEnabledT, plicPriorityT, value_bind, value_pure,
        value_ite, ih, List.any_cons, RvPlic.claimable]
      cases both : plicBit plic.pending src && plicBit (plic.contexts ctx).enable src with
      | false => simp
      | true =>
          by_cases above : plic.priority src > (plic.contexts ctx).threshold
          · simp [above]
          · simp [above]

theorem plicUpdateContextT_value (irq : Nat → U64) (ctx : Nat) :
    (plicUpdateContextT cpuCount plic irq ctx).value = plicUpdateContext cpuCount plic irq ctx := by
  simp only [plicUpdateContextT, plicUpdateContext, RvPlic.hasIrq, value_ite, value_bind,
    value_pure, plicHasIrqT_value]
  rfl

theorem plicUpdateHartsT_value :
    (plicUpdateHartsT cpuCount bus).value = plicUpdateHarts cpuCount bus := by
  rw [plicUpdateHartsT, value_bind, value_pure,
    value_foldlM (plicUpdateContextT_value cpuCount bus.device)]
  rfl

theorem plicClaimRoundT_value (ctx : Nat) (best : Nat × U32) (src : Nat) :
    (plicClaimRoundT plic ctx best src).value = plicClaimRound plic ctx best src := by
  simp only [plicClaimRoundT, plicClaimRound, plicPendingT, plicEnabledT, plicPriorityT,
    value_bind, value_pure, value_ite]

theorem plicDoClaimT_value (ctx : Nat) :
    (plicDoClaimT cpuCount bus ctx).value = plicDoClaim cpuCount bus ctx := by
  simp only [plicDoClaimT, plicDoClaim, plicBestSource, value_ite, value_bind, value_pure,
    value_foldlM (plicClaimRoundT_value bus.device ctx), plicUpdateHartsT_value]
  rfl

theorem plicReadT_value (offset : U64) (size : U8) :
    (plicReadT cpuCount bus offset size).value = plicRead cpuCount bus offset size := by
  simp only [plicReadT, plicRead, value_ite, value_pure]
  cases plicDecode bus.device offset <;>
    simp only [plicPriorityT, value_bind, value_pure, plicDoClaimT_value]

theorem plicWriteT_value (offset : U64) (size : U8) (value : U64) :
    (plicWriteT cpuCount bus offset size value).value =
      plicWrite cpuCount bus offset size value := by
  simp only [plicWriteT, plicWrite, value_ite, value_pure]
  cases plicDecode bus.device offset <;>
    simp only [value_bind, value_pure, plicUpdateHartsT_value]

theorem rvPlicSetPendingT_value (source : U32) :
    (rvPlicSetPendingT cpuCount bus source).value = rvPlicSetPending cpuCount bus source := by
  simp only [rvPlicSetPendingT, rvPlicSetPending, value_ite, value_bind, value_pure,
    plicUpdateHartsT_value]

end Values

/-! ### When the indices are within the arrays -/

/-- The loop of `plic_update_harts` ends before the last source for every
context of an existing hart. -/
def PlicStopsEarly (cpuCount : Nat) (plic : RvPlic) : Prop :=
  ∀ ctx < plic.numContexts, ctx / 2 < cpuCount →
    ∃ src, 1 ≤ src ∧ src < rvPlicNumSources ∧ plic.claimable ctx src = true

section Bounds

variable {cpuCount : Nat} {plic : RvPlic}

/-- A prefix of sources within the arrays either ends the loop or leads on to the rest. -/
theorem plicHasIrqT_append (P : PlicIndex → Prop) (ctx : Nat) {low : List Nat}
    (small : ∀ src ∈ low, P (.pending (src / 32)) ∧ P (.enable (src / 32)) ∧ P (.priority src))
    (rest : List Nat) :
    (plicHasIrqT plic ctx (low ++ rest)).All P ↔
      low.any (plic.claimable ctx) = true ∨ (plicHasIrqT plic ctx rest).All P := by
  induction low with
  | nil => simp
  | cons src low ih =>
      obtain ⟨pending, enable, priority⟩ := small src List.mem_cons_self
      have later := ih fun src member => small src (List.mem_cons_of_mem _ member)
      rw [List.cons_append, plicHasIrqT, List.any_cons]
      simp only [plicPendingT, plicEnabledT, plicPriorityT, all_bind, all_touch, all_pure,
        value_bind, value_pure, pending, enable, true_and, RvPlic.claimable]
      cases both : plicBit plic.pending src && plicBit (plic.contexts ctx).enable src with
      | false => simpa using later
      | true =>
          by_cases above : plic.priority src > (plic.contexts ctx).threshold
          · simp [above, priority]
          · simpa [above, priority] using later

theorem plicSources_eq :
    plicSources = List.range' 1 (rvPlicNumSources - 1) ++ [rvPlicNumSources] := rfl

/-- The last source has no bit in the bitmaps. -/
theorem lastSource_outOfBounds (plic : RvPlic) :
    ¬(PlicIndex.pending (rvPlicNumSources / 32)).InBounds plic := by
  simp only [PlicIndex.InBounds]
  decide

theorem source_inBounds {src : Nat} (low : src < rvPlicNumSources) :
    src / 32 < rvPlicRegWords := by
  simp only [rvPlicNumSources, rvPlicRegWords] at *
  omega

theorem plicHasIrqT_inBounds (ctx : Nat) :
    (plicHasIrqT plic ctx plicSources).All (PlicIndex.InBounds plic) ↔
      ∃ src, 1 ≤ src ∧ src < rvPlicNumSources ∧ plic.claimable ctx src = true := by
  rw [plicSources_eq, plicHasIrqT_append]
  · constructor
    · rintro (early | late)
      · rcases List.any_eq_true.mp early with ⟨src, member, claimable⟩
        rw [List.mem_range'_1] at member
        exact ⟨src, member.1, by simp only [rvPlicNumSources] at *; omega, claimable⟩
      · simp only [plicHasIrqT, plicPendingT, all_bind, all_touch] at late
        exact absurd late.1.1 (lastSource_outOfBounds plic)
    · rintro ⟨src, pos, low, claimable⟩
      left
      rw [List.any_eq_true]
      refine ⟨src, List.mem_range'_1.mpr ⟨pos, ?_⟩, claimable⟩
      simp only [rvPlicNumSources] at *
      omega
  · intro src member
    rw [List.mem_range'_1] at member
    have low : src < rvPlicNumSources := by
      simp only [rvPlicNumSources] at *
      omega
    exact ⟨source_inBounds low, source_inBounds low, Nat.lt_succ_of_lt low⟩

theorem plicUpdateHartsT_inBounds (bus : DeviceBus RvPlic) :
    (plicUpdateHartsT cpuCount bus).All (PlicIndex.InBounds bus.device) ↔
      PlicStopsEarly cpuCount bus.device := by
  have each : ∀ irq ctx, (plicUpdateContextT cpuCount bus.device irq ctx).All
      (PlicIndex.InBounds bus.device) ↔ (ctx / 2 < cpuCount → ctx < bus.device.numContexts ∧
        ∃ src, 1 ≤ src ∧ src < rvPlicNumSources ∧ bus.device.claimable ctx src = true) := by
    intro irq ctx
    simp only [plicUpdateContextT]
    split
    · next absent => simp [Nat.not_lt.mpr absent]
    · next present =>
        rw [all_bind, all_touch, all_bind, plicHasIrqT_inBounds]
        have written : ∀ (c : Prop) [Decidable c] (x y : Nat → U64),
            (if c then pure x else pure y : PlicTraced (Nat → U64)).All
              (PlicIndex.InBounds bus.device) := by
          intro c _ x y
          split <;> exact all_pure _
        simp only [written, and_true, Nat.not_le.mp present, forall_const]
        exact Iff.rfl
  simp only [plicUpdateHartsT, all_bind, all_pure, and_true]
  rw [all_foldlM each]
  simp only [List.mem_range]
  constructor
  · intro all ctx known hart
    exact (all ctx known hart).2
  · intro all ctx known hart
    exact ⟨known, all ctx known hart⟩

/-- A search for the source to claim always comes to the last source. -/
theorem plicDoClaimT_outOfBounds {bus : DeviceBus RvPlic} {ctx : Nat}
    (known : bus.device.hasContext ctx = true) :
    ¬(plicDoClaimT cpuCount bus ctx).All (PlicIndex.InBounds bus.device) := by
  intro all
  simp only [plicDoClaimT, known, Bool.not_true, Bool.false_eq_true, if_false, all_bind] at all
  apply lastSource_outOfBounds bus.device
  refine of_all_foldlM (Q := fun src => (PlicIndex.pending (src / 32)).InBounds bus.device) ?_
    all.2.1 rvPlicNumSources (by decide)
  intro best src round
  simp only [plicClaimRoundT, plicPendingT, all_bind, all_touch] at round
  exact round.1.1

end Bounds

/-! ### One operation -/

/-- A 4-byte access to a register, or a device raising a source. -/
inductive PlicOp
  | read (offset : U64)
  | write (offset value : U64)
  | setPending (source : U32)

/-- Every index the operation uses is within its array. -/
def PlicOp.InBounds (cpuCount : Nat) (bus : DeviceBus RvPlic) : PlicOp → Prop
  | .read offset => (plicReadT cpuCount bus offset 4).All (PlicIndex.InBounds bus.device)
  | .write offset value =>
      (plicWriteT cpuCount bus offset 4 value).All (PlicIndex.InBounds bus.device)
  | .setPending source =>
      (rvPlicSetPendingT cpuCount bus source).All (PlicIndex.InBounds bus.device)

/-- The operation is no read of a claim register and does not raise the last
source; and where it changes the controller, the changed controller interrupts
each context of an existing hart by a source before the last. -/
def PlicOp.SparesLast (cpuCount : Nat) (plic : RvPlic) : PlicOp → Prop
  | .read offset => ∀ ctx, plicDecode plic offset ≠ .claim ctx
  | .write offset value =>
      match plicDecode plic offset with
      | .priority src => PlicStopsEarly cpuCount
          { plic with priority := Function.update plic.priority src (value.setWidth 32) }
      | .enable ctx word => PlicStopsEarly cpuCount (plic.setContext ctx
          { plic.contexts ctx with
            enable := Function.update (plic.contexts ctx).enable word (value.setWidth 32) })
      | .threshold ctx => PlicStopsEarly cpuCount
          (plic.setContext ctx { plic.contexts ctx with threshold := value.setWidth 32 })
      | _ => True
  | .setPending source =>
      1 ≤ source.toNat → source.toNat ≤ rvPlicNumSources →
        source.toNat ≠ rvPlicNumSources ∧
          PlicStopsEarly cpuCount (plic.setPending source.toNat)

/-- The arrays that a selected register lies in hold it. -/
def PlicReg.InBounds (plic : RvPlic) : PlicReg → Prop
  | .priority src => (PlicIndex.priority src).InBounds plic
  | .pending word => (PlicIndex.pending word).InBounds plic
  | .enable ctx word =>
      (PlicIndex.context ctx).InBounds plic ∧ (PlicIndex.enable word).InBounds plic
  | .threshold ctx => (PlicIndex.context ctx).InBounds plic
  | .claim ctx => plic.hasContext ctx = true
  | .none => True

theorem RvPlic.hasContext_inBounds {plic : RvPlic} {ctx : Nat} (known : plic.hasContext ctx = true) :
    (PlicIndex.context ctx).InBounds plic :=
  lt_of_lt_of_le (of_decide_eq_true known) (Nat.mod_le _ _)

theorem plicDecode_inBounds (plic : RvPlic) (offset : U64) :
    (plicDecode plic offset).InBounds plic := by
  simp only [plicDecode]
  split
  · split
    · next source => exact Nat.lt_succ_of_le source.2
    · trivial
  split
  · split
    · next word => exact word
    · trivial
  split
  · split
    · next both => exact ⟨RvPlic.hasContext_inBounds both.1, both.2⟩
    · trivial
  generalize (offset.toNat - plicCtxBase) / plicCtxStride % 2 ^ 32 = ctx
  generalize (offset.toNat - plicCtxBase) % plicCtxStride = reg
  cases known : plic.hasContext ctx with
  | false =>
      rw [Bool.not_false, if_pos rfl]
      exact True.intro
  | true =>
      rw [Bool.not_true, if_neg Bool.false_ne_true]
      split
      · exact RvPlic.hasContext_inBounds known
      split
      · exact known
      · exact True.intro

section Operation

variable {cpuCount : Nat} {bus : DeviceBus RvPlic}

/-- Updating the lines from a controller with as many contexts. -/
theorem plicUpdateHartsT_changed (plic : RvPlic)
    (same : plic.numContexts = bus.device.numContexts) :
    (plicUpdateHartsT cpuCount { bus with device := plic }).All (PlicIndex.InBounds bus.device) ↔
      PlicStopsEarly cpuCount plic := by
  have bounds : PlicIndex.InBounds plic = PlicIndex.InBounds bus.device := by
    funext i
    cases i <;> simp only [PlicIndex.InBounds, same]
  rw [← bounds]
  exact plicUpdateHartsT_inBounds { bus with device := plic }

theorem plicRead_inBounds_iff (offset : U64) :
    PlicOp.InBounds cpuCount bus (.read offset) ↔
      PlicOp.SparesLast cpuCount bus.device (.read offset) := by
  have selected := plicDecode_inBounds bus.device offset
  simp only [PlicOp.InBounds, PlicOp.SparesLast, plicReadT, ne_eq, not_true, if_false]
  cases decoded : plicDecode bus.device offset with
  | claim ctx =>
      rw [decoded] at selected
      simp only [all_bind]
      refine iff_of_false (fun all => plicDoClaimT_outOfBounds selected all.1) fun other => ?_
      exact other ctx rfl
  | _ =>
      rw [decoded] at selected
      simp only [PlicReg.InBounds] at selected
      simp [plicPriorityT, selected]

theorem plicWrite_inBounds_iff (offset value : U64) :
    PlicOp.InBounds cpuCount bus (.write offset value) ↔
      PlicOp.SparesLast cpuCount bus.device (.write offset value) := by
  have selected := plicDecode_inBounds bus.device offset
  simp only [PlicOp.InBounds, PlicOp.SparesLast, plicWriteT, ne_eq, not_true, if_false]
  cases decoded : plicDecode bus.device offset with
  | priority src =>
      rw [decoded] at selected
      simp only [all_bind, all_touch, all_pure, and_true]
      rw [and_iff_right (show (PlicIndex.priority src).InBounds bus.device from selected)]
      exact plicUpdateHartsT_changed _ rfl
  | enable ctx word =>
      rw [decoded] at selected
      simp only [all_bind, all_touch, all_pure, and_true]
      rw [and_iff_right selected.1, and_iff_right selected.2]
      exact plicUpdateHartsT_changed _ rfl
  | threshold ctx =>
      rw [decoded] at selected
      simp only [all_bind, all_touch, all_pure, and_true]
      rw [and_iff_right (show (PlicIndex.context ctx).InBounds bus.device from selected)]
      exact plicUpdateHartsT_changed _ rfl
  | _ => simp

theorem rvPlicSetPending_inBounds_iff (source : U32) :
    PlicOp.InBounds cpuCount bus (.setPending source) ↔
      PlicOp.SparesLast cpuCount bus.device (.setPending source) := by
  simp only [PlicOp.InBounds, PlicOp.SparesLast, rvPlicSetPendingT]
  split
  · next refused =>
      refine iff_of_true (all_pure _) fun pos small => ?_
      rcases refused with zero | large
      · rw [zero] at pos
        cases pos
      · omega
  · next accepted =>
      rw [not_or] at accepted
      have pos : 1 ≤ source.toNat := by
        by_contra zero
        exact accepted.1 (BitVec.eq_of_toNat_eq (by simpa using zero))
      rw [all_bind, all_touch, plicUpdateHartsT_changed (bus.device.setPending source.toNat) rfl]
      constructor
      · rintro ⟨word, early⟩ _ _
        refine ⟨?_, early⟩
        intro last
        rw [last] at word
        exact lastSource_outOfBounds bus.device word
      · intro spares
        obtain ⟨notLast, early⟩ := spares pos (Nat.not_lt.mp accepted.2)
        exact ⟨source_inBounds (by omega), early⟩

end Operation

/-- A 4-byte access at any offset, and a device raising any source, use only
indices within the arrays exactly when they leave the last source alone. -/
theorem plicOp_inBounds_iff (cpuCount : Nat) (bus : DeviceBus RvPlic) (op : PlicOp) :
    op.InBounds cpuCount bus ↔ op.SparesLast cpuCount bus.device := by
  cases op with
  | read offset => exact plicRead_inBounds_iff offset
  | write offset value => exact plicWrite_inBounds_iff offset value
  | setPending source => exact rvPlicSetPending_inBounds_iff source

/-- Raising source 64 stores into a third word of the pending bits. -/
theorem plicOp_lastSource : ¬(PlicOp.setPending 64).InBounds 1
    { device := rvPlicInit 1, irqPending := fun _ => 0, clintTimerArmed := fun _ => false } := by
  intro all
  have word := all (.pending 2) (by decide)
  exact absurd word (by decide)

end Riscmulator
