import Riscmulator.Device.Plic
import Riscmulator.Lib.BitField
import Riscmulator.Lib.Transition

/-! Claims of the interrupt controller over runs of its operations: each claim
takes the best claimable source, and no pending source is lost or taken twice. -/

namespace Riscmulator

open Transition

/-! ### Source bitmaps -/

/-- A source past the last word of a bitmap is never set in it. -/
theorem plicBit_pastEnd (words : Nat → U32) (src : Nat) (past : rvPlicRegWords ≤ src / 32) :
    plicBit words src = false := by
  simp [plicBit, plicWord, Nat.not_lt.mpr past]

theorem plicBit_setWord (words : Nat → U32) (word : Nat) (value : U32) (src : Nat) :
    plicBit (plicSetWord words word value) src =
      if src / 32 = word ∧ word < rvPlicRegWords then value.getLsbD (src % 32)
      else plicBit words src := by
  unfold plicSetWord
  by_cases inside : word < rvPlicRegWords
  · by_cases same : src / 32 = word
    · subst same
      simp [plicBit, plicWord, inside]
    · simp [plicBit, plicWord, inside, same]
  · simp [inside]

/-- Sources in one word differ in their bit. -/
private theorem source_ext {s src : Nat} (word : s / 32 = src / 32) :
    s % 32 = src % 32 ↔ s = src := by
  omega

theorem plicBit_clearPending (plic : RvPlic) (src s : Nat) :
    plicBit (plic.clearPending src).pending s = (plicBit plic.pending s && !decide (s = src)) := by
  simp only [RvPlic.clearPending]
  rw [plicBit_setWord]
  by_cases same : s / 32 = src / 32
  · by_cases inside : src / 32 < rvPlicRegWords
    · rw [if_pos ⟨same, inside⟩, BitField.getLsbD_clearBit]
      simp only [plicBit, same, source_ext same]
    · have past : plicBit plic.pending s = false := plicBit_pastEnd _ _ (by omega)
      simp [inside, past]
  · have other : s ≠ src := fun h => same (by rw [h])
    simp [same, other]

theorem plicBit_setPending (plic : RvPlic) (src s : Nat) (inside : src / 32 < rvPlicRegWords) :
    plicBit (plic.setPending src).pending s = (plicBit plic.pending s || decide (s = src)) := by
  simp only [RvPlic.setPending]
  rw [plicBit_setWord]
  by_cases same : s / 32 = src / 32
  · have short : s % 32 < 32 := Nat.mod_lt _ (by decide)
    rw [if_pos ⟨same, inside⟩, BitField.getLsbD_setBit]
    simp only [plicBit, same, source_ext same, short, decide_true, Bool.and_true]
  · have other : s ≠ src := fun h => same (by rw [h])
    simp [same, other]

/-- A source past the end cannot be made pending. -/
theorem plicBit_setPending_pastEnd (plic : RvPlic) (src s : Nat)
    (past : rvPlicRegWords ≤ src / 32) :
    plicBit (plic.setPending src).pending s = plicBit plic.pending s := by
  simp only [RvPlic.setPending]
  rw [plicBit_setWord, if_neg (by omega)]

theorem claimable_inside {plic : RvPlic} {ctx src : Nat} (h : plic.claimable ctx src = true) :
    src / 32 < rvPlicRegWords := by
  by_contra past
  rw [RvPlic.claimable, plicBit_pastEnd _ _ (Nat.not_lt.mp past)] at h
  simp at h

/-! ### The search of a claim -/

/-- The best claimable source among those up to `n`, with its priority. -/
def BestUpTo (plic : RvPlic) (ctx n : Nat) (best : Nat × U32) : Prop :=
  (best = (0, 0) ∧ ∀ s, 1 ≤ s → s ≤ n → plic.claimable ctx s = false) ∨
  (1 ≤ best.1 ∧ best.1 ≤ n ∧ plic.claimable ctx best.1 = true ∧
    best.2 = plic.priority best.1 ∧
    ∀ s, 1 ≤ s → s ≤ n → plic.claimable ctx s = true →
      plic.priority s ≤ best.2 ∧ (plic.priority s = best.2 → best.1 ≤ s))

/-- The round of the search in terms of claimable sources. -/
theorem plicClaimRound_eq (plic : RvPlic) (ctx : Nat) (best : Nat × U32) (src : Nat) :
    plicClaimRound plic ctx best src =
      if plic.claimable ctx src ∧ best.2 < plic.priority src then (src, plic.priority src)
      else best := by
  unfold plicClaimRound RvPlic.claimable
  by_cases lines : (plicBit plic.pending src && plicBit (plic.contexts ctx).enable src) = true
  · by_cases above : plic.priority src > (plic.contexts ctx).threshold
    · simp [lines, above]
    · simp [lines, above, BitVec.not_lt.mp above]
  · simp [lines]

theorem bestUpTo_round {plic : RvPlic} {ctx n : Nat} {best : Nat × U32}
    (h : BestUpTo plic ctx n best) :
    BestUpTo plic ctx (n + 1) (plicClaimRound plic ctx best (n + 1)) := by
  rw [plicClaimRound_eq]
  have split_last : ∀ s, s ≤ n + 1 → s ≤ n ∨ s = n + 1 := fun s _ => by omega
  rcases h with ⟨rfl, empty⟩ | ⟨positive, inside, takes, priority, greatest⟩
  · by_cases last : plic.claimable ctx (n + 1) = true
    · have above : (0 : U32) < plic.priority (n + 1) := by
        simp only [RvPlic.claimable, Bool.and_eq_true, decide_eq_true_eq] at last
        bv_omega
      rw [if_pos ⟨last, above⟩]
      refine Or.inr ⟨by simp, by simp, last, rfl, ?_⟩
      intro s low high takes
      rcases split_last s high with inside | rfl
      · rw [empty s low inside] at takes
        cases takes
      · exact ⟨BitVec.le_refl _, fun _ => Nat.le_refl _⟩
    · rw [if_neg (fun both => last both.1)]
      refine Or.inl ⟨rfl, ?_⟩
      intro s low high
      rcases split_last s high with inside | rfl
      · exact empty s low inside
      · exact Bool.eq_false_iff.mpr last
  · by_cases better : plic.claimable ctx (n + 1) = true ∧ best.2 < plic.priority (n + 1)
    · rw [if_pos better]
      refine Or.inr ⟨by simp, by simp, better.1, rfl, ?_⟩
      intro s low high takes'
      rcases split_last s high with inside' | rfl
      · have below := (greatest s low inside' takes').1
        exact ⟨by bv_omega, fun same => by bv_omega⟩
      · exact ⟨BitVec.le_refl _, fun _ => Nat.le_refl _⟩
    · rw [if_neg better]
      refine Or.inr ⟨positive, by omega, takes, priority, ?_⟩
      intro s low high takes'
      rcases split_last s high with inside' | rfl
      · exact greatest s low inside' takes'
      · exact ⟨BitVec.not_lt.mp fun above => better ⟨takes', above⟩, fun _ => by omega⟩

theorem plicClaimRounds_best (plic : RvPlic) (ctx n : Nat) :
    BestUpTo plic ctx n ((List.range' 1 n).foldl (plicClaimRound plic ctx) (0, 0)) := by
  induction n with
  | zero => exact Or.inl ⟨rfl, fun s low high => by omega⟩
  | succ n ih =>
      rw [List.range'_concat, List.foldl_append, Nat.one_mul, Nat.add_comm 1 n]
      exact bestUpTo_round ih

/-! ### One claim -/

/-- What a claim owes its context: `src` is 0 when nothing is claimable, else
the claimable source of greatest priority, the lowest of those, and only its
pending bit is cleared. -/
structure ClaimMeets (before : RvPlic) (ctx src : Nat) (after : RvPlic) : Prop where
  none_iff : src = 0 ↔ ∀ s, 1 ≤ s → s ≤ 63 → before.claimable ctx s = false
  claimable : src ≠ 0 → 1 ≤ src ∧ src ≤ 63 ∧ before.claimable ctx src = true
  greatest : ∀ s, 1 ≤ s → s ≤ 63 → before.claimable ctx s = true →
    before.priority s ≤ before.priority src
  lowest : ∀ s, 1 ≤ s → s ≤ 63 → before.claimable ctx s = true →
    before.priority s = before.priority src → src ≤ s
  clears : ∀ s, 1 ≤ s → plicBit after.pending s = (plicBit before.pending s && !decide (s = src))
  keeps : after = { before with pending := after.pending }

theorem plicBestSource_cases (plic : RvPlic) (ctx : Nat) :
    BestUpTo plic ctx rvPlicNumSources
      (plicSources.foldl (plicClaimRound plic ctx) (0, 0)) :=
  plicClaimRounds_best plic ctx rvPlicNumSources

theorem claimMeets_bestSource (plic : RvPlic) (ctx : Nat) :
    ClaimMeets plic ctx (plicBestSource plic ctx)
      (if plicBestSource plic ctx ≠ 0 then plic.clearPending (plicBestSource plic ctx) else plic) := by
  have best := plicBestSource_cases plic ctx
  unfold plicBestSource
  generalize plicSources.foldl (plicClaimRound plic ctx) (0, 0) = found at best
  rcases best with ⟨rfl, empty⟩ | ⟨positive, inside, takes, priority, greatest⟩
  · have none_claimable : ∀ s, 1 ≤ s → s ≤ 63 → plic.claimable ctx s = false := by
      intro s low high
      exact empty s low (by simp only [rvPlicNumSources]; omega)
    refine ⟨by simpa using none_claimable, by simp, ?_, ?_, ?_, by simp⟩
    · intro s low high takes
      rw [none_claimable s low high] at takes
      cases takes
    · intro s low high takes
      rw [none_claimable s low high] at takes
      cases takes
    · intro s low
      have other : s ≠ 0 := by omega
      simp [other]
  · have nonzero : found.1 ≠ 0 := by omega
    have word := claimable_inside takes
    simp only [rvPlicRegWords, rvPlicNumSources] at word
    have among : ∀ s, 1 ≤ s → s ≤ 63 → plic.claimable ctx s = true →
        plic.priority s ≤ plic.priority found.1 ∧
          (plic.priority s = plic.priority found.1 → found.1 ≤ s) := by
      intro s low high takes'
      rw [← priority]
      exact greatest s low (by simp only [rvPlicNumSources]; omega) takes'
    refine ⟨?_, fun _ => ⟨positive, by omega, takes⟩, fun s low high takes' =>
      (among s low high takes').1, fun s low high takes' => (among s low high takes').2, ?_, ?_⟩
    · constructor
      · intro zero
        exact absurd zero nonzero
      · intro empty
        rw [empty found.1 positive (by omega)] at takes
        cases takes
    · intro s _
      rw [if_pos nonzero]
      exact plicBit_clearPending plic found.1 s
    · rw [if_pos nonzero]
      rfl

/-! ### Operations -/

@[simp] theorem plicUpdateHarts_device (cpuCount : Nat) (bus : DeviceBus RvPlic) :
    (plicUpdateHarts cpuCount bus).device = bus.device := rfl

inductive PlicEvent
  | setPending (source : U32)
  | write (offset : U64) (size : U8) (value : U64)
  | read (offset : U64) (size : U8)

def plicStep (cpuCount : Nat) (bus : DeviceBus RvPlic) : PlicEvent → DeviceBus RvPlic
  | .setPending source => rvPlicSetPending cpuCount bus source
  | .write offset size value => (plicWrite cpuCount bus offset size value).2
  | .read offset size => (plicRead cpuCount bus offset size).2

/-- The operations in the host's memory. Source 64 has its bits past the arrays, where other
data lies: what asserting it does is left open. -/
def hostPlicStep (past : DeviceBus RvPlic → DeviceBus RvPlic) (cpuCount : Nat)
    (bus : DeviceBus RvPlic) (e : PlicEvent) : DeviceBus RvPlic :=
  match e with
  | .setPending source => if source = 64 then past bus else plicStep cpuCount bus e
  | _ => plicStep cpuCount bus e

def plicReturns (cpuCount : Nat) (bus : DeviceBus RvPlic) : PlicEvent → U64
  | .read offset size => (plicRead cpuCount bus offset size).1.2
  | _ => 0

def PlicEvent.IsClaim (plic : RvPlic) (ctx : Nat) : PlicEvent → Prop
  | .read offset size => size = 4 ∧ plicDecode plic offset = .claim ctx
  | _ => False

/-- The offset of the claim register of a context. -/
def plicClaimOffset (ctx : Nat) : Nat := plicCtxBase + ctx * plicCtxStride + plicCtxOffClaim

theorem plicDecode_claimOffset {plic : RvPlic} {ctx : Nat} (context : plic.hasContext ctx = true) :
    plicDecode plic (BitVec.ofNat 64 (plicClaimOffset ctx)) = .claim ctx := by
  have few : ctx < plic.numContexts % 2 ^ 32 := of_decide_eq_true context
  have short : ctx < 2 ^ 32 := lt_trans few (Nat.mod_lt _ (by decide))
  have offset : (BitVec.ofNat 64 (plicClaimOffset ctx)).toNat = 0x200004 + ctx * 0x1000 := by
    rw [BitVec.toNat_ofNat, plicClaimOffset, plicCtxBase, plicCtxStride, plicCtxOffClaim]
    omega
  have rel : 0x200004 + ctx * 0x1000 - plicCtxBase = 4 + ctx * 0x1000 := by
    rw [plicCtxBase]
    omega
  have index : (4 + ctx * 0x1000) / plicCtxStride % 2 ^ 32 = ctx := by
    rw [plicCtxStride]
    omega
  have reg : (4 + ctx * 0x1000) % plicCtxStride = plicCtxOffClaim := by
    rw [plicCtxStride, plicCtxOffClaim]
    omega
  simp only [plicDecode, offset, rel, index, reg, context]
  rw [if_neg (by rw [plicPendingBase]; omega), if_neg (by rw [plicEnableBase]; omega),
    if_neg (by rw [plicCtxBase]; omega)]
  rfl

/-- A word read there claims for the context. -/
theorem isClaim_claimOffset {plic : RvPlic} {ctx : Nat} (context : plic.hasContext ctx = true) :
    (PlicEvent.read (BitVec.ofNat 64 (plicClaimOffset ctx)) 4).IsClaim plic ctx :=
  ⟨rfl, plicDecode_claimOffset context⟩

/-- The operation is a claim read that returns `src`. -/
def PlicEvent.Takes (cpuCount src : Nat) (bus : DeviceBus RvPlic) (e : PlicEvent) : Prop :=
  (∃ ctx, e.IsClaim bus.device ctx) ∧ (plicReturns cpuCount bus e).toNat = src

def PlicEvent.Raises (src : Nat) : PlicEvent → Prop
  | .setPending source => source.toNat = src
  | _ => False

/-- The source asserted, if one is, has its bits in the arrays. -/
def PlicEvent.Listed : PlicEvent → Prop
  | .setPending source => source ≠ 64
  | _ => True

instance (e : PlicEvent) : Decidable e.Listed := by
  cases e <;> unfold PlicEvent.Listed <;> infer_instance

theorem hostPlicStep_eq {past : DeviceBus RvPlic → DeviceBus RvPlic} (cpuCount : Nat)
    (bus : DeviceBus RvPlic) {e : PlicEvent} (listed : e.Listed) :
    hostPlicStep past cpuCount bus e = plicStep cpuCount bus e := by
  cases e with
  | setPending source => exact if_neg listed
  | write offset size value => rfl
  | read offset size => rfl

theorem plicDecode_claim_hasContext {plic : RvPlic} {offset : U64} {ctx : Nat}
    (decoded : plicDecode plic offset = .claim ctx) : plic.hasContext ctx = true := by
  unfold plicDecode at decoded
  simp only at decoded
  split_ifs at decoded with _ _ _ _ _ _ outside
  rw [PlicReg.claim.injEq] at decoded
  rw [← decoded]
  simpa using outside

theorem plicBestSource_lt (plic : RvPlic) (ctx : Nat) : plicBestSource plic ctx < 64 := by
  by_cases zero : plicBestSource plic ctx = 0
  · omega
  · have inside := (claimMeets_bestSource plic ctx).claimable zero
    omega

theorem plicDoClaim_eq {bus : DeviceBus RvPlic} {ctx : Nat}
    (context : bus.device.hasContext ctx = true) (cpuCount : Nat) :
    (plicDoClaim cpuCount bus ctx).1 = plicBestSource bus.device ctx ∧
    (plicDoClaim cpuCount bus ctx).2.device =
      if plicBestSource bus.device ctx ≠ 0 then
        bus.device.clearPending (plicBestSource bus.device ctx)
      else bus.device := by
  simp only [plicDoClaim, context, Bool.not_true]
  by_cases zero : plicBestSource bus.device ctx = 0
  · simp [zero]
  · simp [zero]

/-- A claim read returns and clears what a claim owes. -/
theorem claimMeets_read {bus : DeviceBus RvPlic} {ctx : Nat} {e : PlicEvent} (cpuCount : Nat)
    (claim : e.IsClaim bus.device ctx) :
    ClaimMeets bus.device ctx (plicReturns cpuCount bus e).toNat
      (plicStep cpuCount bus e).device := by
  cases e with
  | setPending source => cases claim
  | write offset size value => cases claim
  | read offset size =>
      rcases claim with ⟨rfl, decoded⟩
      rcases plicDoClaim_eq (plicDecode_claim_hasContext decoded) cpuCount with ⟨source, device⟩
      have small := plicBestSource_lt bus.device ctx
      have returned : (plicReturns cpuCount bus (.read offset 4)).toNat =
          plicBestSource bus.device ctx := by
        simp only [plicReturns, plicRead, decoded, source]
        rw [if_neg (fun h => h rfl), BitVec.toNat_ofNat, Nat.mod_eq_of_lt (by omega)]
      have stepped : (plicStep cpuCount bus (.read offset 4)).device =
          if plicBestSource bus.device ctx ≠ 0 then
            bus.device.clearPending (plicBestSource bus.device ctx)
          else bus.device := by
        rw [← device]
        simp [plicStep, plicRead, decoded]
      rw [returned, stepped]
      exact claimMeets_bestSource bus.device ctx

theorem plicRead_unclaimed {bus : DeviceBus RvPlic} {offset : U64} {size : U8} (cpuCount : Nat)
    (unclaimed : ∀ ctx, ¬(PlicEvent.read offset size).IsClaim bus.device ctx) :
    plicStep cpuCount bus (.read offset size) = bus := by
  simp only [plicStep, plicRead]
  by_cases word : size ≠ 4
  · rw [if_pos word]
  · rw [if_neg word]
    cases decoded : plicDecode bus.device offset with
    | claim ctx => exact absurd ⟨not_not.mp word, decoded⟩ (unclaimed ctx)
    | _ => rfl

theorem plicWrite_pending (cpuCount : Nat) (bus : DeviceBus RvPlic) (offset : U64) (size : U8)
    (value : U64) :
    (plicWrite cpuCount bus offset size value).2.device.pending = bus.device.pending := by
  simp only [plicWrite]
  by_cases word : size ≠ 4
  · rw [if_pos word]
  · rw [if_neg word]
    cases plicDecode bus.device offset <;> rfl

/-! ### Pending bits over one operation -/

/-- Only a claim that returns a source clears its pending bit. -/
theorem pending_kept {cpuCount src : Nat} {bus : DeviceBus RvPlic} {e : PlicEvent} (low : 1 ≤ src)
    (up : plicBit bus.device.pending src = true) (notTaken : ¬e.Takes cpuCount src bus) :
    plicBit (plicStep cpuCount bus e).device.pending src = true := by
  cases e with
  | setPending source =>
      simp only [plicStep, rvPlicSetPending]
      split
      · exact up
      · rw [plicUpdateHarts_device]
        by_cases inside : source.toNat / 32 < rvPlicRegWords
        · rw [plicBit_setPending _ _ _ inside, up, Bool.true_or]
        · rw [plicBit_setPending_pastEnd _ _ _ (Nat.not_lt.mp inside), up]
  | write offset size value =>
      simp only [plicStep]
      rw [plicWrite_pending, up]
  | read offset size =>
      by_cases claim : ∃ ctx, (PlicEvent.read offset size).IsClaim bus.device ctx
      · rcases claim with ⟨ctx, claims⟩
        rw [(claimMeets_read cpuCount claims).clears src low, up, Bool.true_and]
        simp only [Bool.not_eq_true', decide_eq_false_iff_not]
        intro same
        exact notTaken ⟨⟨ctx, claims⟩, same.symm⟩
      · rw [plicRead_unclaimed cpuCount (not_exists.mp claim), up]

/-- Only `rv_plic_set_pending` makes a source pending. -/
theorem pending_raised {cpuCount src : Nat} {bus : DeviceBus RvPlic} {e : PlicEvent}
    (low : 1 ≤ src) (down : ¬plicBit bus.device.pending src = true)
    (up : plicBit (plicStep cpuCount bus e).device.pending src = true) : e.Raises src := by
  cases e with
  | setPending source =>
      simp only [plicStep, rvPlicSetPending] at up
      split at up
      · exact absurd up down
      · rw [plicUpdateHarts_device] at up
        by_cases inside : source.toNat / 32 < rvPlicRegWords
        · rw [plicBit_setPending _ _ _ inside, Bool.or_eq_true] at up
          rcases up with old | same
          · exact absurd old down
          · exact (of_decide_eq_true same).symm
        · rw [plicBit_setPending_pastEnd _ _ _ (Nat.not_lt.mp inside)] at up
          exact absurd up down
  | write offset size value =>
      simp only [plicStep] at up
      rw [plicWrite_pending] at up
      exact absurd up down
  | read offset size =>
      by_cases claim : ∃ ctx, (PlicEvent.read offset size).IsClaim bus.device ctx
      · rcases claim with ⟨ctx, claims⟩
        rw [(claimMeets_read cpuCount claims).clears src low, Bool.and_eq_true] at up
        exact absurd up.1 down
      · rw [plicRead_unclaimed cpuCount (not_exists.mp claim)] at up
        exact absurd up down

theorem pending_after_raise {cpuCount src : Nat} {bus : DeviceBus RvPlic} {e : PlicEvent}
    (low : 1 ≤ src) (high : src ≤ 63) (raised : e.Raises src) :
    plicBit (plicStep cpuCount bus e).device.pending src = true := by
  cases e with
  | setPending source =>
      have same : source.toNat = src := raised
      have nonzero : ¬(source = 0 ∨ source.toNat > rvPlicNumSources) := by
        simp only [rvPlicNumSources]
        bv_omega
      have inside : source.toNat / 32 < rvPlicRegWords := by
        simp only [rvPlicRegWords, rvPlicNumSources]
        omega
      simp only [plicStep, rvPlicSetPending, if_neg nonzero]
      rw [plicUpdateHarts_device, plicBit_setPending _ _ _ inside, same]
      simp
  | write offset size value => cases raised
  | read offset size => cases raised

/-- A claim that returns a source leaves it not pending. -/
theorem not_pending_after_take {cpuCount src : Nat} {bus : DeviceBus RvPlic} {e : PlicEvent}
    (low : 1 ≤ src) (taken : e.Takes cpuCount src bus) :
    ¬plicBit (plicStep cpuCount bus e).device.pending src = true := by
  rcases taken with ⟨⟨ctx, claims⟩, rfl⟩
  rw [(claimMeets_read cpuCount claims).clears _ low]
  simp

/-- A claim returns only pending sources. -/
theorem pending_before_take {cpuCount src : Nat} {bus : DeviceBus RvPlic} {e : PlicEvent}
    (low : 1 ≤ src) (taken : e.Takes cpuCount src bus) :
    plicBit bus.device.pending src = true := by
  rcases taken with ⟨⟨ctx, claims⟩, rfl⟩
  have takes := ((claimMeets_read cpuCount claims).claimable (by omega)).2.2
  simp only [RvPlic.claimable, Bool.and_eq_true] at takes
  exact takes.1.1

/-! ### Runs -/

/-- The claims of a run, from any state and for any number of contexts: every
claim read returns and clears what it owes its context; between two claims of
one source it was made pending again; and a source made pending stays so until
a claim returns it. -/
theorem plicClaims_run (cpuCount : Nat) (start : DeviceBus RvPlic) (events : List PlicEvent) :
    (∀ before e after ctx, events = before ++ e :: after →
      e.IsClaim (run (plicStep cpuCount) start before).device ctx →
      ClaimMeets (run (plicStep cpuCount) start before).device ctx
        (plicReturns cpuCount (run (plicStep cpuCount) start before) e).toNat
        (run (plicStep cpuCount) start (before ++ [e])).device) ∧
    (∀ before first middle second after src, 1 ≤ src →
      events = before ++ first :: middle ++ second :: after →
      first.Takes cpuCount src (run (plicStep cpuCount) start before) →
      second.Takes cpuCount src (run (plicStep cpuCount) start (before ++ first :: middle)) →
      ∃ e ∈ middle, e.Raises src) ∧
    (∀ before raise middle after src, 1 ≤ src → src ≤ 63 →
      events = before ++ raise :: middle ++ after → raise.Raises src →
      StepsMeet (plicStep cpuCount) (fun bus e => ¬e.Takes cpuCount src bus)
        (run (plicStep cpuCount) start (before ++ [raise])) middle →
      plicBit (run (plicStep cpuCount) start (before ++ raise :: middle)).device.pending src =
        true) := by
  refine ⟨?_, ?_, ?_⟩
  · intro before e after ctx _ claim
    rw [run_append]
    exact claimMeets_read cpuCount claim
  · intro before first middle second after src low _ taken again
    rw [run_append, run_cons] at again
    exact exists_raise (F := fun bus : DeviceBus RvPlic => plicBit bus.device.pending src = true)
      (fun bus e down up => pending_raised low down up)
      (not_pending_after_take low taken) (pending_before_take low again)
  · intro before raise middle after src low high _ raised quiet
    rw [run_append] at quiet ⊢
    rw [run_cons]
    exact flag_stays (F := fun bus : DeviceBus RvPlic => plicBit bus.device.pending src = true)
      (fun bus e up notTaken => pending_kept low up notTaken)
      (pending_after_raise low high raised) quiet

/-- Source 1 is enabled for the first context and asserted: the claim returns it. -/
theorem plicClaims_run_one :
    ClaimMeets
      (run (plicStep 1) ⟨rvPlicInit 1, fun _ => 0, fun _ => false⟩
        [.write 0x4 4 1, .write 0x2000 4 2, .setPending 1]).device 0 1
      (run (plicStep 1) ⟨rvPlicInit 1, fun _ => 0, fun _ => false⟩
        ([.write 0x4 4 1, .write 0x2000 4 2, .setPending 1] ++
          [.read (BitVec.ofNat 64 (plicClaimOffset 0)) 4])).device := by
  have claims := (plicClaims_run 1 ⟨rvPlicInit 1, fun _ => 0, fun _ => false⟩
    [.write 0x4 4 1, .write 0x2000 4 2, .setPending 1,
      .read (BitVec.ofNat 64 (plicClaimOffset 0)) 4]).1
    [.write 0x4 4 1, .write 0x2000 4 2, .setPending 1]
    (.read (BitVec.ofNat 64 (plicClaimOffset 0)) 4) [] 0 rfl (isClaim_claimOffset (by decide))
  have source : (plicReturns 1 (run (plicStep 1) ⟨rvPlicInit 1, fun _ => 0, fun _ => false⟩
      [.write 0x4 4 1, .write 0x2000 4 2, .setPending 1])
      (.read (BitVec.ofNat 64 (plicClaimOffset 0)) 4)).toNat = 1 := by decide
  rwa [source] at claims

end Riscmulator
