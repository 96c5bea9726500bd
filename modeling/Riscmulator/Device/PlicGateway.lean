import Riscmulator.Device.PlicClaims

/-! The gateway of the interrupt controller: a source that was claimed is in
service until its claimer completes it. The controller keeps no record of this,
and a source asserted in service may be claimed again. -/

namespace Riscmulator

open Transition

/-! ### Claims and completions -/

/-- The context whose claim register the operation reads. -/
def PlicEvent.claimer (plic : RvPlic) : PlicEvent → Option Nat
  | .read offset size =>
      if size = 4 then
        match plicDecode plic offset with
        | .claim ctx => some ctx
        | _ => none
      else none
  | _ => none

/-- The context and the source of a completion write. -/
def PlicEvent.completion (plic : RvPlic) : PlicEvent → Option (Nat × Nat)
  | .write offset size value =>
      if size = 4 then
        match plicDecode plic offset with
        | .claim ctx => some (ctx, (value.setWidth 32).toNat)
        | _ => none
      else none
  | _ => none

theorem claimer_eq_some {plic : RvPlic} {e : PlicEvent} {ctx : Nat} :
    e.claimer plic = some ctx ↔ e.IsClaim plic ctx := by
  cases e with
  | setPending source => simp [PlicEvent.claimer, PlicEvent.IsClaim]
  | write offset size value => simp [PlicEvent.claimer, PlicEvent.IsClaim]
  | read offset size =>
      simp only [PlicEvent.claimer, PlicEvent.IsClaim]
      by_cases word : size = 4
      · simp only [word, if_true, true_and]
        cases plicDecode plic offset <;> simp
      · rw [if_neg word]
        constructor
        · intro impossible
          cases impossible
        · intro both
          exact absurd both.1 word

/-- The claim read of `ctx` that returns `src`. -/
def PlicEvent.TakesFor (cpuCount ctx src : Nat) (bus : DeviceBus RvPlic) (e : PlicEvent) : Prop :=
  e.claimer bus.device = some ctx ∧ (plicReturns cpuCount bus e).toNat = src

def PlicEvent.Completes (ctx src : Nat) (bus : DeviceBus RvPlic) (e : PlicEvent) : Prop :=
  e.completion bus.device = some (ctx, src)

theorem takes_iff {cpuCount src : Nat} {bus : DeviceBus RvPlic} {e : PlicEvent} :
    e.Takes cpuCount src bus ↔ ∃ ctx, e.TakesFor cpuCount ctx src bus := by
  simp only [PlicEvent.Takes, PlicEvent.TakesFor, claimer_eq_some, exists_and_right]

/-! ### The gateway over a run -/

/-- A source that was claimed is not claimed again before its claimer completes it. -/
def NotReclaimed (step : DeviceBus RvPlic → PlicEvent → DeviceBus RvPlic) (cpuCount : Nat)
    (start : DeviceBus RvPlic) (events : List PlicEvent) : Prop :=
  ∀ before first middle second after ctx src, 1 ≤ src →
    events = before ++ first :: middle ++ second :: after →
    first.TakesFor cpuCount ctx src (run step start before) →
    second.Takes cpuCount src (run step start (before ++ first :: middle)) →
    ¬StepsMeet step (fun bus e => ¬e.Completes ctx src bus)
      (run step start (before ++ [first])) middle

/-- What the gateway owes over a run: no source in service is claimed, and an assertion
that arrives in between is pending after the completion. -/
structure GatewayKept (step : DeviceBus RvPlic → PlicEvent → DeviceBus RvPlic) (cpuCount : Nat)
    (start : DeviceBus RvPlic) (events : List PlicEvent) : Prop where
  reclaims : NotReclaimed step cpuCount start events
  held : ∀ before first middle raise waiting complete after ctx src, 1 ≤ src →
    events = before ++ first :: middle ++ raise :: waiting ++ complete :: after →
    first.TakesFor cpuCount ctx src (run step start before) →
    raise.Raises src →
    StepsMeet step (fun bus e => ¬e.Completes ctx src bus)
      (run step start (before ++ [first])) (middle ++ raise :: waiting) →
    complete.Completes ctx src
      (run step start (before ++ first :: middle ++ raise :: waiting)) →
    plicBit (run step start
      (before ++ first :: middle ++ raise :: waiting ++ [complete])).device.pending src = true

/-- The run has claimed the source for a context, and asserted it since; the context
has not completed it. -/
def RaisedInService (step : DeviceBus RvPlic → PlicEvent → DeviceBus RvPlic) (cpuCount : Nat)
    (start : DeviceBus RvPlic) (events : List PlicEvent) (src : Nat) : Prop :=
  ∃ ctx before first middle raise waiting,
    events = before ++ first :: middle ++ raise :: waiting ∧
    first.TakesFor cpuCount ctx src (run step start before) ∧ raise.Raises src ∧
    StepsMeet step (fun bus e => ¬e.Completes ctx src bus)
      (run step start (before ++ [first])) (middle ++ raise :: waiting)

/-- The source is enabled for the context, above its threshold. -/
def RvPlic.admits (plic : RvPlic) (ctx src : Nat) : Bool :=
  plicBit (plic.contexts ctx).enable src && plic.priority src > (plic.contexts ctx).threshold

/-- The first source goes before the second where both are claimable. -/
def RvPlic.Outranks (plic : RvPlic) (src other : Nat) : Prop :=
  plic.priority other < plic.priority src ∨
    plic.priority other = plic.priority src ∧ src < other

/-- The condition on the assertions of a run: each claim finds the sources asserted in
service, of those its context admits, outranked by a source that it could take. -/
def RaisesOutranked (step : DeviceBus RvPlic → PlicEvent → DeviceBus RvPlic) (cpuCount : Nat)
    (start : DeviceBus RvPlic) (events : List PlicEvent) : Prop :=
  ∀ before e after ctx src, events = before ++ e :: after →
    e.claimer (run step start before).device = some ctx → 1 ≤ src →
    RaisedInService step cpuCount start before src →
    (run step start before).device.admits ctx src = true →
    ∃ better, 1 ≤ better ∧ better ≤ 63 ∧
      (run step start before).device.claimable ctx better = true ∧
      (run step start before).device.Outranks better src

/-! ### One claim -/

/-- A claim is no completion. -/
theorem completion_of_claimer {plic : RvPlic} {e : PlicEvent} {ctx : Nat}
    (claims : e.claimer plic = some ctx) : e.completion plic = none := by
  cases e with
  | setPending source => cases claims
  | write offset size value => cases claims
  | read offset size => rfl

theorem claimable_eq {plic : RvPlic} {ctx src : Nat} : plic.claimable ctx src = true ↔
    plicBit plic.pending src = true ∧ plic.admits ctx src = true := by
  simp only [RvPlic.claimable, RvPlic.admits, Bool.and_eq_true, and_assoc]

/-- A claim returns a source of the bitmap. -/
theorem takesFor_le {cpuCount ctx src : Nat} {bus : DeviceBus RvPlic} {e : PlicEvent}
    (low : 1 ≤ src) (takes : e.TakesFor cpuCount ctx src bus) : src ≤ 63 := by
  have meets := claimMeets_read cpuCount (claimer_eq_some.mp takes.1)
  rw [takes.2] at meets
  exact (meets.claimable (by omega)).2.1

/-- Nothing outranks the source that a claim returns. -/
theorem not_outranked {cpuCount ctx src better : Nat} {bus : DeviceBus RvPlic} {e : PlicEvent}
    (takes : e.TakesFor cpuCount ctx src bus) (low : 1 ≤ better) (high : better ≤ 63)
    (claimable : bus.device.claimable ctx better = true) :
    ¬bus.device.Outranks better src := by
  have meets := claimMeets_read cpuCount (claimer_eq_some.mp takes.1)
  rw [takes.2] at meets
  rintro (above | ⟨same, first⟩)
  · exact absurd above (BitVec.not_lt.mpr (meets.greatest better low high claimable))
  · have least := meets.lowest better low high claimable same.symm
    omega

/-- A claim that finds a claimable source returns it, or one that outranks it. -/
theorem takes_best (cpuCount : Nat) {ctx src : Nat} {bus : DeviceBus RvPlic} {e : PlicEvent}
    (claims : e.claimer bus.device = some ctx) (low : 1 ≤ src) (high : src ≤ 63)
    (claimable : bus.device.claimable ctx src = true) :
    ∃ best, 1 ≤ best ∧ best ≤ 63 ∧ bus.device.claimable ctx best = true ∧
      e.TakesFor cpuCount ctx best bus ∧ (best = src ∨ bus.device.Outranks best src) := by
  have meets := claimMeets_read cpuCount (claimer_eq_some.mp claims)
  generalize source : (plicReturns cpuCount bus e).toNat = best at meets
  have some : best ≠ 0 := by
    intro zero
    rw [meets.none_iff.mp zero src low high] at claimable
    cases claimable
  obtain ⟨low', high', claimable'⟩ := meets.claimable some
  refine ⟨best, low', high', claimable', ⟨claims, source⟩, ?_⟩
  have bounded := meets.greatest src low high claimable
  by_cases same : bus.device.priority src = bus.device.priority best
  · rcases Nat.lt_or_eq_of_le (meets.lowest src low high claimable same) with first | here
    · exact Or.inr (Or.inr ⟨same, first⟩)
    · exact Or.inl here
  · refine Or.inr (Or.inl ?_)
    bv_omega

theorem not_takes_of_completes {cpuCount ctx src other : Nat} {bus : DeviceBus RvPlic}
    {e : PlicEvent} (completes : e.Completes ctx src bus) : ¬e.Takes cpuCount other bus := by
  intro takes
  obtain ⟨c, claims, _⟩ := takes_iff.mp takes
  rw [PlicEvent.Completes, completion_of_claimer claims] at completes
  cases completes

/-! ### Runs -/

section Runs

variable {cpuCount ctx src : Nat} {start : DeviceBus RvPlic}
  {before middle waiting events : List PlicEvent} {first raise : PlicEvent}

/-- Asserted and not claimed since, a source is pending. -/
theorem pending_waiting (low : 1 ≤ src) (high : src ≤ 63) (raises : raise.Raises src)
    (untaken : StepsMeet (plicStep cpuCount) (fun bus e => ¬e.Takes cpuCount src bus)
      (run (plicStep cpuCount) start (before ++ [raise])) waiting) :
    plicBit (run (plicStep cpuCount) start (before ++ raise :: waiting)).device.pending src =
      true := by
  rw [run_append] at untaken
  rw [run_append, run_cons]
  exact flag_stays (F := fun bus : DeviceBus RvPlic => plicBit bus.device.pending src = true)
    (fun _ _ up notTaken => pending_kept low up notTaken)
    (pending_after_raise low high raises) untaken

/-- A claimed source that is pending again was asserted in service. -/
theorem raisedInService_of_pending (low : 1 ≤ src)
    (claims : first.TakesFor cpuCount ctx src (run (plicStep cpuCount) start before))
    (quiet : StepsMeet (plicStep cpuCount) (fun bus e => ¬e.Completes ctx src bus)
      (run (plicStep cpuCount) start (before ++ [first])) middle)
    (up : plicBit (run (plicStep cpuCount) start (before ++ first :: middle)).device.pending src =
      true) :
    RaisedInService (plicStep cpuCount) cpuCount start (before ++ first :: middle) src := by
  have down := not_pending_after_take low (takes_iff.mpr ⟨ctx, claims⟩)
  rw [run_append, run_cons] at up
  obtain ⟨raise, member, raises⟩ := exists_raise
    (F := fun bus : DeviceBus RvPlic => plicBit bus.device.pending src = true)
    (fun _ _ down up => pending_raised low down up) down up
  obtain ⟨middle, waiting, rfl⟩ := List.append_of_mem member
  exact ⟨ctx, before, first, middle, raise, waiting, by simp, claims, raises, quiet⟩

/-- Where no source in service is claimed, one asserted in service is pending. -/
theorem pending_inService (free : NotReclaimed (plicStep cpuCount) cpuCount start events)
    {after : List PlicEvent} (low : 1 ≤ src)
    (split : events = before ++ first :: middle ++ raise :: waiting ++ after)
    (claims : first.TakesFor cpuCount ctx src (run (plicStep cpuCount) start before))
    (raises : raise.Raises src)
    (quiet : StepsMeet (plicStep cpuCount) (fun bus e => ¬e.Completes ctx src bus)
      (run (plicStep cpuCount) start (before ++ [first])) (middle ++ raise :: waiting)) :
    plicBit (run (plicStep cpuCount) start
      (before ++ first :: middle ++ raise :: waiting)).device.pending src = true := by
  apply pending_waiting low (takesFor_le low claims) raises
  rw [stepsMeet_iff_split]
  rintro earlier e later rfl takes
  refine free before first (middle ++ raise :: earlier) e (later ++ after) ctx src low ?_ claims
    ?_ ?_
  · simpa using split
  · rw [← run_append] at takes
    simpa using takes
  · rw [← List.cons_append, ← List.append_assoc, stepsMeet_append] at quiet
    exact quiet.1

theorem notReclaimed_iff :
    NotReclaimed (plicStep cpuCount) cpuCount start events ↔
      RaisesOutranked (plicStep cpuCount) cpuCount start events := by
  constructor
  · rintro free _ e after ctx src split claims low
      ⟨holder, before, first, middle, raise, waiting, rfl, takes, raises, quiet⟩ admits
    have up := pending_inService free low split takes raises quiet
    obtain ⟨best, low', high', claimable, returns, rfl | outranks⟩ := takes_best cpuCount
      claims low (takesFor_le low takes) (claimable_eq.mpr ⟨up, admits⟩)
    · refine absurd quiet (free before first (middle ++ raise :: waiting) e after holder best low
        ?_ takes ?_)
      · simpa using split
      · simpa using takes_iff.mpr ⟨ctx, returns⟩
    · exact ⟨best, low', high', claimable, outranks⟩
  · intro outranked before first middle second after ctx src low split claims takes quiet
    have inService := raisedInService_of_pending low claims quiet (pending_before_take low takes)
    obtain ⟨taker, returns⟩ := takes_iff.mp takes
    have meets := claimMeets_read cpuCount (claimer_eq_some.mp returns.1)
    rw [returns.2] at meets
    have admits := (claimable_eq.mp (meets.claimable (by omega)).2.2).2
    obtain ⟨better, low', high', claimable, outranks⟩ := outranked _ second after taker src split
      returns.1 low inService admits
    exact not_outranked returns low' high' claimable outranks

/-- The assertions that arrive in service are never lost: all that can go wrong is a claim. -/
theorem gatewayKept_iff :
    GatewayKept (plicStep cpuCount) cpuCount start events ↔
      NotReclaimed (plicStep cpuCount) cpuCount start events := by
  refine ⟨fun kept => kept.reclaims, fun free => ⟨free, ?_⟩⟩
  intro before first middle raise waiting complete after ctx src low split claims raises quiet
    completes
  rw [run_append]
  exact pending_kept low (pending_inService free low split claims raises quiet)
    (not_takes_of_completes completes)

end Runs

/-! ### The host's memory -/

/-- The run does not assert source 64. -/
def ListedRun (events : List PlicEvent) : Prop := ∀ e ∈ events, e.Listed

instance (events : List PlicEvent) : Decidable (ListedRun events) :=
  inferInstanceAs (Decidable (∀ e ∈ events, e.Listed))

@[simp] theorem listedRun_nil : ListedRun [] := fun _ => by simp

@[simp] theorem listedRun_cons {e : PlicEvent} {events : List PlicEvent} :
    ListedRun (e :: events) ↔ e.Listed ∧ ListedRun events := List.forall_mem_cons

@[simp] theorem listedRun_append {first second : List PlicEvent} :
    ListedRun (first ++ second) ↔ ListedRun first ∧ ListedRun second := List.forall_mem_append

section Listed

variable {step step' : DeviceBus RvPlic → PlicEvent → DeviceBus RvPlic}
  (agree : ∀ bus e, PlicEvent.Listed e → step' bus e = step bus e)
  {cpuCount src : Nat} {start s : DeviceBus RvPlic} {part events : List PlicEvent}

include agree

theorem listedRun_eq (listed : ListedRun part) : run step' s part = run step s part :=
  run_congr (C := fun _ e => PlicEvent.Listed e) agree (stepsMeet_of_forall s listed)

theorem listedStepsMeet_iff {P : DeviceBus RvPlic → PlicEvent → Prop}
    (listed : ListedRun part) : StepsMeet step' P s part ↔ StepsMeet step P s part :=
  stepsMeet_congr (C := fun _ e => PlicEvent.Listed e) agree (stepsMeet_of_forall s listed)

theorem NotReclaimed.congr (listed : ListedRun events)
    (free : NotReclaimed step cpuCount start events) :
    NotReclaimed step' cpuCount start events := by
  intro before first middle second after ctx src low split claims takes quiet
  subst split
  simp only [listedRun_append, listedRun_cons] at listed
  obtain ⟨⟨inBefore, inFirst, inMiddle⟩, _⟩ := listed
  rw [listedRun_eq agree inBefore] at claims
  rw [listedRun_eq agree (by simp [*])] at takes
  rw [listedRun_eq agree (by simp [*]), listedStepsMeet_iff agree inMiddle] at quiet
  exact free before first middle second after ctx src low rfl claims takes quiet

theorem GatewayKept.congr (listed : ListedRun events)
    (kept : GatewayKept step cpuCount start events) : GatewayKept step' cpuCount start events := by
  refine ⟨kept.reclaims.congr agree listed, ?_⟩
  intro before first middle raise waiting complete after ctx src low split claims raises quiet
    completes
  subst split
  simp only [listedRun_append, listedRun_cons] at listed
  obtain ⟨⟨⟨inBefore, inFirst, inMiddle⟩, inRaise, inWaiting⟩, inComplete, _⟩ := listed
  rw [listedRun_eq agree inBefore] at claims
  rw [listedRun_eq agree (by simp [*]), listedStepsMeet_iff agree (by simp [*])] at quiet
  rw [listedRun_eq agree (by simp [*])] at completes ⊢
  exact kept.held before first middle raise waiting complete after ctx src low rfl claims raises
    quiet completes

theorem RaisedInService.congr (listed : ListedRun events)
    (inService : RaisedInService step cpuCount start events src) :
    RaisedInService step' cpuCount start events src := by
  obtain ⟨ctx, before, first, middle, raise, waiting, rfl, claims, raises, quiet⟩ := inService
  simp only [listedRun_append, listedRun_cons] at listed
  obtain ⟨⟨inBefore, inFirst, inMiddle⟩, inRaise, inWaiting⟩ := listed
  refine ⟨ctx, before, first, middle, raise, waiting, rfl, ?_, raises, ?_⟩
  · rwa [listedRun_eq agree inBefore]
  · rwa [listedRun_eq agree (by simp [*]), listedStepsMeet_iff agree (by simp [*])]

theorem RaisesOutranked.congr (listed : ListedRun events)
    (outranked : RaisesOutranked step cpuCount start events) :
    RaisesOutranked step' cpuCount start events := by
  intro before e after ctx src split claims low inService admits
  have inBefore : ListedRun before := fun e member => listed e (by simp [split, member])
  have back : ∀ bus e, PlicEvent.Listed e → step bus e = step' bus e :=
    fun bus e known => (agree bus e known).symm
  rw [listedRun_eq agree inBefore] at claims admits ⊢
  exact outranked before e after ctx src split claims low (inService.congr back inBefore) admits

end Listed

/-- Over every run that does not assert source 64, from any state of the controller, the
gateway keeps what it owes exactly when every claim finds the sources asserted in service
outranked. -/
theorem gatewayKept_run (past : DeviceBus RvPlic → DeviceBus RvPlic) (cpuCount : Nat)
    (start : DeviceBus RvPlic) (events : List PlicEvent) (listed : ListedRun events) :
    GatewayKept (hostPlicStep past cpuCount) cpuCount start events ↔
      RaisesOutranked (hostPlicStep past cpuCount) cpuCount start events := by
  have agree : ∀ bus e, PlicEvent.Listed e →
      hostPlicStep past cpuCount bus e = plicStep cpuCount bus e :=
    fun bus e known => hostPlicStep_eq cpuCount bus known
  have back : ∀ bus e, PlicEvent.Listed e →
      plicStep cpuCount bus e = hostPlicStep past cpuCount bus e :=
    fun bus e known => (agree bus e known).symm
  have plain : GatewayKept (plicStep cpuCount) cpuCount start events ↔
      RaisesOutranked (plicStep cpuCount) cpuCount start events :=
    gatewayKept_iff.trans notReclaimed_iff
  exact ⟨fun kept => (plain.mp (kept.congr back listed)).congr agree listed,
    fun outranked => (plain.mpr (outranked.congr back listed)).congr agree listed⟩

/-- Source 1 is enabled for the first context, asserted and claimed; asserted
again before its completion, it is claimed again. -/
def reclaimEvents : List PlicEvent :=
  [.write 0x4 4 1, .write 0x2000 4 2, .setPending 1, .read 0x200004 4, .setPending 1,
    .read 0x200004 4]

theorem gatewayKept_run_reclaim :
    GatewayKept (hostPlicStep (fun bus => bus) 1) 1 ⟨rvPlicInit 1, fun _ => 0, fun _ => false⟩
        reclaimEvents ↔
      RaisesOutranked (hostPlicStep (fun bus => bus) 1) 1
        ⟨rvPlicInit 1, fun _ => 0, fun _ => false⟩ reclaimEvents :=
  gatewayKept_run (fun bus => bus) 1 _ reclaimEvents (by decide)

theorem gatewayKept_lost :
    ¬GatewayKept (hostPlicStep (fun bus => bus) 1) 1 ⟨rvPlicInit 1, fun _ => 0, fun _ => false⟩
      reclaimEvents := by
  intro kept
  refine kept.reclaims [.write 0x4 4 1, .write 0x2000 4 2, .setPending 1] (.read 0x200004 4)
    [.setPending 1] (.read 0x200004 4) [] 0 1 (by decide) rfl ⟨by decide, by decide⟩
    ⟨⟨0, rfl, by decide⟩, by decide⟩ ⟨fun completes => ?_, trivial⟩
  cases completes

end Riscmulator
