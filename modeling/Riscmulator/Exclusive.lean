import Riscmulator.Effects
import Riscmulator.Lib.Transition

/-! Load-reserved and store-conditional between harts: what a successful SC says
about the writes of other harts since the LR it answers. -/

namespace Riscmulator

open Transition

variable {δ : Type}

/-! ### Reservations over one operation -/

def AtomicSuccess (mc : EmuConfig δ) (m : EmuMachine δ) (h : Nat) (addr data : U64) (insn : U32)
    (mode : RvAccess) : Prop :=
  (rvAccessVirt mc m h addr data (rvAtomicSizeExp insn) mode).res = .ok

/-- The operation commits a store to the address it names: it is well formed and
aligned, its accesses succeed, and an SC finds its own reservation. -/
def AtomicCommits (mc : EmuConfig δ) (m : EmuMachine δ) (h : Nat) (insn : U32) : Prop :=
  let addr := m.xreg h (rvInsnRs1 insn)
  let rs2val := m.xreg h (rvInsnRs2 insn)
  let own := m.reservations (m.cpus h).csr.mhartid.toNat
  (rvInsnFunct3 insn = 2 ∨ rvInsnFunct3 insn = 3) ∧
    (addr &&& (if rvInsnFunct3 insn = 2 then 3 else 7)) = 0 ∧ rvInsnFunct5 insn ≠ amoLr ∧
    if rvInsnFunct5 insn = amoSc then
      own.valid = true ∧ own.addr = addr ∧ AtomicSuccess mc m h addr rs2val insn .store
    else
      let out := rvAccessVirt mc m h addr 0 (rvAtomicSizeExp insn) .amo
      let old := if rvInsnFunct3 insn = 2 then sext32 (out.data.getD 0) else out.data.getD 0
      out.res = .ok ∧ ∃ newval, rvAmoNewval insn old rs2val = some newval ∧
        AtomicSuccess mc out.machine h addr newval insn .store

/-- What each outcome leaves of the reservations, for the hart in slot `own`. -/
def AtomicOutcome.Reserves (mc : EmuConfig δ) (before : Nat → RvReservation) (own : Nat)
    (operand : U64) : AtomicOutcome δ → Prop
  | .iillegal m => m.reservations = before
  | .trap m _ => m.reservations = before
  | .lr m addr _ => addr = operand ∧ m.reservations = Function.update before own ⟨addr, true⟩
  | .sc m addr true =>
      addr = operand ∧ (before own).valid = true ∧ (before own).addr = addr ∧
        m.reservations = Function.update before own { before own with valid := false }
  | .sc m _ false => m.reservations = before
  | .amo m addr _ => addr = operand ∧ m.reservations = rvInvalReservations mc before addr

section Operation

variable {mc : EmuConfig δ} {m : EmuMachine δ} {h : Nat} {insn : U32}

theorem rvAtomicLr_reserves (addr : U64) :
    (rvAtomicLr mc m h insn addr).Reserves mc m.reservations (m.cpus h).csr.mhartid.toNat addr := by
  have kept := (rvAccessVirt_frame mc m h addr 0 (rvAtomicSizeExp insn) .load).reservations
  simp only [rvAtomicLr, rvAtomicFault]
  split
  · rfl
  split
  · exact kept
  · exact ⟨rfl, by rw [kept]⟩

theorem rvAtomicSc_reserves (addr : U64) :
    (rvAtomicSc mc m h insn addr).Reserves mc m.reservations (m.cpus h).csr.mhartid.toNat addr := by
  have kept := (rvAccessVirt_frame mc m h addr (m.xreg h (rvInsnRs2 insn))
    (rvAtomicSizeExp insn) .store).reservations
  simp only [rvAtomicSc, rvAtomicFault]
  split
  · next own =>
      simp only [Bool.and_eq_true, beq_iff_eq] at own
      split
      · exact kept
      · exact ⟨rfl, own.1, own.2, by rw [kept]⟩
  · rfl

theorem rvAtomicAmo_reserves (addr : U64) :
    (rvAtomicAmo mc m h insn addr).Reserves mc m.reservations (m.cpus h).csr.mhartid.toNat addr := by
  have loaded := (rvAccessVirt_frame mc m h addr 0 (rvAtomicSizeExp insn) .amo).reservations
  simp only [rvAtomicAmo, rvAtomicFault]
  split
  · exact loaded
  split
  · exact loaded
  · next newval _ =>
      have stored := (rvAccessVirt_frame mc
        (rvAccessVirt mc m h addr 0 (rvAtomicSizeExp insn) .amo).machine h addr newval
        (rvAtomicSizeExp insn) .store).reservations
      split
      · exact stored.trans loaded
      · exact ⟨rfl, by rw [stored, loaded]⟩

theorem rvAtomicExec_reserves :
    (rvAtomicExec mc m h insn).Reserves mc m.reservations (m.cpus h).csr.mhartid.toNat
      (m.xreg h (rvInsnRs1 insn)) := by
  simp only [rvAtomicExec]
  generalize (if rvInsnFunct3 insn = 2 then (3 : U64) else 7) = alignMask
  split
  · rfl
  split
  · rfl
  split
  · exact rvAtomicLr_reserves _
  split
  · exact rvAtomicSc_reserves _
  · exact rvAtomicAmo_reserves _

def AtomicOutcome.stores : AtomicOutcome δ → Bool
  | .sc _ _ success => success
  | .amo _ _ _ => true
  | _ => false

def AtomicOutcome.reserved : AtomicOutcome δ → Option U64
  | .lr _ addr _ => some addr
  | _ => none

def AtomicOutcome.conditional : AtomicOutcome δ → Option U64
  | .sc _ addr true => some addr
  | _ => none

/-! What an outcome is, from what it is seen to do. -/

theorem AtomicOutcome.lr_of_reserved {out : AtomicOutcome δ} {addr : U64}
    (reserved : out.reserved = some addr) : ∃ m val, out = .lr m addr val := by
  cases out with
  | lr m _ val =>
      cases reserved
      exact ⟨m, val, rfl⟩
  | iillegal _ => cases reserved
  | trap _ _ => cases reserved
  | sc _ _ _ => cases reserved
  | amo _ _ _ => cases reserved

theorem AtomicOutcome.sc_of_conditional {out : AtomicOutcome δ} {addr : U64}
    (conditional : out.conditional = some addr) : ∃ m, out = .sc m addr true := by
  cases out with
  | sc m _ success =>
      cases success with
      | false => cases conditional
      | true =>
          cases conditional
          exact ⟨m, rfl⟩
  | iillegal _ => cases conditional
  | trap _ _ => cases conditional
  | lr _ _ _ => cases conditional
  | amo _ _ _ => cases conditional

theorem AtomicOutcome.sc_or_amo_of_stores {out : AtomicOutcome δ} (stores : out.stores = true) :
    (∃ m addr, out = .sc m addr true) ∨ ∃ m addr old, out = .amo m addr old := by
  cases out with
  | sc m addr success =>
      apply Or.inl
      exact ⟨m, addr, congrArg (AtomicOutcome.sc m addr) stores⟩
  | amo m addr old =>
      apply Or.inr
      exact ⟨m, addr, old, rfl⟩
  | iillegal _ => cases stores
  | trap _ _ => cases stores
  | lr _ _ _ => cases stores

theorem rvAtomicSc_stores {addr : U64} (stores : (rvAtomicSc mc m h insn addr).stores = true) :
    (m.reservations (m.cpus h).csr.mhartid.toNat).valid = true ∧
      (m.reservations (m.cpus h).csr.mhartid.toNat).addr = addr ∧
      AtomicSuccess mc m h addr (m.xreg h (rvInsnRs2 insn)) insn .store := by
  simp only [rvAtomicSc, rvAtomicFault] at stores
  split at stores
  · next own =>
      simp only [Bool.and_eq_true, beq_iff_eq] at own
      split at stores
      · cases stores
      · next ok => exact ⟨own.1, own.2, not_not.mp ok⟩
  · cases stores

theorem rvAtomicAmo_stores {addr : U64} (stores : (rvAtomicAmo mc m h insn addr).stores = true) :
    let out := rvAccessVirt mc m h addr 0 (rvAtomicSizeExp insn) .amo
    let old := if rvInsnFunct3 insn = 2 then sext32 (out.data.getD 0) else out.data.getD 0
    out.res = .ok ∧ ∃ newval, rvAmoNewval insn old (m.xreg h (rvInsnRs2 insn)) = some newval ∧
      AtomicSuccess mc out.machine h addr newval insn .store := by
  simp only [rvAtomicAmo, rvAtomicFault] at stores
  split at stores
  · cases stores
  · next loaded =>
      split at stores
      · cases stores
      · next newval computed =>
          split at stores
          · cases stores
          · next stored => exact ⟨not_not.mp loaded, newval, computed, not_not.mp stored⟩

theorem rvAtomicLr_conditional (addr : U64) :
    (rvAtomicLr mc m h insn addr).conditional = none := by
  simp only [rvAtomicLr, rvAtomicFault]
  split
  · rfl
  split <;> rfl

theorem rvAtomicAmo_conditional (addr : U64) :
    (rvAtomicAmo mc m h insn addr).conditional = none := by
  simp only [rvAtomicAmo, rvAtomicFault]
  split
  · rfl
  split
  · rfl
  split <;> rfl

theorem rvAtomicExec_conditional {addr : U64}
    (conditional : (rvAtomicExec mc m h insn).conditional = some addr) :
    rvInsnFunct5 insn = amoSc := by
  by_contra other
  simp only [rvAtomicExec, if_neg other] at conditional
  generalize (if rvInsnFunct3 insn = 2 then (3 : U64) else 7) = alignMask at conditional
  split at conditional
  · cases conditional
  split at conditional
  · cases conditional
  split at conditional
  · rw [rvAtomicLr_conditional] at conditional
    cases conditional
  · rw [rvAtomicAmo_conditional] at conditional
    cases conditional

/-- An operation that is seen to store is one that commits. -/
theorem atomicCommits_of_stores (stores : (rvAtomicExec mc m h insn).stores = true) :
    AtomicCommits mc m h insn := by
  simp only [rvAtomicExec] at stores
  unfold AtomicCommits
  simp only
  generalize (if rvInsnFunct3 insn = 2 then (3 : U64) else 7) = alignMask at stores ⊢
  split at stores
  · cases stores
  · next funct3 =>
      have width : rvInsnFunct3 insn = 2 ∨ rvInsnFunct3 insn = 3 := by
        by_contra neither
        exact funct3 (not_or.mp neither)
      split at stores
      · cases stores
      · next aligned =>
          split at stores
          · next lr =>
              simp only [rvAtomicLr, rvAtomicFault] at stores
              split_ifs at stores <;> cases stores
          · next lr =>
              refine ⟨width, not_not.mp aligned, lr, ?_⟩
              split at stores
              · next sc =>
                  rw [if_pos sc]
                  exact rvAtomicSc_stores stores
              · next sc =>
                  rw [if_neg sc]
                  exact rvAtomicAmo_stores stores

end Operation

/-! ### Runs of atomic operations -/

/-- What the run needs of the host's trap hooks: they neither touch the
reservations nor renumber a hart. -/
def EmuConfig.HooksSpare (mc : EmuConfig δ) : Prop :=
  ∀ cause hook, mc.trapHook cause = some hook → ∀ m h trap,
    (hook m h trap).2.reservations = m.reservations ∧
      ∀ i, ((hook m h trap).2.cpus i).csr.mhartid = (m.cpus i).csr.mhartid

/-- A machine and, for each hart, the number of bytes its last LR reserved. The
widths are a history of the run: the code does not keep them. -/
structure AtomicRun (δ : Type) where
  machine : EmuMachine δ
  width : Nat → Nat

/-- Hart `h` executes an atomic instruction, or anything happens that is neither
an atomic operation nor a change of the reservations or of a hart's number. -/
inductive AtomicEvent (δ : Type)
  | atomic (h : Nat) (insn : U32)
  | other (next : EmuMachine δ)

/-- `next` with the reservations and the hart numbers of `m`. -/
def EmuMachine.otherThan (m next : EmuMachine δ) : EmuMachine δ :=
  { next with
    reservations := m.reservations
    cpus := fun i => { next.cpus i with
      csr := { (next.cpus i).csr with mhartid := (m.cpus i).csr.mhartid } } }

def atomicStep (mc : EmuConfig δ) (s : AtomicRun δ) : AtomicEvent δ → AtomicRun δ
  | .atomic h insn =>
      { machine := rvAtomicOp mc s.machine h insn
        width :=
          if (rvAtomicExec mc s.machine h insn).reserved.isSome then
            Function.update s.width h (rvAtomicWidth insn)
          else s.width }
  | .other next => { s with machine := s.machine.otherThan next }

/-- Some byte is both among the `n` from `a` on and among the `k` from `b` on. -/
def Overlap (a : U64) (n : Nat) (b : U64) (k : Nat) : Prop :=
  ∃ byte : U64, (byte - a).toNat < n ∧ (byte - b).toNat < k

/-- The event is an LR by hart `h` that reserves `width` bytes at `addr`. -/
def IsLr (mc : EmuConfig δ) (h : Nat) (addr : U64) (width : Nat) (s : AtomicRun δ)
    (e : AtomicEvent δ) : Prop :=
  ∃ insn, e = .atomic h insn ∧ (rvAtomicExec mc s.machine h insn).reserved = some addr ∧
    width = rvAtomicWidth insn

/-- The event is a successful SC by hart `h` to `addr`. -/
def IsSc (mc : EmuConfig δ) (h : Nat) (addr : U64) (s : AtomicRun δ) (e : AtomicEvent δ) : Prop :=
  ∃ insn, e = .atomic h insn ∧ (rvAtomicExec mc s.machine h insn).conditional = some addr

/-- The event is a successful SC or an AMO by a hart other than `h` that writes
one of the `width` bytes at `addr`. -/
def WritesInto (mc : EmuConfig δ) (h : Nat) (addr : U64) (width : Nat) (s : AtomicRun δ)
    (e : AtomicEvent δ) : Prop :=
  ∃ g insn, e = .atomic g insn ∧ g ≠ h ∧ (rvAtomicExec mc s.machine g insn).stores = true ∧
    Overlap (s.machine.xreg g (rvInsnRs1 insn)) (rvAtomicWidth insn) addr width

/-- Between the last LR of an address by a hart and a successful SC of the hart
to it, no other hart wrote into the reserved bytes. -/
def Exclusive (mc : EmuConfig δ) (s : AtomicRun δ) (events : List (AtomicEvent δ)) : Prop :=
  ∀ before lr middle sc after, events = before ++ lr :: (middle ++ sc :: after) →
    ∀ h addr width, IsLr mc h addr width (run (atomicStep mc) s before) lr →
      StepsMeet (atomicStep mc) (fun s e => ∀ w, ¬IsLr mc h addr w s e)
        (run (atomicStep mc) s (before ++ [lr])) middle →
      IsSc mc h addr (run (atomicStep mc) s (before ++ lr :: middle)) sc →
      StepsMeet (atomicStep mc) (fun s e => ¬WritesInto mc h addr width s e)
        (run (atomicStep mc) s (before ++ [lr])) middle

def AtomicEvent.inRange (mc : EmuConfig δ) : AtomicEvent δ → Prop
  | .atomic h _ => h < mc.cpuCount
  | .other _ => True

/-- The condition on an event: where it commits a store into bytes that another
hart has reserved, it is an AMO, and it names the first of these bytes. -/
def KeepsOthers (mc : EmuConfig δ) (s : AtomicRun δ) : AtomicEvent δ → Prop
  | .atomic g insn =>
      AtomicCommits mc s.machine g insn → ∀ h, h < mc.cpuCount → h ≠ g →
        (s.machine.reservations h).valid = true →
        Overlap (s.machine.xreg g (rvInsnRs1 insn)) (rvAtomicWidth insn)
          (s.machine.reservations h).addr (s.width h) →
        rvInsnFunct5 insn ≠ amoSc ∧
          s.machine.xreg g (rvInsnRs1 insn) = (s.machine.reservations h).addr
  | .other _ => True

/-! ### What one operation keeps -/

section Step

variable {mc : EmuConfig δ}

/-- Every slot of the reservations belongs to the hart of the same number. -/
def HartsNumbered (mc : EmuConfig δ) (m : EmuMachine δ) : Prop :=
  ∀ i, i < mc.cpuCount → (m.cpus i).csr.mhartid.toNat = i

def Holds (h : Nat) (addr : U64) (s : AtomicRun δ) : Prop :=
  s.machine.reservations h = ⟨addr, true⟩

theorem rvTrapEnter_mhartid (cpu : RvCpu) (trap : RvTrap) :
    (rvTrapEnter cpu trap).csr.mhartid = cpu.csr.mhartid := by
  unfold rvTrapEnter
  split <;> rfl

theorem setCpu_mhartid (m : EmuMachine δ) (h : Nat) {cpu : RvCpu}
    (same : cpu.csr.mhartid = (m.cpus h).csr.mhartid) (i : Nat) :
    ((m.setCpu h cpu).cpus i).csr.mhartid = (m.cpus i).csr.mhartid := by
  by_cases mine : i = h
  · rw [mine, EmuMachine.setCpu_same, same]
  · rw [EmuMachine.setCpu_other _ _ mine]

theorem rvDoTrap_spares (hooks : mc.HooksSpare) (m : EmuMachine δ) (h : Nat) (trap : RvTrap) :
    (rvDoTrap mc m h trap).reservations = m.reservations ∧
      ∀ i, ((rvDoTrap mc m h trap).cpus i).csr.mhartid = (m.cpus i).csr.mhartid := by
  have enter : ∀ m' : EmuMachine δ,
      (m'.setCpu h (rvTrapEnter (m'.cpus h) trap)).reservations = m'.reservations ∧
        ∀ i, ((m'.setCpu h (rvTrapEnter (m'.cpus h) trap)).cpus i).csr.mhartid =
          (m'.cpus i).csr.mhartid :=
    fun m' => ⟨rfl, setCpu_mhartid m' h (rvTrapEnter_mhartid _ _)⟩
  simp only [rvDoTrap]
  split
  · exact enter m
  · split
    · exact enter m
    · next hook found =>
        obtain ⟨reservations, mhartid⟩ := hooks _ _ found m h trap
        split
        · refine ⟨(enter _).1.trans reservations, fun i => ?_⟩
          rw [(enter _).2 i, mhartid i]
        · exact ⟨reservations, mhartid⟩

/-- After its commit an operation leaves the reservations and hart numbers alone. -/
theorem rvAtomicOp_spares (hooks : mc.HooksSpare) (m : EmuMachine δ) (h : Nat) (insn : U32) :
    (rvAtomicOp mc m h insn).reservations = (rvAtomicExec mc m h insn).machine.reservations ∧
      ∀ i, ((rvAtomicOp mc m h insn).cpus i).csr.mhartid = (m.cpus i).csr.mhartid := by
  have executed : DataStep m (rvAtomicExec mc m h insn).machine := rvAtomicExec_machine
  have kept : ∀ i, ((rvAtomicExec mc m h insn).machine.cpus i).csr.mhartid =
      (m.cpus i).csr.mhartid := by
    intro i
    rcases (executed.core i).csr with ⟨fcsr, csr⟩
    rw [csr]
  have written : ∀ (m' : EmuMachine δ) (value : U64) (i : Nat),
      ((m'.writeXreg h (rvInsnRd insn) value).cpus i).csr.mhartid = (m'.cpus i).csr.mhartid :=
    fun m' value => setCpu_mhartid m' h (by rw [rvXregWrite_csr])
  unfold rvAtomicOp
  cases outcome : rvAtomicExec mc m h insn with
  | iillegal m' =>
      rw [outcome] at kept
      obtain ⟨reservations, mhartid⟩ := rvDoTrap_spares hooks m' h
        { epc := (m'.cpus h).epc, cause := RvCause.iillegal.code, tval := insn.setWidth 64 }
      exact ⟨reservations, fun i => (mhartid i).trans (kept i)⟩
  | trap m' trap =>
      rw [outcome] at kept
      obtain ⟨reservations, mhartid⟩ := rvDoTrap_spares hooks m' h trap
      exact ⟨reservations, fun i => (mhartid i).trans (kept i)⟩
  | lr m' addr val =>
      rw [outcome] at kept
      exact ⟨rfl, fun i => (written m' _ i).trans (kept i)⟩
  | sc m' addr success =>
      rw [outcome] at kept
      exact ⟨rfl, fun i => (written m' _ i).trans (kept i)⟩
  | amo m' addr old =>
      rw [outcome] at kept
      exact ⟨rfl, fun i => (written m' _ i).trans (kept i)⟩

theorem hartsNumbered_step (hooks : mc.HooksSpare) (s : AtomicRun δ) (e : AtomicEvent δ)
    (numbered : HartsNumbered mc s.machine) : HartsNumbered mc (atomicStep mc s e).machine := by
  intro i bound
  cases e with
  | atomic h insn =>
      have kept := (rvAtomicOp_spares hooks s.machine h insn).2 i
      simp only [atomicStep]
      rw [kept]
      exact numbered i bound
  | other next => exact numbered i bound

/-- The reservations a numbered hart's operation leaves. -/
theorem atomic_reserves (hooks : mc.HooksSpare) {s : AtomicRun δ}
    (numbered : HartsNumbered mc s.machine) {g : Nat} (bound : g < mc.cpuCount) (insn : U32) :
    (rvAtomicExec mc s.machine g insn).Reserves mc s.machine.reservations g
        (s.machine.xreg g (rvInsnRs1 insn)) ∧
      (atomicStep mc s (.atomic g insn)).machine.reservations =
        (rvAtomicExec mc s.machine g insn).machine.reservations := by
  have reserves : (rvAtomicExec mc s.machine g insn).Reserves mc s.machine.reservations
      (s.machine.cpus g).csr.mhartid.toNat (s.machine.xreg g (rvInsnRs1 insn)) :=
    rvAtomicExec_reserves
  rw [numbered g bound] at reserves
  exact ⟨reserves, (rvAtomicOp_spares hooks s.machine g insn).1⟩

theorem rvInvalReservations_holds {before : Nat → RvReservation} {written addr : U64} {h : Nat}
    (holds : rvInvalReservations mc before written h = ⟨addr, true⟩) :
    before h = ⟨addr, true⟩ := by
  simp only [rvInvalReservations] at holds
  split at holds
  · cases holds
  · exact holds

/-- An AMO at the reserved address itself drops the reservation. -/
theorem rvInvalReservations_drops {before : Nat → RvReservation} {addr : U64} {h : Nat}
    (bound : h < mc.cpuCount) : rvInvalReservations mc before addr h ≠ ⟨addr, true⟩ := by
  intro holds
  have up := rvInvalReservations_holds holds
  simp only [rvInvalReservations, up, bound, and_self, if_true] at holds
  cases holds

/-- What an outcome leaves reserved was reserved before, or the LR it is reserved it. -/
theorem AtomicOutcome.Reserves.holds {before : Nat → RvReservation} {own h : Nat}
    {operand addr : U64} {out : AtomicOutcome δ} (reserves : out.Reserves mc before own operand)
    (next : out.machine.reservations h = ⟨addr, true⟩) :
    before h = ⟨addr, true⟩ ∨ h = own ∧ out.reserved = some addr := by
  cases out with
  | iillegal m => exact Or.inl (reserves ▸ next)
  | trap m trap => exact Or.inl (reserves ▸ next)
  | lr m reserved val =>
      obtain ⟨rfl, updated⟩ := reserves
      simp only [AtomicOutcome.machine, updated] at next
      by_cases mine : h = own
      · subst mine
        rw [Function.update_self] at next
        apply Or.inr
        exact ⟨rfl, congrArg (fun r : RvReservation => some r.addr) next⟩
      · rw [Function.update_of_ne mine] at next
        exact Or.inl next
  | sc m written success =>
      cases success with
      | false => exact Or.inl (reserves ▸ next)
      | true =>
          obtain ⟨_, _, _, updated⟩ := reserves
          simp only [AtomicOutcome.machine, updated] at next
          by_cases mine : h = own
          · subst mine
            rw [Function.update_self] at next
            cases congrArg RvReservation.valid next
          · rw [Function.update_of_ne mine] at next
            exact Or.inl next
  | amo m written old =>
      obtain ⟨rfl, updated⟩ := reserves
      simp only [AtomicOutcome.machine, updated] at next
      exact Or.inl (rvInvalReservations_holds next)

/-- A hart comes to hold an address only by an LR of it. -/
theorem holds_step (hooks : mc.HooksSpare) {s : AtomicRun δ} {e : AtomicEvent δ} {h : Nat}
    {addr : U64} (numbered : HartsNumbered mc s.machine) (range : e.inRange mc)
    (next : Holds h addr (atomicStep mc s e)) :
    Holds h addr s ∨ ∃ w, IsLr mc h addr w s e := by
  cases e with
  | other _ => exact Or.inl next
  | atomic g insn =>
      obtain ⟨reserves, stepped⟩ := atomic_reserves hooks numbered range insn
      simp only [Holds] at next ⊢
      rw [stepped] at next
      rcases reserves.holds next with held | ⟨rfl, isLr⟩
      · exact Or.inl held
      · apply Or.inr
        exact ⟨_, insn, rfl, isLr, rfl⟩

/-- A step that meets the condition and writes into the bytes that hart `h`
holds leaves `h` without them. -/
theorem writesInto_drops (hooks : mc.HooksSpare) {s : AtomicRun δ} {e : AtomicEvent δ} {h : Nat}
    {addr : U64} (numbered : HartsNumbered mc s.machine) (range : e.inRange mc)
    (bound : h < mc.cpuCount) (keeps : KeepsOthers mc s e)
    (writes : WritesInto mc h addr (s.width h) s e) : ¬Holds h addr (atomicStep mc s e) := by
  intro next
  rcases writes with ⟨g, insn, rfl, other, stores, overlap⟩
  have now : Holds h addr s := by
    rcases holds_step hooks numbered range next with held | ⟨w, insn', same, _⟩
    · exact held
    · cases same
      exact absurd rfl other
  have commits : AtomicCommits mc s.machine g insn := atomicCommits_of_stores stores
  have held : s.machine.reservations h = ⟨addr, true⟩ := now
  obtain ⟨notSc, operand⟩ := keeps commits h bound other.symm (by rw [held])
    (by rw [held]; exact overlap)
  rw [held] at operand
  obtain ⟨reserves, stepped⟩ := atomic_reserves hooks numbered range insn
  simp only [Holds] at next
  rw [stepped] at next
  rcases AtomicOutcome.sc_or_amo_of_stores stores with
    ⟨m', written, outcome⟩ | ⟨m', written, old, outcome⟩
  · apply notSc
    exact rvAtomicExec_conditional (congrArg AtomicOutcome.conditional outcome)
  · rw [outcome] at reserves next
    obtain ⟨rfl, updated⟩ := reserves
    simp only [AtomicOutcome.machine, updated] at next
    rw [operand] at next
    exact rvInvalReservations_drops bound next

/-- Without an LR of its own, what a hart holds keeps its width. -/
theorem width_step (hooks : mc.HooksSpare) {s : AtomicRun δ} {e : AtomicEvent δ} {h : Nat}
    {addr : U64} (numbered : HartsNumbered mc s.machine) (range : e.inRange mc)
    (quiet : ∀ w, ¬IsLr mc h addr w s e) (next : Holds h addr (atomicStep mc s e)) :
    (atomicStep mc s e).width h = s.width h := by
  cases e with
  | other _ => rfl
  | atomic g insn =>
      simp only [atomicStep]
      split
      · next reserved =>
          by_cases mine : h = g
          · subst mine
            obtain ⟨operand, isLr⟩ := Option.isSome_iff_exists.mp reserved
            obtain ⟨m', val, outcome⟩ := AtomicOutcome.lr_of_reserved isLr
            obtain ⟨reserves, stepped⟩ := atomic_reserves hooks numbered range insn
            rw [outcome] at reserves
            simp only [Holds] at next
            rw [stepped, outcome] at next
            simp only [AtomicOutcome.machine, reserves.2, Function.update_self] at next
            have same : operand = addr := congrArg RvReservation.addr next
            rw [same] at isLr
            exact absurd ⟨insn, rfl, isLr, rfl⟩ (quiet _)
          · rw [Function.update_of_ne mine]
      · rfl

/-- A successful SC answers a reservation the hart holds. -/
theorem isSc_holds (hooks : mc.HooksSpare) {s : AtomicRun δ} {e : AtomicEvent δ} {h : Nat}
    {addr : U64} (numbered : HartsNumbered mc s.machine) (bound : h < mc.cpuCount)
    (isSc : IsSc mc h addr s e) : Holds h addr s := by
  obtain ⟨insn, rfl, conditional⟩ := isSc
  obtain ⟨m', outcome⟩ := AtomicOutcome.sc_of_conditional conditional
  obtain ⟨reserves, _⟩ := atomic_reserves hooks numbered bound insn
  rw [outcome] at reserves
  obtain ⟨_, valid, same, _⟩ := reserves
  exact RvReservation.ext same valid

end Step

/-! ### Runs -/

/-- Where a hart still holds, after events without an LR of its own, what it held
when they began, none of them wrote into the reserved bytes. -/
theorem not_writesInto_run {mc : EmuConfig δ} (hooks : mc.HooksSpare) {s : AtomicRun δ} {h : Nat}
    {addr : U64} {width : Nat} {events : List (AtomicEvent δ)} (bound : h < mc.cpuCount)
    (numbered : HartsNumbered mc s.machine) (reserved : s.width h = width)
    (keeps : StepsMeet (atomicStep mc) (KeepsOthers mc) s events)
    (range : StepsMeet (atomicStep mc) (fun _ e => AtomicEvent.inRange mc e) s events)
    (quiet : StepsMeet (atomicStep mc) (fun s e => ∀ w, ¬IsLr mc h addr w s e) s events)
    (held : Holds h addr (run (atomicStep mc) s events)) :
    StepsMeet (atomicStep mc) (fun s e => ¬WritesInto mc h addr width s e) s events := by
  -- along the run the hart's width stays that of its LR, as long as it holds the address
  refine stepsMeet_not_of_up
    (I := fun s => HartsNumbered mc s.machine ∧ (Holds h addr s → s.width h = width)) ?_ ?_ ?_
    ⟨numbered, fun _ => reserved⟩ (stepsMeet_and keeps (stepsMeet_and range quiet)) held
  · intro s e inv meets
    rcases inv with ⟨slots, wide⟩
    rcases meets with ⟨_, inRange, noLr⟩
    refine ⟨hartsNumbered_step hooks s e slots, fun next => ?_⟩
    rcases holds_step hooks slots inRange next with now | ⟨w, isLr'⟩
    · calc
        _ = s.width h := width_step hooks slots inRange noLr next
        _ = width := wide now
    · exact absurd isLr' (noLr w)
  · intro s e inv meets down next
    rcases inv with ⟨slots, _⟩
    rcases meets with ⟨_, inRange, noLr⟩
    rcases holds_step hooks slots inRange next with now | ⟨w, isLr'⟩
    · exact down now
    · exact noLr w isLr'
  · intro s e inv meets writes next
    rcases inv with ⟨slots, wide⟩
    rcases meets with ⟨keepsOthers, inRange, noLr⟩
    rcases holds_step hooks slots inRange next with now | ⟨w, isLr'⟩
    · rw [← wide now] at writes
      exact writesInto_drops hooks slots inRange bound keepsOthers writes next
    · exact noLr w isLr'

/-- The machine of `emu_machine_init`, before any LR. -/
def AtomicRun.init (device : δ) : AtomicRun δ := ⟨emuMachineInit device, fun _ => 0⟩

theorem hartsNumbered_init (mc : EmuConfig δ) (harts : mc.cpuCount ≤ 2 ^ 64) (device : δ) :
    HartsNumbered mc (AtomicRun.init device).machine := by
  intro i bound
  have small : i < 2 ^ 64 := lt_of_lt_of_le bound harts
  simp only [AtomicRun.init, emuMachineInit, rvSyncMemPrivilege_csr, BitVec.toNat_ofNat]
  exact Nat.mod_eq_of_lt small

/-- From `emu_machine_init`, on every number of harts and in every order of
atomic operations, a successful SC means that no other hart wrote into the
reserved bytes, if every store into bytes that another hart has reserved is an
AMO at their first address. -/
theorem exclusive_run (mc : EmuConfig δ) (hooks : mc.HooksSpare) (harts : mc.cpuCount ≤ 2 ^ 64)
    (device : δ) (events : List (AtomicEvent δ)) (range : ∀ e ∈ events, e.inRange mc)
    (keeps : StepsMeet (atomicStep mc) (KeepsOthers mc) (AtomicRun.init device) events) :
    Exclusive mc (AtomicRun.init device) events := by
  intro before lr middle sc after shape h addr width isLr quiet isSc
  subst shape
  have numbered : ∀ events, HartsNumbered mc (run (atomicStep mc) (AtomicRun.init device)
      events).machine := fun events =>
    invariant_run_always (I := fun s : AtomicRun δ => HartsNumbered mc s.machine)
      (hartsNumbered_step hooks)
      events (hartsNumbered_init mc harts device)
  have bound : h < mc.cpuCount := by
    rcases isLr with ⟨insn, rfl, _⟩
    exact range (.atomic h insn) (by simp)
  have reserved : (run (atomicStep mc) (AtomicRun.init device) (before ++ [lr])).width h =
      width := by
    rcases isLr with ⟨insn, rfl, outcome, rfl⟩
    simp [atomicStep, outcome]
  have split := (stepsMeet_append _ before (lr :: (middle ++ sc :: after))).mp keeps
  have keepsMiddle := ((stepsMeet_append _ middle (sc :: after)).mp split.2.2).1
  have rangeMiddle : StepsMeet (atomicStep mc) (fun _ e => AtomicEvent.inRange mc e)
      (run (atomicStep mc) (AtomicRun.init device) (before ++ [lr])) middle :=
    stepsMeet_of_forall _ fun e member => range e (by simp [member])
  have start : run (atomicStep mc) (AtomicRun.init device) (before ++ [lr]) =
      atomicStep mc (run (atomicStep mc) (AtomicRun.init device) before) lr := by simp
  have finish : run (atomicStep mc) (AtomicRun.init device) (before ++ lr :: middle) =
      run (atomicStep mc) (run (atomicStep mc) (AtomicRun.init device) (before ++ [lr])) middle := by
    simp
  have held : Holds h addr (run (atomicStep mc)
      (run (atomicStep mc) (AtomicRun.init device) (before ++ [lr])) middle) := by
    rw [← finish]
    exact isSc_holds hooks (numbered _) bound isSc
  rw [← start] at keepsMiddle
  exact not_writesInto_run hooks bound (numbered _) reserved keepsMiddle rangeMiddle quiet held

/-- Hart 0 reserves the word at 0, hart 1 swaps it, and the SC of hart 0 fails; then hart 0
reserves it again and its SC succeeds. -/
theorem exclusive_run_swap :
    Exclusive (EmuConfig.ramOnly 0 0x1000 2) (AtomicRun.init ())
      [.atomic 0 0x100020af, .atomic 1 0x080020af, .atomic 0 0x180020af, .atomic 0 0x100020af,
        .atomic 0 0x180020af] := by
  have other : ∀ h, h < 2 → h ≠ 0 → h = 1 := by omega
  refine exclusive_run (EmuConfig.ramOnly 0 0x1000 2) (fun _ _ found => by cases found)
    (by decide) ()
    [.atomic 0 0x100020af, .atomic 1 0x080020af, .atomic 0 0x180020af, .atomic 0 0x100020af,
      .atomic 0 0x180020af] ?_ ⟨?_, ?_, ?_, ?_, ?_, trivial⟩
  · intro e member
    simp only [List.mem_cons, List.not_mem_nil, or_false] at member
    rcases member with rfl | rfl | rfl | rfl | rfl <;>
      (simp only [AtomicEvent.inRange]; decide)
  · intro _ h _ _ valid
    cases valid
  · intro _ h bound apart _ _
    have first : h = 0 := by
      have : h < 2 := bound
      omega
    rw [first]
    exact ⟨by decide, by decide +kernel⟩
  · intro _ h bound apart valid
    rw [other h bound apart] at valid
    exact absurd valid (by decide +kernel)
  · intro _ h bound apart valid
    rw [other h bound apart] at valid
    exact absurd valid (by decide +kernel)
  · intro _ h bound apart valid
    rw [other h bound apart] at valid
    exact absurd valid (by decide +kernel)

/-- Both harts reserve the word at 0; the SC of hart 1 stores to it, and then the
SC of hart 0 does too. -/
theorem exclusive_lost :
    ¬∀ (mc : EmuConfig Unit) (events : List (AtomicEvent Unit)), mc.HooksSpare →
      mc.cpuCount ≤ 2 ^ 64 → (∀ e ∈ events, e.inRange mc) →
        Exclusive mc (AtomicRun.init ()) events := by
  intro always
  have both := always (EmuConfig.ramOnly 0 0x1000 2)
    [.atomic 0 0x100020af, .atomic 1 0x100020af, .atomic 1 0x180020af, .atomic 0 0x180020af]
    (fun _ _ found => by cases found) (by decide) (by
      intro e member
      simp only [List.mem_cons, List.not_mem_nil, or_false] at member
      rcases member with rfl | rfl | rfl | rfl <;> (simp only [AtomicEvent.inRange]; decide))
    [] (.atomic 0 0x100020af) [.atomic 1 0x100020af, .atomic 1 0x180020af] (.atomic 0 0x180020af)
    [] rfl 0 0 4 ⟨0x100020af, rfl, by decide +kernel, by decide⟩
    (by
      refine ⟨?_, ?_, trivial⟩
      · intro w isLr
        rcases isLr with ⟨insn, same, _⟩
        cases same
      · intro w isLr
        rcases isLr with ⟨insn, same, _⟩
        cases same)
    ⟨0x180020af, rfl, by decide +kernel⟩
  exact both.2.1 ⟨1, 0x180020af, rfl, by decide, by decide +kernel, 0, by decide +kernel, by decide⟩

end Riscmulator
