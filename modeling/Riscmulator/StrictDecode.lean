import Riscmulator.Effects
import Riscmulator.Lib.Rv64

/-! Which encodings `rv_forcefeed_insn` rejects as illegal, against the encodings
that RV64IMA lists. -/

namespace Riscmulator

variable {δ : Type}

/-! ### Illegal instructions, observed -/

/-- Executing the word ends in an illegal-instruction exception: whatever the hooks
are, in that of the word on one machine. -/
def RaisesIllegal (mc : EmuConfig δ) (m : EmuMachine δ) (h : Nat) (insn : U32) : Prop :=
  ∃ m', ∀ hooks, rvForcefeedInsn (mc.hooked hooks) m h insn =
    rvDoIillegal (mc.hooked hooks) m' h insn

/-- Executing the word is nothing but its illegal-instruction exception, whatever
memory, devices and hooks there are. -/
def RejectsAtOnce (m : EmuMachine δ) (h : Nat) (insn : U32) : Prop :=
  ∀ mc : EmuConfig δ, rvForcefeedInsn mc m h insn = rvDoIillegal mc m h insn

/-- A listed word raises no illegal-instruction exception; another raises it at once. -/
def StrictlyDecoded (m : EmuMachine δ) (h : Nat) (insn : U32) (major : Rv64.Major) : Prop :=
  if Rv64.listed insn major then ∀ mc, ¬RaisesIllegal mc m h insn else RejectsAtOnce m h insn

/-- A hook on illegal instructions that sets the flag `aborted` to `mark`. -/
def markIllegal (mark : Bool) : Nat → Option (EmuMachine δ → Nat → RvTrap → Bool × EmuMachine δ) :=
  fun cause => if cause = 2 then some fun m _ _ => (false, { m with aborted := mark }) else none

theorem rvDoTrap_marks (mc : EmuConfig δ) (mark : Bool) (m : EmuMachine δ) (h : Nat)
    (epc tval : U64) :
    (rvDoTrap (mc.hooked (markIllegal mark)) m h
      { epc := epc, cause := RvCause.iillegal.code, tval := tval }).aborted = mark := by
  have exception : (RvTrap.mk epc tval RvCause.iillegal.code).isInterrupt = false := by
    have code : ¬RvCause.iillegal.code >>> 63 ≠ 0 := by decide
    exact decide_eq_false code
  have hooked : (mc.hooked (markIllegal mark)).trapHook RvCause.iillegal.code.toNat =
      some fun m _ _ => (false, { m with aborted := mark }) := rfl
  simp only [rvDoTrap, exception, hooked]
  rfl

theorem rvDoTrap_unmarked (mc : EmuConfig δ) (mark : Bool) (m : EmuMachine δ) (h : Nat)
    {trap : RvTrap} (other : trap.cause.toNat ≠ 2) :
    (rvDoTrap (mc.hooked (markIllegal mark)) m h trap).aborted = m.aborted := by
  simp only [rvDoTrap, EmuConfig.hooked, markIllegal, if_neg other, ite_self]
  rfl

/-- What executing a word comes to that is not rejected: work, or another trap
after it. -/
inductive Accepts (mc : EmuConfig δ) (m : EmuMachine δ) (h : Nat) : EmuMachine δ → Prop
  | data {m' : EmuMachine δ} (work : Work mc h m m') : Accepts mc m h m'
  | trap {m' : EmuMachine δ} (trap : RvTrap) (other : trap.cause.toNat ≠ 2)
      (work : Work mc h m m') : Accepts mc m h (rvDoTrap mc m' h trap)

theorem Accepts.aborted {mc : EmuConfig δ} {mark : Bool} {m m' : EmuMachine δ} {h : Nat}
    (accepts : Accepts (mc.hooked (markIllegal mark)) m h m') : m'.aborted = m.aborted := by
  cases accepts with
  | data work => exact work.dataStep.aborted
  | trap trap other work =>
      calc
        _ = _ := rvDoTrap_unmarked mc mark _ h other
        _ = _ := work.dataStep.aborted

section Observed

variable {mc : EmuConfig δ} {m : EmuMachine δ} {h : Nat} {insn : U32}

theorem not_raisesIllegal (accepts : ∀ hooks,
      Accepts (mc.hooked hooks) m h (rvForcefeedInsn (mc.hooked hooks) m h insn)) :
    ¬RaisesIllegal mc m h insn := by
  rintro ⟨m', raised⟩
  have marked : ∀ mark : Bool, mark = m.aborted := by
    intro mark
    calc
      mark = (rvDoIillegal (mc.hooked (markIllegal mark)) m' h insn).aborted :=
        (rvDoTrap_marks mc mark m' h _ _).symm
      _ = (rvForcefeedInsn (mc.hooked (markIllegal mark)) m h insn).aborted := by rw [raised]
      _ = m.aborted := (accepts (markIllegal mark)).aborted
  exact absurd ((marked true).trans (marked false).symm) (by decide)

theorem RejectsAtOnce.raises (rejects : RejectsAtOnce m h insn) (mc : EmuConfig δ) :
    RaisesIllegal mc m h insn :=
  ⟨m, fun hooks => rejects (mc.hooked hooks)⟩

end Observed

/-! ### Major opcodes -/

/-- The opcode field of the code, for each major opcode. -/
def opMajField : Rv64.Major → BitVec 5
  | .load => 0b00000
  | .opImm => 0b00100
  | .auipc => 0b00101
  | .opImm32 => 0b00110
  | .store => 0b01000
  | .amo => 0b01011
  | .op => 0b01100
  | .lui => 0b01101
  | .op32 => 0b01110
  | .branch => 0b11000
  | .jalr => 0b11001
  | .jal => 0b11011

/-- The code looks at the opcode without its two low bits. -/
theorem rvInsnOpMaj_eq (insn : U32) : rvInsnOpMaj insn = (Rv64.opcode insn).extractLsb' 2 5 := by
  apply BitVec.eq_of_getLsbD_eq
  intro i low
  simp [rvInsnOpMaj, Rv64.opcode, low]

theorem rvInsnOpMaj_of {insn : U32} {major : Rv64.Major} (form : Rv64.majorOf insn = some major) :
    rvInsnOpMaj insn = opMajField major := by
  have table : ∀ opcode : BitVec 7, ∀ entry ∈ Rv64.majors.lookup opcode,
      opcode.extractLsb' 2 5 = opMajField entry := by decide
  rw [rvInsnOpMaj_eq]
  exact table _ major form

/-! ### Handlers -/

section Handlers

variable {mc : EmuConfig δ} {m : EmuMachine δ} {h : Nat} {insn : U32}

theorem memCause_other (r : RvMemResult) (mode : RvAccess) :
    (rvMemCause r mode).code.toNat ≠ 2 := by
  cases r <;> cases mode <;> decide

theorem memTrap_accepts {m' : EmuMachine δ} (work : Work mc h m m') (r : RvMemResult)
    (mode : RvAccess) (addr : U64) : Accepts mc m h (rvMemTrap mc m' h r mode addr) :=
  .trap _ (memCause_other r mode) work

theorem writeXreg_accepts (index : BitVec 5) (value : U64) :
    Accepts mc m h (m.writeXreg h index value) := .data (Work.refl.writeXreg _ _)

theorem rvMuldivResult_none (insn : U32) (rs1 rs2 : U64) :
    rvMuldivResult insn rs1 rs2 = none ↔
      (rvInsnOpMaj insn).getLsbD 1 = true ∧ 1 ≤ rvInsnFunct3 insn ∧ rvInsnFunct3 insn ≤ 3 := by
  simp only [rvMuldivResult]
  split
  · next missing => exact iff_of_true rfl missing
  · next present => exact iff_of_false (by simp) present

/-- OP-32 lacks MULHW, MULHSUW and MULHUW, which are the words that `rv_base_op`
rejects. -/
theorem rvBaseOp_accepts (present : ¬((rvInsnOpMaj insn).getLsbD 3 = true ∧
      rvInsnFunct7 insn = 1 ∧ (rvInsnOpMaj insn).getLsbD 1 = true ∧ 1 ≤ rvInsnFunct3 insn ∧
        rvInsnFunct3 insn ≤ 3)) : Accepts mc m h (rvBaseOp mc m h insn) := by
  unfold rvBaseOp
  split
  · next muldiv =>
      unfold rvMuldivOp
      split
      · next missing =>
          exact absurd ⟨muldiv.1, muldiv.2, (rvMuldivResult_none _ _ _).mp missing⟩ present
      · exact writeXreg_accepts _ _
  · exact writeXreg_accepts _ _

theorem rvLoadSizeExp_none : ∀ funct3, rvLoadSizeExp funct3 = none ↔ funct3 = 7 := by decide

theorem rvBranchCond_none (funct3 : BitVec 3) (lhs rhs : U64) :
    rvBranchCond funct3 lhs rhs = none ↔ funct3 = 2 ∨ funct3 = 3 := by
  unfold rvBranchCond
  split
  · exact iff_of_false (Option.some_ne_none _) (by decide)
  · exact iff_of_false (Option.some_ne_none _) (by decide)
  · exact iff_of_false (Option.some_ne_none _) (by decide)
  · exact iff_of_false (Option.some_ne_none _) (by decide)
  · exact iff_of_false (Option.some_ne_none _) (by decide)
  · exact iff_of_false (Option.some_ne_none _) (by decide)
  · next eq ne lt ge ltu geu =>
      apply iff_of_true rfl
      revert funct3
      decide

theorem rvBaseLoad_accepts (integer : (rvInsnOpMaj insn).getLsbD 0 = false)
    (sized : rvInsnFunct3 insn ≠ 7) : Accepts mc m h (rvBaseLoad mc m h insn) := by
  simp only [rvBaseLoad, rvFpAccessIllegal, integer]
  split
  · next illegal => cases illegal
  split
  · next missing => exact absurd ((rvLoadSizeExp_none _).mp missing) sized
  · next sizeExp _ =>
      have loaded := rvAccessVirt_work mc m h (m.xreg h (rvInsnRs1 insn) + rvInsnImm12 insn) 0
        sizeExp .load
      split
      · exact memTrap_accepts loaded _ _ _
      split
      · next float => cases float
      · exact .data (loaded.writeXreg _ _)

theorem rvBaseStore_accepts (integer : (rvInsnOpMaj insn).getLsbD 0 = false) :
    Accepts mc m h (rvBaseStore mc m h insn) := by
  simp only [rvBaseStore, rvFpAccessIllegal, integer]
  generalize (if false = true then rvFregRead (m.cpus h) (rvInsnRs2 insn)
    else m.xreg h (rvInsnRs2 insn)) = wdata
  have stored := rvAccessVirt_work mc m h (m.xreg h (rvInsnRs1 insn) + rvInsnSImm12 insn)
    wdata (rvStoreSizeExp (rvInsnFunct3 insn)) .store
  split
  · next illegal => cases illegal
  split
  · exact memTrap_accepts stored _ _ _
  · exact .data stored

theorem rvBaseBranch_accepts (listed : ¬(rvInsnFunct3 insn = 2 ∨ rvInsnFunct3 insn = 3)) :
    Accepts mc m h (rvBaseBranch mc m h insn) := by
  unfold rvBaseBranch
  split
  · next missing => exact absurd ((rvBranchCond_none _ _ _).mp missing) listed
  · exact .data (Work.refl.setPc _)
  · exact .data .refl

/-! ### Atomics -/

/-- An atomic operation that comes to something else than an illegal instruction. -/
def AtomicOutcome.Accepted : AtomicOutcome δ → Prop
  | .iillegal _ => False
  | .trap _ raised => raised.cause.toNat ≠ 2
  | .lr _ _ _ | .sc _ _ _ | .amo _ _ _ => True

theorem rvAtomicOp_accepts (accepted : (rvAtomicExec mc m h insn).Accepted) :
    Accepts mc m h (rvAtomicOp mc m h insn) := by
  have executed : Work mc h m (rvAtomicExec mc m h insn).machine := rvAtomicExec_work
  unfold rvAtomicOp
  cases outcome : rvAtomicExec mc m h insn with
  | iillegal m' =>
      rw [outcome] at accepted
      cases accepted
  | trap m' trap =>
      rw [outcome] at executed accepted
      exact .trap trap accepted executed
  | lr m' addr val =>
      rw [outcome] at executed
      exact .data (executed.writeXreg _ _)
  | sc m' addr success =>
      rw [outcome] at executed
      exact .data (executed.writeXreg _ _)
  | amo m' addr old =>
      rw [outcome] at executed
      exact .data (executed.writeXreg _ _)

theorem rvAtomicFault_accepted (m' : EmuMachine δ) (r : RvMemResult) (mode : RvAccess)
    (addr : U64) :
    (rvAtomicFault m' h r mode addr).Accepted := memCause_other r mode

theorem rvAtomicLr_accepted (addr : U64) (listed : rvInsnRs2 insn = 0) :
    (rvAtomicLr mc m h insn addr).Accepted := by
  simp only [rvAtomicLr, listed]
  split
  · next other => exact absurd rfl other
  split
  · exact rvAtomicFault_accepted _ _ _ _
  · trivial

theorem rvAtomicSc_accepted (addr : U64) : (rvAtomicSc mc m h insn addr).Accepted := by
  simp only [rvAtomicSc]
  split
  · split
    · exact rvAtomicFault_accepted _ _ _ _
    · trivial
  · trivial

/-- An AMO is accepted if its `funct5` is listed, and also if its load fails. -/
theorem rvAtomicAmo_accepted (addr : U64)
    (listed : (rvAccessVirt mc m h addr 0 (rvAtomicSizeExp insn) .amo).res = .ok →
      ∀ old rs2val, rvAmoNewval insn old rs2val ≠ none) :
    (rvAtomicAmo mc m h insn addr).Accepted := by
  simp only [rvAtomicAmo]
  split
  · exact rvAtomicFault_accepted _ _ _ _
  next ok =>
  split
  · next missing => exact absurd missing (listed (not_not.mp ok) _ _)
  · split
    · exact rvAtomicFault_accepted _ _ _ _
    · trivial

/-- The operand of an atomic instruction is aligned. -/
def AtomicAligned (m : EmuMachine δ) (h : Nat) (insn : U32) : Prop :=
  m.xreg h (rvInsnRs1 insn) &&& (if rvInsnFunct3 insn = 2 then 3 else 7) = 0

theorem rvAtomicExec_accepted (sized : rvInsnFunct3 insn = 2 ∨ rvInsnFunct3 insn = 3)
    (lr : AtomicAligned m h insn → rvInsnFunct5 insn = amoLr → rvInsnRs2 insn = 0)
    (amo : AtomicAligned m h insn → rvInsnFunct5 insn ≠ amoLr → rvInsnFunct5 insn ≠ amoSc →
      (rvAccessVirt mc m h (m.xreg h (rvInsnRs1 insn)) 0 (rvAtomicSizeExp insn) .amo).res = .ok →
        ∀ old rs2val, rvAmoNewval insn old rs2val ≠ none) :
    (rvAtomicExec mc m h insn).Accepted := by
  simp only [rvAtomicExec]
  unfold AtomicAligned at lr amo
  generalize (if rvInsnFunct3 insn = 2 then (3 : U64) else 7) = alignMask at lr amo ⊢
  split
  · next unsized => exact absurd sized (not_or.mpr unsized)
  split
  · simp only [AtomicOutcome.Accepted]
    split <;> decide
  next start =>
  have aligned := not_not.mp start
  split
  · next isLr => exact rvAtomicLr_accepted _ (lr aligned isLr)
  next notLr =>
  split
  · exact rvAtomicSc_accepted _
  · next notSc => exact rvAtomicAmo_accepted _ (amo aligned notLr notSc)

theorem rvAmoNewval_listed (listed : rvInsnFunct5 insn ∈ Rv64.amoForms)
    (other : rvInsnFunct5 insn ≠ amoSc) (old rs2val : U64) :
    rvAmoNewval insn old rs2val ≠ none := by
  simp only [rvAmoNewval]
  generalize rvInsnFunct5 insn = funct5 at listed other
  split
  · exact Option.some_ne_none _
  · exact Option.some_ne_none _
  · exact Option.some_ne_none _
  · exact Option.some_ne_none _
  · exact Option.some_ne_none _
  · exact Option.some_ne_none _
  · exact Option.some_ne_none _
  · exact Option.some_ne_none _
  · exact Option.some_ne_none _
  · next swap add xor or and min max minu maxu =>
      revert funct5
      decide

end Handlers

/-! ### Dispatch -/

/-- The handler that the code gives a word of each major opcode. -/
def majorHandler (mc : EmuConfig δ) (m : EmuMachine δ) (h : Nat) (insn : U32) :
    Rv64.Major → EmuMachine δ
  | .op | .opImm | .op32 | .opImm32 => rvBaseOp mc m h insn
  | .load => rvBaseLoad mc m h insn
  | .store => rvBaseStore mc m h insn
  | .branch => rvBaseBranch mc m h insn
  | .jal => rvBaseJal m h insn
  | .jalr => rvBaseJalr m h insn
  | .lui | .auipc => rvBaseLui m h insn
  | .amo => rvAtomicOp mc m h insn

section Dispatch

variable {mc : EmuConfig δ} {m : EmuMachine δ} {h : Nat} {insn : U32} {major : Rv64.Major}

theorem rvForcefeedInsn_handler (form : Rv64.majorOf insn = some major) :
    rvForcefeedInsn mc m h insn = majorHandler mc m h insn major := by
  simp only [rvForcefeedInsn, rvOpMajOf, rvInsnOpMaj_of form]
  cases major <;> rfl

theorem opMaj_bit (form : Rv64.majorOf insn = some major) (i : Nat) :
    (rvInsnOpMaj insn).getLsbD i = (opMajField major).getLsbD i := by
  rw [rvInsnOpMaj_of form]

end Dispatch

/-! ### The words that are screened -/

/-- Whether the code, given an unlisted word of this major opcode, tests for it
before anything else. -/
def Screened (m : EmuMachine δ) (h : Nat) (insn : U32) : Rv64.Major → Prop
  | .load | .branch => True
  | .op32 => Rv64.funct7 insn = 1
  | .amo =>
      (Rv64.funct3 insn ≠ 2 ∧ Rv64.funct3 insn ≠ 3) ∨
        (Rv64.funct5 insn = Rv64.lrFunct5 ∧ AtomicAligned m h insn)
  | _ => False

/-- No word of four or eight bytes is in RAM or in a device. -/
structure EmuConfig.NoMemory (mc : EmuConfig δ) : Prop where
  ram : ∀ addr sizeExp, 2 ≤ sizeExp.val → ramHoldsRange mc addr (bit (sizeExp : Fin 4).val) = false
  devices : mc.mmio = []

theorem umod_of_and_zero {addr mask size : U64} {n : Nat} (low : mask.toNat = 2 ^ n - 1)
    (power : size.toNat = 2 ^ n) (aligned : addr &&& mask = 0) : addr % size = 0 := by
  apply BitVec.eq_of_toNat_eq
  calc
    (addr % size).toNat = addr.toNat % 2 ^ n := by rw [BitVec.toNat_umod, power]
    _ = (addr &&& mask).toNat := by rw [BitVec.toNat_and, low, Nat.and_two_pow_sub_one_eq_mod]
    _ = _ := congrArg BitVec.toNat aligned

theorem AtomicAligned.umod {m : EmuMachine δ} {h : Nat} {insn : U32}
    (aligned : AtomicAligned m h insn) :
    m.xreg h (rvInsnRs1 insn) % bit (rvAtomicSizeExp insn).val = 0 := by
  unfold AtomicAligned at aligned
  unfold rvAtomicSizeExp
  split at aligned
  · next word =>
      rw [if_pos word]
      exact umod_of_and_zero (n := 2) (by decide) (by decide) aligned
  · next double =>
      rw [if_neg double]
      exact umod_of_and_zero (n := 3) (by decide) (by decide) aligned

/-- Where there is no memory, an atomic access of an aligned operand fails. -/
theorem EmuConfig.NoMemory.atomic {mc : EmuConfig δ} (none : mc.NoMemory) {m : EmuMachine δ}
    {h : Nat} {insn : U32} (bare : rvIsBare (m.cpus h) .load = true)
    (aligned : AtomicAligned m h insn) :
    (rvAccessVirt mc m h (m.xreg h (rvInsnRs1 insn)) 0 (rvAtomicSizeExp insn) .amo).res ≠ .ok := by
  have physical : rvIsBare (m.cpus h) .amo = true := bare
  have size : 2 ≤ (rvAtomicSizeExp insn).val := by
    unfold rvAtomicSizeExp
    split <;> decide
  rw [rvAccessVirt, rvAccessVirtBy, if_pos physical, rvAccessPhys]
  split
  · next denied =>
      rw [Bool.and_eq_true] at denied
      exact of_decide_eq_true denied.2
  · rw [rvAccessPhysUnchecked]
    simp only [none.ram _ _ size, aligned.umod, none.devices]
    simp

theorem amoListed_iff (insn : U32) :
    Rv64.listed insn .amo = true ↔ (rvInsnFunct3 insn = 2 ∨ rvInsnFunct3 insn = 3) ∧
      (rvInsnFunct5 insn ∈ Rv64.amoForms ∨
        (rvInsnFunct5 insn = amoLr ∧ rvInsnRs2 insn = 0)) := by
  simp only [Rv64.listed, Bool.and_eq_true, Bool.or_eq_true, decide_eq_true_eq, List.mem_cons,
    List.not_mem_nil, or_false]
  exact Iff.rfl

theorem loadForms_iff : ∀ funct3, funct3 ∈ Rv64.loadForms ↔ funct3 ≠ 7 := by decide

theorem branchForms_iff : ∀ funct3, funct3 ∈ Rv64.branchForms ↔ ¬(funct3 = 2 ∨ funct3 = 3) := by
  decide

theorem mulW_forms : ∀ form ∈ Rv64.opWForms ++ Rv64.mulWForms, form.1 = 1 →
    ¬(1 ≤ form.2 ∧ form.2 ≤ 3) := by decide +kernel

section Verdicts

variable {mc : EmuConfig δ} {m : EmuMachine δ} {h : Nat} {insn : U32} {major : Rv64.Major}

/-- A listed word is accepted, and so is an unlisted one that is not screened,
where an AMO finds no memory. -/
theorem rvForcefeedInsn_accepts (form : Rv64.majorOf insn = some major)
    (bare : rvIsBare (m.cpus h) .load = true)
    (passes : Rv64.listed insn major = true ∨ (¬Screened m h insn major ∧ mc.NoMemory)) :
    Accepts mc m h (rvForcefeedInsn mc m h insn) := by
  have bits := opMaj_bit form
  rw [rvForcefeedInsn_handler form]
  cases major with
  | op =>
      apply rvBaseOp_accepts
      rintro ⟨_, _, word, _⟩
      rw [bits] at word
      cases word
  | opImm =>
      apply rvBaseOp_accepts
      rintro ⟨reg, _⟩
      rw [bits] at reg
      cases reg
  | opImm32 =>
      apply rvBaseOp_accepts
      rintro ⟨reg, _⟩
      rw [bits] at reg
      cases reg
  | op32 =>
      apply rvBaseOp_accepts
      rintro ⟨_, mul, _, missing⟩
      rcases passes with listed | ⟨notScreened, _⟩
      · exact mulW_forms _ (of_decide_eq_true listed) mul missing
      · exact notScreened mul
  | load =>
      apply rvBaseLoad_accepts (bits 0)
      rcases passes with listed | ⟨notScreened, _⟩
      · exact (loadForms_iff _).mp (of_decide_eq_true listed)
      · exact absurd trivial notScreened
  | store => exact rvBaseStore_accepts (bits 0)
  | branch =>
      apply rvBaseBranch_accepts
      rcases passes with listed | ⟨notScreened, _⟩
      · exact (branchForms_iff _).mp (of_decide_eq_true listed)
      · exact absurd trivial notScreened
  | jal => exact .data ((Work.refl.writeXreg _ _).setPc _)
  | jalr => exact .data ((Work.refl.writeXreg _ _).setPc _)
  | lui => exact .data (Work.refl.writeXreg _ _)
  | auipc => exact .data (Work.refl.writeXreg _ _)
  | amo =>
      apply rvAtomicOp_accepts
      rcases passes with listed | ⟨notScreened, none⟩
      · obtain ⟨sized, listed⟩ := (amoListed_iff insn).mp listed
        apply rvAtomicExec_accepted sized
        · intro _ isLr
          rcases listed with other | lr
          · rw [isLr] at other
            exact absurd other (by decide)
          · exact lr.2
        · intro _ notLr notSc _
          exact rvAmoNewval_listed (listed.resolve_right fun lr => notLr lr.1) notSc
      · obtain ⟨sized, notLr⟩ := not_or.mp notScreened
        rw [not_and_or, not_not, not_not] at sized
        apply rvAtomicExec_accepted sized
        · intro aligned isLr
          exact absurd ⟨isLr, aligned⟩ notLr
        · intro aligned _ _ ok
          exact absurd ok (none.atomic bare aligned)

theorem rvAtomicExec_rejects (unlisted : ¬Rv64.listed insn .amo = true)
    (screened : Screened m h insn .amo) : rvAtomicExec mc m h insn = .iillegal m := by
  rw [amoListed_iff] at unlisted
  by_cases sized : rvInsnFunct3 insn = 2 ∨ rvInsnFunct3 insn = 3
  · have lr : rvInsnFunct5 insn = amoLr ∧ AtomicAligned m h insn :=
      screened.resolve_left fun unsized => not_or.mpr unsized sized
    obtain ⟨isLr, aligned⟩ := lr
    have source : rvInsnRs2 insn ≠ 0 := fun zero => unlisted ⟨sized, Or.inr ⟨isLr, zero⟩⟩
    unfold AtomicAligned at aligned
    simp only [rvAtomicExec]
    rw [if_neg (not_and_or.mpr (sized.imp not_not.mpr not_not.mpr)), if_neg (not_not.mpr aligned),
      if_pos isLr, rvAtomicLr, if_pos source]
  · simp only [rvAtomicExec]
    rw [if_pos (not_or.mp sized)]

/-- An unlisted word that is screened is rejected at once. -/
theorem rvForcefeedInsn_rejects (form : Rv64.majorOf insn = some major)
    (unlisted : ¬Rv64.listed insn major = true) (screened : Screened m h insn major) :
    rvForcefeedInsn mc m h insn = rvDoIillegal mc m h insn := by
  have bits := opMaj_bit form
  rw [rvForcefeedInsn_handler form]
  cases major with
  | load =>
      have reserved : rvInsnFunct3 insn = 7 := by
        by_contra sized
        exact unlisted (decide_eq_true ((loadForms_iff _).mpr sized))
      simp only [majorHandler, rvBaseLoad, (rvLoadSizeExp_none _).mpr reserved, ite_self]
  | branch =>
      have reserved : rvInsnFunct3 insn = 2 ∨ rvInsnFunct3 insn = 3 := by
        by_contra cond
        exact unlisted (decide_eq_true ((branchForms_iff _).mpr cond))
      simp only [majorHandler, rvBaseBranch, (rvBranchCond_none _ _ _).mpr reserved]
  | op32 =>
      have missing : ∀ funct3 : BitVec 3,
          ((1 : BitVec 7), funct3) ∉ Rv64.opWForms ++ Rv64.mulWForms →
            1 ≤ funct3 ∧ funct3 ≤ 3 := by decide
      have mul : rvInsnFunct7 insn = 1 := screened
      have reserved : 1 ≤ rvInsnFunct3 insn ∧ rvInsnFunct3 insn ≤ 3 := by
        apply missing
        intro member
        rw [← mul] at member
        exact unlisted (decide_eq_true member)
      have none : rvMuldivResult insn (m.xreg h (rvInsnRs1 insn)) (m.xreg h (rvInsnRs2 insn)) =
          none := (rvMuldivResult_none _ _ _).mpr ⟨bits 1, reserved⟩
      rw [majorHandler, rvBaseOp, if_pos ⟨bits 3, mul⟩, rvMuldivOp, none]
  | amo =>
      rw [majorHandler, rvAtomicOp, rvAtomicExec_rejects unlisted screened]
  | op => cases screened
  | opImm => cases screened
  | opImm32 => cases screened
  | store => cases screened
  | jal => cases screened
  | jalr => cases screened
  | lui => cases screened
  | auipc => cases screened

end Verdicts

/-- A machine without RAM and devices. -/
def EmuConfig.bare : EmuConfig δ where
  ramStart := BitVec.allOnes 64
  ramEnd := 0
  cpuCount := 1
  mmio := []
  trapHook := fun _ => none
  rvFloatExactMath := false
  fpu := default
  softfloat := default

theorem EmuConfig.bare_noMemory
    (hooks : Nat → Option (EmuMachine δ → Nat → RvTrap → Bool × EmuMachine δ)) :
    (EmuConfig.bare.hooked hooks).NoMemory := by
  refine ⟨?_, rfl⟩
  intro addr sizeExp large
  have empty : ∀ sizeExp : Fin 4, 2 ≤ sizeExp.val →
      ¬BitVec.allOnes 64 + bit sizeExp.val ≤ 0 := by decide
  rw [ramHoldsRange, Bool.and_eq_false_iff]
  by_cases last : addr = BitVec.allOnes 64
  · subst last
    exact Or.inr (decide_eq_false (empty sizeExp large))
  · apply Or.inl
    apply decide_eq_false
    intro above
    exact last (BitVec.allOnes_le_iff.mp above)

/-- With translation off, the code decodes a word strictly exactly if the word is
listed, or screened. -/
theorem strictlyDecoded_iff (m : EmuMachine δ) (h : Nat) (insn : U32) (major : Rv64.Major)
    (form : Rv64.majorOf insn = some major) (bare : rvIsBare (m.cpus h) .load = true) :
    StrictlyDecoded m h insn major ↔ Rv64.listed insn major = true ∨ Screened m h insn major := by
  unfold StrictlyDecoded
  split
  · next listed =>
      apply iff_of_true _ (Or.inl listed)
      intro mc
      exact not_raisesIllegal fun _ => rvForcefeedInsn_accepts form bare (Or.inl listed)
  · next unlisted =>
      constructor
      · intro rejects
        by_contra passes
        have notScreened := (not_or.mp passes).2
        have raised : RaisesIllegal EmuConfig.bare m h insn := rejects.raises EmuConfig.bare
        apply not_raisesIllegal _ raised
        intro hooks
        exact rvForcefeedInsn_accepts form bare
          (Or.inr ⟨notScreened, EmuConfig.bare_noMemory hooks⟩)
      · intro passes mc
        exact rvForcefeedInsn_rejects form unlisted (passes.resolve_left unlisted)

/-- MULHW is not listed, and is rejected. -/
theorem strictlyDecoded_iff_mulhw : StrictlyDecoded (emuMachineInit ()) 0 0x022090bb .op32 :=
  (strictlyDecoded_iff (emuMachineInit ()) 0 0x022090bb .op32 (by decide) (by decide +kernel)).mpr
    (Or.inr (by decide : Rv64.funct7 0x022090bb = 1))

/-- OP with `funct7 = 2` is not listed, and executes as ADD. -/
theorem strictlyDecoded_funct7 :
    ¬∀ (m : EmuMachine Unit) (h : Nat) (insn : U32) (major : Rv64.Major),
      Rv64.majorOf insn = some major → rvIsBare (m.cpus h) .load = true →
        StrictlyDecoded m h insn major := by
  intro always
  have decoded := always (emuMachineInit ()) 0 0x04208133 .op (by decide) (by decide +kernel)
  rw [StrictlyDecoded, if_neg (by decide)] at decoded
  have cause := congrArg (fun m => (m.cpus 0).csr.mcause) (decoded (EmuConfig.ramOnly 0 0x1000 1))
  exact absurd cause (by decide +kernel)

end Riscmulator
