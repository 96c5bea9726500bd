import Riscmulator.Atomics
import Riscmulator.Muldiv
import Riscmulator.RamBytes
import Riscmulator.Lib.Rva

/-! The read-modify-write operations of `rv_atomic_op` on RAM, against those of the A
extension. -/

namespace Riscmulator

variable {δ : Type}

/-! ### The width -/

theorem rvAtomicWidth_word {insn : U32} (word : rvInsnFunct3 insn = 2) : rvAtomicWidth insn = 4 :=
  if_pos word

theorem rvAtomicWidth_double {insn : U32} (double : rvInsnFunct3 insn = 3) :
    rvAtomicWidth insn = 8 := by
  rw [rvAtomicWidth, double]
  rfl

theorem rvAtomicSizeExp_width {insn : U32} (sized : rvInsnFunct3 insn = 2 ∨ rvInsnFunct3 insn = 3) :
    (bit (rvAtomicSizeExp insn).val).toNat = rvAtomicWidth insn := by
  rcases sized with word | double
  · rw [rvAtomicWidth_word word, rvAtomicSizeExp, word]
    rfl
  · rw [rvAtomicWidth_double double, rvAtomicSizeExp, double]
    rfl

/-! ### The new value -/

/-- The `funct5` of an operation. -/
def amoFunct5 : Rva.Op → BitVec 5
  | .swap => 0x01
  | .add => 0x00
  | .xor => 0x04
  | .or => 0x08
  | .and => 0x0C
  | .min => 0x10
  | .max => 0x14
  | .minu => 0x18
  | .maxu => 0x1C

theorem ofFunct5_some {funct5 : BitVec 5} {op : Rva.Op} (listed : Rva.ofFunct5 funct5 = some op) :
    funct5 = amoFunct5 op := by
  revert listed funct5
  cases op <;> decide

/-- An AMO computes its operation on the extended operands. -/
theorem rvAmoNewval_op {insn : U32} {op : Rva.Op} (code : rvInsnFunct5 insn = amoFunct5 op)
    (old rs2val : U64) :
    rvAmoNewval insn old rs2val =
      some (if rvInsnFunct3 insn = 2 then
        Rva.evalExtended op (zext32 old) (zext32 rs2val) (sext32 old) (sext32 rs2val)
      else Rva.evalExtended op old rs2val old rs2val) := by
  by_cases word : rvInsnFunct3 insn = 2
  · simp only [rvAmoNewval, code, if_pos word]
    cases op <;> rfl
  · simp only [rvAmoNewval, code, if_neg word]
    cases op <;> rfl

/-- A loaded word as a register value. -/
def amoOld (insn : U32) (loaded : U64) : U64 :=
  if rvInsnFunct3 insn = 2 then sext32 loaded else loaded

theorem amoOld_eq {insn : U32} (sized : rvInsnFunct3 insn = 2 ∨ rvInsnFunct3 insn = 3)
    (loaded : U64) :
    amoOld insn loaded = (loaded.setWidth (8 * rvAtomicWidth insn)).signExtend 64 := by
  rcases sized with word | double
  · rw [rvAtomicWidth_word word, amoOld, if_pos word]
    rfl
  · rw [rvAtomicWidth_double double, amoOld, double, if_neg (by decide), BitVec.setWidth_eq,
      BitVec.signExtend_eq]

theorem rvAmoNewval_width {insn : U32} {op : Rva.Op}
    (sized : rvInsnFunct3 insn = 2 ∨ rvInsnFunct3 insn = 3)
    (code : rvInsnFunct5 insn = amoFunct5 op) (loaded rs2val : U64) :
    ∃ newval, rvAmoNewval insn (amoOld insn loaded) rs2val = some newval ∧
      newval.setWidth (8 * rvAtomicWidth insn) =
        Rva.eval op (loaded.setWidth (8 * rvAtomicWidth insn))
          (rs2val.setWidth (8 * rvAtomicWidth insn)) := by
  refine ⟨_, rvAmoNewval_op code _ rs2val, ?_⟩
  rcases sized with word | double
  · have low : (sext32 loaded).setWidth 32 = loaded.setWidth 32 :=
      Words.setWidth_signExtend _ (by decide)
    have zeroed : zext32 (sext32 loaded) = (loaded.setWidth 32).setWidth 64 :=
      congrArg (BitVec.setWidth 64) low
    have signed : sext32 (sext32 loaded) = (loaded.setWidth 32).signExtend 64 :=
      congrArg (BitVec.signExtend 64) low
    rw [rvAtomicWidth_word word, amoOld, if_pos word, if_pos word, zeroed, signed]
    exact Rva.evalExtended_eq op (loaded.setWidth 32) (rs2val.setWidth 32) (by decide)
  · have wide := Rva.evalExtended_eq op loaded rs2val (Nat.le_refl 64)
    simp only [BitVec.setWidth_eq, BitVec.signExtend_eq] at wide
    rw [rvAtomicWidth_double double, amoOld, double, if_neg (by decide), if_neg (by decide)]
    simpa only [BitVec.setWidth_eq] using wide

/-! ### Bare accesses to RAM -/

section Access

variable {mc : EmuConfig δ} {m : EmuMachine δ} {h : Nat} {addr : U64} {sizeExp : Fin 4}
  {mode : RvAccess}

/-- A permitted access without translation, all of it in RAM, is one transfer. -/
theorem rvAccessVirt_ram (bare : rvIsBare (m.cpus h) mode = true)
    (permitted : doPmpCheck (m.cpus h) addr (bit sizeExp.val) mode = .ok)
    (inRam : ramHoldsRange mc addr (bit sizeExp.val) = true) (data : U64) :
    rvAccessVirt mc m h addr data sizeExp mode =
      ramTransfer mc m addr (some data) (bit sizeExp.val) mode := by
  rw [rvAccessVirt, rvAccessVirtBy, if_pos bare, rvAccessPhys, permitted, rvAccessPhysUnchecked,
    if_pos inRam]
  rfl

theorem ramHoldsRange_of_le {len : U64} (low : mc.ramStart ≤ addr)
    (high : addr.toNat + len.toNat ≤ mc.ramEnd.toNat) : ramHoldsRange mc addr len = true := by
  rw [ramHoldsRange, Bool.and_eq_true, decide_eq_true_iff, decide_eq_true_iff]
  constructor
  · exact low
  · bv_omega

end Access

/-! ### A whole operation -/

/-- `m'` is the machine after the operation on the word of `n` bytes at `addr`: the word
is replaced, `rd` holds what it was, reservations of the address are dropped, and the rest
is as before. -/
structure AmoDone (mc : EmuConfig δ) (m m' : EmuMachine δ) (h n : Nat) (op : Rva.Op)
    (addr rs2val : U64) (rd : BitVec 5) : Prop where
  stored : ramWord m'.ram (addr - mc.ramStart) n =
    Rva.eval op (ramWord m.ram (addr - mc.ramStart) n) (rs2val.setWidth (8 * n))
  kept : ∀ idx, n ≤ (idx - (addr - mc.ramStart)).toNat → m'.ram idx = m.ram idx
  result : m'.cpus h =
    rvXregWrite (m.cpus h) rd ((ramWord m.ram (addr - mc.ramStart) n).signExtend 64)
  harts : ∀ i ≠ h, m'.cpus i = m.cpus i
  reservations : m'.reservations = rvInvalReservations mc m.reservations addr
  others : m' = { m with ram := m'.ram, cpus := m'.cpus, reservations := m'.reservations }

section Operation

variable {mc : EmuConfig δ} {m : EmuMachine δ} {h : Nat} {insn : U32} {op : Rva.Op}

/-- An aligned AMO gets to its accesses. -/
theorem rvAtomicExec_amo (sized : rvInsnFunct3 insn = 2 ∨ rvInsnFunct3 insn = 3)
    (code : rvInsnFunct5 insn = amoFunct5 op)
    (aligned : (m.xreg h (rvInsnRs1 insn)).toNat % rvAtomicWidth insn = 0) :
    rvAtomicExec mc m h insn = rvAtomicAmo mc m h insn (m.xreg h (rvInsnRs1 insn)) := by
  have known : ¬(rvInsnFunct3 insn ≠ 2 ∧ rvInsnFunct3 insn ≠ 3) := by
    rintro ⟨noWord, noDouble⟩
    exact sized.elim noWord noDouble
  have masked : m.xreg h (rvInsnRs1 insn) &&& (if rvInsnFunct3 insn = 2 then 3 else 7) = 0 := by
    apply BitVec.eq_of_toNat_eq
    rw [BitVec.toNat_and]
    rcases sized with word | double
    · rw [if_pos word]
      rw [rvAtomicWidth_word word] at aligned
      exact (Nat.and_two_pow_sub_one_eq_mod _ 2).trans aligned
    · rw [double, if_neg (by decide)]
      rw [rvAtomicWidth_double double] at aligned
      exact (Nat.and_two_pow_sub_one_eq_mod _ 3).trans aligned
  have noLr : rvInsnFunct5 insn ≠ amoLr := by
    rw [code]
    cases op <;> decide
  have noSc : rvInsnFunct5 insn ≠ amoSc := by
    rw [code]
    cases op <;> decide
  simp only [rvAtomicExec]
  rw [if_neg known, if_neg (not_not.mpr masked), if_neg noLr, if_neg noSc]

/-- The two accesses of an AMO to RAM, and what it computes between them. -/
theorem rvAtomicAmo_ram {addr : U64} (sized : rvInsnFunct3 insn = 2 ∨ rvInsnFunct3 insn = 3)
    (code : rvInsnFunct5 insn = amoFunct5 op) (bare : rvIsBare (m.cpus h) .amo = true)
    (permitted : doPmpCheck (m.cpus h) addr (bit (rvAtomicSizeExp insn).val) .amo = .ok)
    (inRam : ramHoldsRange mc addr (bit (rvAtomicSizeExp insn).val) = true) :
    ∃ newval : U64, rvAtomicAmo mc m h insn addr =
        .amo { m with
            ram := ramStore m.ram (addr - mc.ramStart) newval (rvAtomicWidth insn)
            reservations := rvInvalReservations mc m.reservations addr }
          addr ((ramWord m.ram (addr - mc.ramStart) (rvAtomicWidth insn)).signExtend 64) ∧
      newval.setWidth (8 * rvAtomicWidth insn) =
        Rva.eval op (ramWord m.ram (addr - mc.ramStart) (rvAtomicWidth insn))
          ((m.xreg h (rvInsnRs2 insn)).setWidth (8 * rvAtomicWidth insn)) := by
  have storePermitted : doPmpCheck (m.cpus h) addr (bit (rvAtomicSizeExp insn).val) .store = .ok :=
    permitted
  have storeBare : rvIsBare (m.cpus h) .store = true := bare
  have width := rvAtomicSizeExp_width sized
  have buffer : spliceLow 0 (ramLoad m.ram (addr - mc.ramStart) (rvAtomicWidth insn))
      (rvAtomicWidth insn) = ramLoad m.ram (addr - mc.ramStart) (rvAtomicWidth insn) := by
    simp [spliceLow]
  have loads : rvAccessVirt mc m h addr 0 (rvAtomicSizeExp insn) .amo =
      ⟨.ok, m, some (ramLoad m.ram (addr - mc.ramStart) (rvAtomicWidth insn)),
        [⟨addr, bit (rvAtomicSizeExp insn).val, true⟩]⟩ := by
    rw [rvAccessVirt_ram bare permitted inRam, ← buffer, ← width]
    rfl
  obtain ⟨newval, computed, value⟩ := rvAmoNewval_width sized code
    (ramLoad m.ram (addr - mc.ramStart) (rvAtomicWidth insn)) (m.xreg h (rvInsnRs2 insn))
  have stores : rvAccessVirt mc m h addr newval (rvAtomicSizeExp insn) .store =
      ⟨.ok, { m with ram := ramStore m.ram (addr - mc.ramStart) newval (rvAtomicWidth insn) },
        some newval, [⟨addr, bit (rvAtomicSizeExp insn).val, true⟩]⟩ := by
    rw [rvAccessVirt_ram storeBare storePermitted inRam, ← width]
    rfl
  refine ⟨newval, ?_, value⟩
  have old := amoOld_eq sized (ramLoad m.ram (addr - mc.ramStart) (rvAtomicWidth insn))
  rw [ramWord, ← old]
  rw [amoOld] at computed ⊢
  simp only [rvAtomicAmo, loads, Option.getD_some, computed, stores, ne_eq, not_true_eq_false,
    if_false]

/-- Every AMO on an aligned word of RAM, with translation off and the access permitted,
is the operation of the A extension at its width. -/
theorem rvAtomicOp_amo (mc : EmuConfig δ) (m : EmuMachine δ) (h : Nat) (insn : U32) (op : Rva.Op)
    (sized : rvInsnFunct3 insn = 2 ∨ rvInsnFunct3 insn = 3)
    (listed : Rva.ofFunct5 (rvInsnFunct5 insn) = some op)
    (aligned : (m.xreg h (rvInsnRs1 insn)).toNat % rvAtomicWidth insn = 0)
    (low : mc.ramStart ≤ m.xreg h (rvInsnRs1 insn))
    (high : (m.xreg h (rvInsnRs1 insn)).toNat + rvAtomicWidth insn ≤ mc.ramEnd.toNat)
    (bare : rvIsBare (m.cpus h) .amo = true)
    (permitted : doPmpCheck (m.cpus h) (m.xreg h (rvInsnRs1 insn))
      (BitVec.ofNat 64 (rvAtomicWidth insn)) .amo = .ok) :
    AmoDone mc m (rvAtomicOp mc m h insn) h (rvAtomicWidth insn) op (m.xreg h (rvInsnRs1 insn))
      (m.xreg h (rvInsnRs2 insn)) (rvInsnRd insn) := by
  have code := ofFunct5_some listed
  have width := rvAtomicSizeExp_width sized
  have small : rvAtomicWidth insn ≤ 8 := by
    rw [rvAtomicWidth]
    split <;> decide
  have size : BitVec.ofNat 64 (rvAtomicWidth insn) = bit (rvAtomicSizeExp insn).val := by
    rw [← width, BitVec.ofNat_toNat, BitVec.setWidth_eq]
  rw [size] at permitted
  rw [← width] at high
  obtain ⟨newval, executed, value⟩ := rvAtomicAmo_ram sized code bare permitted
    (ramHoldsRange_of_le low high)
  rw [rvAtomicOp, rvAtomicExec_amo sized code aligned, executed]
  constructor
  · exact (ramWord_ramStore _ _ newval small).trans value
  · intro idx outside
    exact ramStore_other _ _ newval outside
  · exact EmuMachine.setCpu_same _ h _
  · intro i other
    exact EmuMachine.setCpu_other _ _ other
  · rfl
  · rfl

end Operation

/-- `amomin.w x3, x2, (x1)` on a zeroed word. -/
theorem rvAtomicOp_amo_minw :
    AmoDone (EmuConfig.ramOnly 0x80000000 0x1000 1) (registersMachine 0x80000010 0xFFFFFFFF)
      (rvAtomicOp (EmuConfig.ramOnly 0x80000000 0x1000 1) (registersMachine 0x80000010 0xFFFFFFFF)
        0 0x8020a1af) 0 4 .min 0x80000010 0xFFFFFFFF 3 :=
  rvAtomicOp_amo (EmuConfig.ramOnly 0x80000000 0x1000 1) (registersMachine 0x80000010 0xFFFFFFFF) 0
    0x8020a1af .min (by decide) (by decide) (by decide) (by decide) (by decide) (by decide +kernel)
    (by decide +kernel)

end Riscmulator
