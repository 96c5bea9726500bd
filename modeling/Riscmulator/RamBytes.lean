import Riscmulator.PageTables
import Riscmulator.RamBounds
import Riscmulator.Lib.Bytes

/-! The bytes that loads and stores of RAM move between memory and a buffer. -/

namespace Riscmulator

open Bytes

variable {δ : Type}

/-! ### Buffers -/

theorem byte_ramLoad (ram : U64 → U8) (idx : U64) {n i : Nat} (word : i < 8) :
    byte (ramLoad ram idx n) i = if i < n then ram (idx + BitVec.ofNat 64 i) else 0#8 := by
  apply BitVec.eq_of_getLsbD_eq
  intro j low
  have inWord : 8 * i + j < 64 := by omega
  have position : (8 * i + j) / 8 = i := by omega
  have offset : (8 * i + j) % 8 = j := by omega
  rw [getLsbD_byte, getLsbD_ramLoad ram n inWord, position, offset, decide_eq_true low,
    Bool.true_and]
  split
  · next inside =>
      have loaded : 8 * i + j < 8 * n := by omega
      rw [decide_eq_true loaded, Bool.true_and]
  · next outside =>
      have missing : ¬8 * i + j < 8 * n := by omega
      rw [decide_eq_false missing, Bool.false_and]
      exact BitVec.getLsbD_zero.symm

theorem byte_lowBytes (data : U64) {n i : Nat} (small : n ≤ 8) :
    byte (lowBytes data n) i = if i < n then byte data i else 0#8 := by
  have mask : ∀ k < 64, (bit (8 * n) - 1).getLsbD k = decide (k < 8 * n) := by
    intro k inside
    rcases Nat.lt_or_eq_of_le small with short | rfl
    · exact BitField.getLsbD_lowMask (by omega) k
    · have ones : bit (8 * 8) - 1 = BitVec.allOnes 64 := by decide
      rw [ones, BitVec.getLsbD_allOnes]
  apply BitVec.eq_of_getLsbD_eq
  intro j low
  rw [getLsbD_byte, lowBytes, BitVec.getLsbD_and]
  by_cases word : 8 * i + j < 64
  · rw [mask _ word]
    split
    · next inside =>
        have kept : 8 * i + j < 8 * n := by omega
        rw [getLsbD_byte, decide_eq_true kept, Bool.and_true]
    · next outside =>
        have cut : ¬8 * i + j < 8 * n := by omega
        rw [decide_eq_false cut, Bool.and_false, Bool.and_false]
        exact BitVec.getLsbD_zero.symm
  · have outside : ¬i < n := by omega
    rw [BitVec.getLsbD_of_ge data _ (by omega), if_neg outside, Bool.false_and, Bool.and_false]
    exact BitVec.getLsbD_zero.symm

/-- A buffer keeps its bytes past those replaced. -/
theorem byte_spliceLow (data val : U64) {n i : Nat} (word : i < 8)
    (rest : n ≤ i → byte val i = 0#8) :
    byte (spliceLow data val n) i = if i < n then byte val i else byte data i := by
  rw [spliceLow, byte_or]
  split
  · next replaced =>
      rw [byte_shiftLeft_low _ replaced, BitVec.zero_or]
  · next kept =>
      obtain ⟨k, rfl⟩ := Nat.exists_eq_add_of_le (not_lt.mp kept)
      rw [byte_shiftLeft _ (by omega), byte_ushiftRight, rest (not_lt.mp kept), BitVec.or_zero]

/-- A load replaces the first bytes of a buffer by those of RAM. -/
theorem byte_spliceLow_ramLoad (ram : U64 → U8) (data idx : U64) {n i : Nat} (word : i < 8) :
    byte (spliceLow data (ramLoad ram idx n) n) i =
      if i < n then ram (idx + BitVec.ofNat 64 i) else byte data i := by
  rw [byte_spliceLow data _ word, byte_ramLoad ram idx word]
  · split <;> rfl
  · intro rest
    rw [byte_ramLoad ram idx word, if_neg (not_lt.mpr rest)]

/-- The two parts that a buffer is cut into make it up again. -/
theorem shiftedBuffer_eq (data : U64) {n : Nat} (small : n ≤ 8) :
    (data >>> (8 * n)) <<< (8 * n) ||| lowBytes data n = data := by
  apply eq_of_byte (by decide : 64 ≤ 8 * 8)
  intro i word
  rw [byte_or, byte_lowBytes _ small]
  by_cases before : i < n
  · rw [byte_shiftLeft_low _ before, if_pos before, BitVec.zero_or]
  · obtain ⟨j, rfl⟩ := Nat.exists_eq_add_of_le (not_lt.mp before)
    rw [byte_shiftLeft _ (by omega), if_neg before, byte_ushiftRight, BitVec.or_zero]

/-! ### Stores -/

theorem ramStore_byte (ram : U64 → U8) (idx data : U64) {n i : Nat} (inside : i < n)
    (small : n ≤ 8) : ramStore ram idx data n (idx + BitVec.ofNat 64 i) = byte data i := by
  have position : (idx + BitVec.ofNat 64 i - idx).toNat = i := by bv_omega
  rw [ramStore, position, if_pos inside, byte]

theorem ramStore_other (ram : U64 → U8) (idx data : U64) {n : Nat} {j : U64}
    (outside : n ≤ (j - idx).toNat) : ramStore ram idx data n j = ram j :=
  if_neg (Nat.not_lt.mpr outside)

/-! ### Words -/

/-- The word of `n` bytes at an index of RAM. -/
def ramWord (ram : U64 → U8) (idx : U64) (n : Nat) : BitVec (8 * n) :=
  (ramLoad ram idx n).setWidth (8 * n)

theorem byte_ramWord (ram : U64 → U8) (idx : U64) {n i : Nat} (inside : i < n) (small : n ≤ 8) :
    byte (ramWord ram idx n) i = ram (idx + BitVec.ofNat 64 i) := by
  rw [ramWord, byte_setWidth _ (by omega), byte_ramLoad ram idx (by omega), if_pos inside]

theorem ramWord_ramStore (ram : U64 → U8) (idx data : U64) {n : Nat} (small : n ≤ 8) :
    ramWord (ramStore ram idx data n) idx n = data.setWidth (8 * n) := by
  apply eq_of_byte (Nat.le_refl _)
  intro i inside
  rw [byte_ramWord _ idx inside small, ramStore_byte ram idx data inside small,
    byte_setWidth _ (by omega)]

/-! ### Accesses that lie in RAM -/

theorem index_add (paddr start : U64) (k : Nat) :
    paddr + BitVec.ofNat 64 k - start = paddr - start + BitVec.ofNat 64 k := by
  bv_omega

section Whole

variable {mc : EmuConfig δ} {addr size : U64}

theorem ramTransfer_load {mode : RvAccess} (load : mode ≠ .store) (m : EmuMachine δ)
    (addr data len : U64) :
    ramTransfer mc m addr (some data) len mode =
      ⟨.ok, m, some (spliceLow data (ramLoad m.ram (addr - mc.ramStart) len.toNat) len.toNat),
        [⟨addr, len, true⟩]⟩ :=
  if_neg load

theorem ramTransfer_store (m : EmuMachine δ) (addr data len : U64) :
    ramTransfer mc m addr (some data) len .store =
      ⟨.ok, { m with ram := ramStore m.ram (addr - mc.ramStart) data len.toNat }, some data,
        [⟨addr, len, true⟩]⟩ := rfl

theorem ramTransfer_ok (mc : EmuConfig δ) (m : EmuMachine δ) (addr : U64) (data : Option U64)
    (len : U64) (mode : RvAccess) : (ramTransfer mc m addr data len mode).res = .ok := by
  cases data with
  | none => rfl
  | some d =>
      simp only [ramTransfer]
      split <;> rfl

/-- An access that lies in RAM is one transfer. -/
theorem misalignedAccess_whole (m : EmuMachine δ) (data : Option U64) (mode : RvAccess)
    (pos : 0 < size.toNat) (low : mc.ramStart ≤ addr)
    (high : addr.toNat + size.toNat ≤ mc.ramEnd.toNat) :
    misalignedAccess mc size.toNat m addr data size mode =
      ramTransfer mc m addr data size mode := by
  obtain ⟨fuel, enough⟩ : ∃ fuel, size.toNat = fuel + 1 := ⟨size.toNat - 1, by omega⟩
  have some' : size ≠ 0 := by bv_omega
  have ram : ramHoldsByte mc addr = true := by
    rw [ramHoldsByte, Bool.and_eq_true, decide_eq_true_iff, decide_eq_true_iff]
    constructor
    · exact low
    · bv_omega
  have clipped : clipPart addr size mc.ramEnd = size := by
    rw [clipPart, if_neg]
    bv_omega
  have rest : size - size = (0 : U64) := BitVec.sub_self size
  have ok := ramTransfer_ok mc m addr data size mode
  rw [enough, misalignedAccess_ram some' ram, clipped]
  simp only [rest, misalignedAccess_done, List.append_nil]
  rw [← ok]

theorem misalignedTwoPass_ram (mc : EmuConfig δ) (m : EmuMachine δ) (data : U64) (mode : RvAccess)
    (pos : 0 < size.toNat) (low : mc.ramStart ≤ addr)
    (high : addr.toNat + size.toNat ≤ mc.ramEnd.toNat) :
    misalignedTwoPass mc m addr data size mode = ramTransfer mc m addr (some data) size mode := by
  rw [misalignedTwoPass, misalignedAccess_whole m none mode pos low high, ramTransfer_null]
  exact misalignedAccess_whole m (some data) mode pos low high

end Whole

end Riscmulator
