import Riscmulator.Lib.Bytes
import Riscmulator.Lib.Hart

/-! Programs that lie in the memory of a hart as 32-bit words. -/

namespace Rv64

open Bytes

/-! ### Memory from a list of bytes -/

/-- The bytes of a list, from an address on. -/
def Memory.ofBytes (base : BitVec 64) (bytes : List (BitVec 8)) : Memory where
  byte := fun a => bytes[(a - base).toNat]?
  fixed := fun _ => false

theorem Memory.ofBytes_byte (base : BitVec 64) (bytes : List (BitVec 8)) {i : Nat}
    (small : i < 2 ^ 64) :
    (Memory.ofBytes base bytes).byte (base + BitVec.ofNat 64 i) = bytes[i]? := by
  have position : (base + BitVec.ofNat 64 i - base).toNat = i := by bv_omega
  simp only [Memory.ofBytes, position]

/-- A byte that is loaded is the register value of its low bits. -/
theorem Memory.load_byte {mem : Memory} {a : BitVec 64} {value : BitVec 8}
    (present : mem.byte a = some value) : mem.load a 1 = some (value.setWidth 64) := by
  simp [Memory.load, present]

/-! ### Code -/

/-- The words of a program lie at `base`. -/
def CodeAt (mem : Memory) (base : BitVec 64) (words : List (BitVec 32)) : Prop :=
  ∀ k word, words[k]? = some word → ∀ i < 4,
    mem.byte (base + BitVec.ofNat 64 (4 * k + i)) = some (byte word i)

def wordBytes (word : BitVec 32) : List (BitVec 8) := (List.range 4).map (byte word)

def codeBytes (words : List (BitVec 32)) : List (BitVec 8) := words.flatMap wordBytes

theorem length_codeBytes (words : List (BitVec 32)) :
    (codeBytes words).length = 4 * words.length := by
  induction words with
  | nil => rfl
  | cons word words ih =>
      rw [codeBytes, List.flatMap_cons, List.length_append, ← codeBytes, ih, wordBytes,
        List.length_map, List.length_range, List.length_cons]
      omega

theorem getElem?_codeBytes {words : List (BitVec 32)} (rest : List (BitVec 8)) {k i : Nat}
    {word : BitVec 32} (placed : words[k]? = some word) (inside : i < 4) :
    (codeBytes words ++ rest)[4 * k + i]? = some (byte word i) := by
  induction words generalizing k with
  | nil => cases placed
  | cons first words ih =>
      have front : (wordBytes first).length = 4 := by
        rw [wordBytes, List.length_map, List.length_range]
      rw [codeBytes, List.flatMap_cons, List.append_assoc, ← codeBytes]
      cases k with
      | zero =>
          cases placed
          rw [Nat.mul_zero, Nat.zero_add, List.getElem?_append_left (by omega), wordBytes,
            List.getElem?_map, List.getElem?_range inside]
          rfl
      | succ k =>
          rw [List.getElem?_append_right (by omega), front]
          have position : 4 * (k + 1) + i - 4 = 4 * k + i := by omega
          rw [position]
          exact ih placed

theorem codeAt_ofBytes (base : BitVec 64) {words : List (BitVec 32)} (rest : List (BitVec 8))
    (small : 4 * words.length < 2 ^ 64) :
    CodeAt (Memory.ofBytes base (codeBytes words ++ rest)) base words := by
  intro k word placed i inside
  have within : k < words.length := (List.getElem?_eq_some_iff.mp placed).1
  rw [Memory.ofBytes_byte base _ (by omega), getElem?_codeBytes rest placed inside]

section Code

variable {mem : Memory} {base : BitVec 64} {words : List (BitVec 32)} {s : Hart} {k : Nat}
  {word : BitVec 32} {expand : BitVec 16 → Option (BitVec 32)}

/-- Two bytes of a word are loaded as its bits. -/
theorem load_pair {a : BitVec 64} {j : Nat} (first : mem.byte a = some (byte word j))
    (second : mem.byte (a + 1) = some (byte word (j + 1))) :
    ∃ value, mem.load a 2 = some value ∧ value.setWidth 16 = (word >>> (8 * j)).setWidth 16 := by
  refine ⟨(byte word j).setWidth 64 ||| ((byte word (j + 1)).setWidth 64 <<< 8), ?_, ?_⟩
  · simp only [Memory.load, first, second, Option.bind_some, Option.map_some]
    simp
  · apply BitVec.eq_of_getLsbD_eq
    intro i inside
    simp only [BitVec.getLsbD_setWidth, BitVec.getLsbD_or, BitVec.getLsbD_shiftLeft, getLsbD_byte,
      BitVec.getLsbD_ushiftRight]
    by_cases low : i < 8
    · simp [low, inside, show i < 64 by omega]
    · have position : 8 * (j + 1) + (i - 8) = 8 * j + i := by omega
      simp [low, inside, position, show i < 64 by omega, show i - 8 < 8 by omega,
        show i - 8 < 64 by omega]

/-- The next word of a program is fetched whole. -/
theorem CodeAt.fetch (code : CodeAt s.mem base words)
    (pc : s.pc = base + BitVec.ofNat 64 (4 * k)) (placed : words[k]? = some word)
    (long : word.extractLsb' 0 2 = 3) : s.fetch expand = some (word, 4) := by
  have bytes : ∀ i < 4, s.mem.byte (s.pc + BitVec.ofNat 64 i) = some (byte word i) := by
    intro i inside
    rw [pc, BitVec.add_assoc, ← BitVec.ofNat_add]
    exact code k word placed i inside
  have start : s.mem.byte s.pc = some (byte word 0) := by simpa using bytes 0 (by decide)
  have last : s.mem.byte (s.pc + 2 + 1) = some (byte word 3) := by
    rw [BitVec.add_assoc]
    exact bytes 3 (by decide)
  obtain ⟨low, loadsLow, lowBits⟩ := load_pair start (bytes 1 (by decide))
  obtain ⟨high, loadsHigh, highBits⟩ := load_pair (a := s.pc + 2) (bytes 2 (by decide)) last
  have quadrant : (word.setWidth 16).extractLsb' 0 2 = (3 : BitVec 2) := by
    rw [← long]
    apply BitVec.eq_of_getLsbD_eq
    intro i inside
    simp [inside, show i < 16 by omega]
  have whole : (word.setWidth 16).setWidth 32 |||
      (((word >>> 16).setWidth 16).setWidth 32 <<< 16) = word := by
    apply BitVec.eq_of_getLsbD_eq
    intro i inside
    simp only [BitVec.getLsbD_or, BitVec.getLsbD_setWidth, BitVec.getLsbD_shiftLeft,
      BitVec.getLsbD_ushiftRight]
    by_cases low : i < 16
    · simp [low, inside]
    · have position : 16 + (i - 16) = i := by omega
      simp [low, inside, position, show i - 16 < 16 by omega, show i - 16 < 32 by omega]
  have lowWord : low.setWidth 16 = word.setWidth 16 := by
    rw [lowBits, Nat.mul_zero, BitVec.ushiftRight_zero]
  simp only [Hart.fetch, loadsLow, loadsHigh, Option.bind_some, Option.map_some, lowWord, highBits,
    quadrant, ne_eq, not_true_eq_false, if_false, whole]

/-- A step of a hart at a word of the program executes the instruction it encodes. -/
theorem CodeAt.step (code : CodeAt s.mem base words)
    (pc : s.pc = base + BitVec.ofNat 64 (4 * k)) (placed : words[k]? = some word)
    (long : word.extractLsb' 0 2 = 3) {i : Instr} (decoded : decode word = some i) :
    s.step expand = i.exec s (s.pc + 4) := by
  rw [Hart.step, code.fetch pc placed long, Option.bind_some, decoded, Option.bind_some]

end Code

end Rv64
