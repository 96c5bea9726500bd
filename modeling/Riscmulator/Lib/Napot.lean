import Mathlib.Data.Set.Basic
import Mathlib.Data.BitVec
import Riscmulator.Lib.BitField

/-! Naturally aligned power-of-two regions, encoded by the low ones of a word:
`v` with `n` low ones stands for the `2 ^ (n + 3)` bytes around `4 * v`. -/

namespace Napot

variable {w : Nat}

/-! ### Low ones of a word -/

/-- Index of the lowest clear bit, `w` when there is none. -/
def trailingOnes (v : BitVec w) : Nat :=
  ((List.range w).find? fun i => !v.getLsbD i).getD w

theorem getLsbD_of_lt_trailingOnes {v : BitVec w} {i : Nat} (below : i < trailingOnes v) :
    v.getLsbD i = true := by
  unfold trailingOnes at below
  cases found : (List.range w).find? fun i => !v.getLsbD i with
  | none =>
      rw [found, Option.getD_none] at below
      simpa using List.find?_eq_none.mp found i (List.mem_range.mpr below)
  | some n =>
      rw [found, Option.getD_some] at below
      have first := (List.find?_range_eq_some.mp found).2.2 i below
      simpa using first

theorem getLsbD_trailingOnes (v : BitVec w) : v.getLsbD (trailingOnes v) = false := by
  unfold trailingOnes
  cases found : (List.range w).find? fun i => !v.getLsbD i with
  | none => exact BitVec.getLsbD_of_ge v _ (le_refl w)
  | some n => simpa using (List.find?_range_eq_some.mp found).1

theorem lt_trailingOnes_iff (v : BitVec w) (i : Nat) :
    i < trailingOnes v ↔ ∀ j ≤ i, v.getLsbD j = true := by
  constructor
  · intro below j le
    exact getLsbD_of_lt_trailingOnes (by omega)
  · intro ones
    by_contra above
    have clear := getLsbD_trailingOnes v
    rw [ones _ (by omega)] at clear
    cases clear

/-- The bits that a successor changes are the low ones and the zero above them. -/
theorem getLsbD_xor_succ (v : BitVec w) {i : Nat} (inside : i < w) :
    (v ^^^ (v + 1#w)).getLsbD i = decide (i ≤ trailingOnes v) := by
  rw [BitVec.getLsbD_xor, BitVec.getLsbD_add inside]
  cases i with
  | zero =>
      rw [BitVec.carry_zero, BitVec.getLsbD_one]
      simp [inside]
  | succ i =>
      have carries : BitVec.carry (i + 1) v 1#w false = decide (i < trailingOnes v) := by
        rw [BitVec.carry_succ_one i v (by omega)]
        exact decide_eq_decide.mpr (lt_trailingOnes_iff v i).symm
      rw [carries, BitVec.getLsbD_one]
      change _ = decide (i < trailingOnes v)
      simp

/-! ### Regions -/

/-- Log-base 2 of the size of a region. -/
def sizeExp (v : BitVec w) : Nat := trailingOnes v + 3

def region (v : BitVec w) : Set (BitVec w) :=
  {a | a.toNat / 2 ^ sizeExp v = (v <<< 2).toNat / 2 ^ sizeExp v}

instance (v a : BitVec w) : Decidable (a ∈ region v) :=
  inferInstanceAs (Decidable (a.toNat / 2 ^ sizeExp v = (v <<< 2).toNat / 2 ^ sizeExp v))

theorem mem_region_iff_bits (v a : BitVec w) :
    a ∈ region v ↔ ∀ i, sizeExp v ≤ i → a.getLsbD i = (v <<< 2).getLsbD i := by
  constructor
  · intro inside i above
    have same := congrArg (Nat.testBit · (i - sizeExp v)) (show _ / _ = _ / _ from inside)
    simp only [Nat.testBit_div_two_pow, Nat.sub_add_cancel above] at same
    exact same
  · intro agree
    apply Nat.eq_of_testBit_eq
    intro i
    rw [Nat.testBit_div_two_pow, Nat.testBit_div_two_pow]
    exact agree (i + sizeExp v) (by omega)

/-- A region is an interval: what lies between two of its addresses is inside. -/
theorem region_convex {v lo hi a : BitVec w} (first : lo ∈ region v) (last : hi ∈ region v)
    (above : lo.toNat ≤ a.toNat) (below : a.toNat ≤ hi.toNat) : a ∈ region v := by
  have lower : (v <<< 2).toNat / 2 ^ sizeExp v ≤ a.toNat / 2 ^ sizeExp v := by
    rw [← show lo.toNat / _ = _ from first]
    exact Nat.div_le_div_right above
  have upper : a.toNat / 2 ^ sizeExp v ≤ (v <<< 2).toNat / 2 ^ sizeExp v := by
    rw [← show hi.toNat / _ = _ from last]
    exact Nat.div_le_div_right below
  exact Nat.le_antisymm upper lower

/-- The start of a region's encoding with the bit just above the region flipped. -/
def across (v : BitVec w) : BitVec w := v <<< 2 ^^^ BitVec.twoPow w (sizeExp v)

theorem getLsbD_across {v : BitVec w} (inside : sizeExp v < w) (i : Nat) :
    (across v).getLsbD i = ((v <<< 2).getLsbD i ^^ decide (sizeExp v = i)) := by
  rw [across, BitVec.getLsbD_xor, BitVec.getLsbD_twoPow]
  by_cases here : sizeExp v = i
  · simp [inside]
  · simp [here]

theorem across_not_mem {v : BitVec w} (inside : sizeExp v < w) : across v ∉ region v := by
  intro member
  have crossed := (mem_region_iff_bits v _).mp member (sizeExp v) (le_refl _)
  rw [getLsbD_across inside, decide_eq_true rfl] at crossed
  cases bit : (v <<< 2).getLsbD (sizeExp v) <;> rw [bit] at crossed <;> cases crossed

/-! ### A granularity coarser than the encoding -/

/-- The word with its `g` low bits set. -/
def fill (v : BitVec w) (g : Nat) : BitVec w := v ||| (1#w <<< g - 1#w)

theorem getLsbD_fill (v : BitVec w) {g : Nat} (fits : g < w) (i : Nat) :
    (fill v g).getLsbD i = (v.getLsbD i || decide (i < g)) := by
  rw [fill, BitVec.getLsbD_or, BitField.getLsbD_lowMask fits]

theorem le_trailingOnes_fill (v : BitVec w) {g : Nat} (fits : g < w) :
    g ≤ trailingOnes (fill v g) := by
  by_contra small
  have clear := getLsbD_trailingOnes (fill v g)
  rw [getLsbD_fill v fits] at clear
  simp [show trailingOnes (fill v g) < g by omega] at clear

theorem fill_eq_self_iff (v : BitVec w) {g : Nat} (fits : g < w) :
    fill v g = v ↔ g ≤ trailingOnes v := by
  constructor
  · intro same
    rw [← same]
    exact le_trailingOnes_fill v fits
  · intro long
    apply BitVec.eq_of_getLsbD_eq
    intro i _
    rw [getLsbD_fill v fits]
    by_cases low : i < g
    · rw [getLsbD_of_lt_trailingOnes (show i < trailingOnes v by omega), Bool.true_or]
    · simp [low]

/-- Filling the low bits changes the region as soon as it changes the word. -/
theorem region_fill_iff (v : BitVec w) {g : Nat} (fits : g + 3 < w) :
    region (fill v g) = region v ↔ fill v g = v := by
  constructor
  · intro same
    by_contra changed
    have short : trailingOnes v < g := by
      by_contra long
      exact changed ((fill_eq_self_iff v (by omega)).mpr (by omega))
    have grown := le_trailingOnes_fill v (show g < w by omega)
    have inside : sizeExp v < w := by
      rw [sizeExp]
      omega
    apply across_not_mem inside
    rw [← same, mem_region_iff_bits]
    intro i above
    have past : sizeExp v < i ∧ g + 3 ≤ i := by
      rw [sizeExp] at above ⊢
      omega
    have high : ¬i - 2 < g := by omega
    have other : sizeExp v ≠ i := by omega
    rw [getLsbD_across inside, BitVec.getLsbD_shiftLeft, BitVec.getLsbD_shiftLeft,
      getLsbD_fill v (by omega)]
    simp [high, other]
  · intro same
    rw [same]

/-! ### Ranges of addresses -/

/-- The `n` addresses from `lo` on. -/
def span (lo n : BitVec w) : Set (BitVec w) :=
  {a | lo.toNat ≤ a.toNat ∧ a.toNat < lo.toNat + n.toNat}

/-- A range of at least one address that does not wrap. -/
structure Proper (lo n : BitVec w) : Prop where
  pos : 0 < n.toNat
  fits : lo.toNat + n.toNat ≤ 2 ^ w

def last (lo n : BitVec w) : BitVec w := lo + n - 1#w

theorem Proper.last_toNat {lo n : BitVec w} (proper : Proper lo n) :
    (last lo n).toNat = lo.toNat + n.toNat - 1 := by
  have pos := proper.pos
  have fits := proper.fits
  have some' : 1 < 2 ^ w := by
    have small := n.isLt
    omega
  rw [last, BitVec.toNat_sub, BitVec.toNat_add, BitVec.toNat_ofNat, Nat.mod_eq_of_lt some']
  rcases Nat.lt_or_ge (lo.toNat + n.toNat) (2 ^ w) with inside | top
  · rw [Nat.mod_eq_of_lt inside]
    have shift : 2 ^ w - 1 + (lo.toNat + n.toNat) = lo.toNat + n.toNat - 1 + 2 ^ w := by omega
    rw [shift, Nat.add_mod_right, Nat.mod_eq_of_lt (by omega)]
  · have whole : lo.toNat + n.toNat = 2 ^ w := by omega
    rw [whole, Nat.mod_self, Nat.add_zero, Nat.mod_eq_of_lt (by omega)]

theorem Proper.first_mem {lo n : BitVec w} (proper : Proper lo n) : lo ∈ span lo n :=
  ⟨le_refl _, Nat.lt_add_of_pos_right proper.pos⟩

theorem Proper.last_mem {lo n : BitVec w} (proper : Proper lo n) : last lo n ∈ span lo n := by
  have value := proper.last_toNat
  have pos := proper.pos
  constructor <;> omega

/-- A region that holds both ends of a range holds all of it. -/
theorem Proper.subset_iff {lo n : BitVec w} (proper : Proper lo n) (v : BitVec w) :
    span lo n ⊆ region v ↔ lo ∈ region v ∧ last lo n ∈ region v := by
  constructor
  · intro all
    exact ⟨all proper.first_mem, all proper.last_mem⟩
  · rintro ⟨first, final⟩ a ⟨above, below⟩
    have value := proper.last_toNat
    exact region_convex first final above (by omega)

end Napot
