import Riscmulator.PmpRegions
import Mathlib.Data.Fin.Tuple.Basic
import Mathlib.Order.WellFounded

/-! The PMP check beside the privileged architecture's rule: the lowest-numbered
enabled entry that holds any byte of a range decides about all of it. -/

namespace Riscmulator

open Transition

variable {δ : Type}

/-! ### The rule -/

section Rule

variable (cpu : RvCpu) (paddr size : U64) (mMode : Bool)

/-- Entry `i` is enabled and its region holds some byte of the range. -/
def PmpMatches (i : Fin 64) : Prop :=
  (cpu.csr.pmpcfgUnpacked i >>> rvPmpcfgABaseBit) &&& 3 ≠ 0 ∧
    ∃ a ∈ Napot.span paddr size, a ∈ Napot.region (cpu.csr.pmpaddr i)

/-- The region of entry `i` holds every byte of the range. -/
def PmpCovers (i : Fin 64) : Prop :=
  Napot.span paddr size ⊆ Napot.region (cpu.csr.pmpaddr i)

/-- The permission bits of entry `i`. -/
def pmpRwx (i : Fin 64) : U8 := cpu.csr.pmpcfgUnpacked i &&& 7

/-- An entry of M-mode's own: M-mode passes through it while it is unlocked. -/
def pmpPasses (i : Fin 64) : Bool :=
  mMode && !(cpu.csr.pmpcfgUnpacked i).getLsbD rvPmpcfgLBit

/-- The first entry, in the order of their numbers, that meets a condition. -/
def FirstEntry (P : Fin 64 → Prop) (i : Fin 64) : Prop := P i ∧ ∀ j < i, ¬P j

/-- The permission bits that the privileged architecture defines for the range. -/
def PmpRule (perms : U8) : Prop :=
  (∀ i, FirstEntry (PmpMatches cpu paddr size) i →
    (PmpCovers cpu paddr size i → perms = if pmpPasses cpu mMode i then 7 else pmpRwx cpu i) ∧
    (¬PmpCovers cpu paddr size i → perms = 0)) ∧
  ((∀ i, ¬PmpMatches cpu paddr size i) → perms = if mMode then 7 else 0)

/-! ### What the code stops at -/

/-- The loop stops at entry `i`: it does not skip it, and one of the two end
bytes lies in its region. -/
def PmpStops (i : Fin 64) : Prop :=
  rvPmpApplies cpu mMode i = true ∧
    (paddr ∈ Napot.region (cpu.csr.pmpaddr i) ∨
      Napot.last paddr size ∈ Napot.region (cpu.csr.pmpaddr i))

/-- The loop goes past the deciding entry `i`, and where it stops instead (or
the absence of such an entry) comes to the same bits: all of them where M-mode
passes through a region that covers the range, none where the region of `i`
holds a part of it. -/
def PmpCoincides (i : Fin 64) : Prop :=
  (PmpCovers cpu paddr size i →
    ∀ j, FirstEntry (PmpStops cpu paddr size mMode) j →
      PmpCovers cpu paddr size j ∧ pmpRwx cpu j = 7) ∧
  (¬PmpCovers cpu paddr size i →
    (∀ j, FirstEntry (PmpStops cpu paddr size mMode) j →
      PmpCovers cpu paddr size j → pmpRwx cpu j = 0) ∧
    ((∀ j, ¬PmpStops cpu paddr size mMode j) → mMode = false))

/-- The loop stops at the entry that decides by the rule, or goes past it to the same bits. -/
def PmpAgrees : Prop :=
  ∀ i, FirstEntry (PmpMatches cpu paddr size) i →
    PmpStops cpu paddr size mMode i ∨ PmpCoincides cpu paddr size mMode i

end Rule

section Check

variable {cpu : RvCpu} {paddr size : U64} {mMode : Bool} {i : Fin 64}

theorem FirstEntry.unique {P : Fin 64 → Prop} {i j : Fin 64} (first : FirstEntry P i)
    (other : FirstEntry P j) : j = i := by
  rcases lt_trichotomy i j with before | same | after
  · exact absurd first.1 (other.2 i before)
  · exact same.symm
  · exact absurd other.1 (first.2 j after)

/-- An entry either meets a condition after all, or there is a first one that does. -/
theorem firstEntry_or_none (P : Fin 64 → Prop) : (∃ i, FirstEntry P i) ∨ ∀ i, ¬P i := by
  by_cases some' : ∃ i, P i
  · left
    rcases some' with ⟨i, holds⟩
    rcases WellFounded.has_min (wellFounded_lt (α := Fin 64)) {i | P i} ⟨i, holds⟩ with
      ⟨first, holds, least⟩
    exact ⟨first, holds, fun j before other => least j other before⟩
  · right
    exact not_exists.mp some'

theorem PmpRule.of_first (first : FirstEntry (PmpMatches cpu paddr size) i) (perms : U8) :
    PmpRule cpu paddr size mMode perms ↔
      (PmpCovers cpu paddr size i → perms = if pmpPasses cpu mMode i then 7 else pmpRwx cpu i) ∧
      (¬PmpCovers cpu paddr size i → perms = 0) := by
  constructor
  · intro rule
    exact rule.1 i first
  · intro decided
    refine ⟨fun j other => ?_, fun none' => absurd first.1 (none' i)⟩
    rw [first.unique other]
    exact decided

theorem PmpRule.of_none (none' : ∀ i, ¬PmpMatches cpu paddr size i) (perms : U8) :
    PmpRule cpu paddr size mMode perms ↔ perms = if mMode then 7 else 0 :=
  ⟨fun rule => rule.2 none', fun value => ⟨fun i first => absurd first.1 (none' i), fun _ => value⟩⟩

/-- One round of the loop: it goes on, or grants what the entry grants to a
range that its region covers. -/
theorem rvPmpEntry_cases (proper : Napot.Proper paddr size) (mMode : Bool) (i : Fin 64) :
    (¬PmpStops cpu paddr size mMode i ∧
      rvPmpEntry cpu paddr (Napot.last paddr size) mMode i = none) ∨
    (PmpStops cpu paddr size mMode i ∧
      ∃ perms, rvPmpEntry cpu paddr (Napot.last paddr size) mMode i = some perms ∧
        (PmpCovers cpu paddr size i → perms = pmpRwx cpu i) ∧
        (¬PmpCovers cpu paddr size i → perms = 0)) := by
  have covers := proper.subset_iff (cpu.csr.pmpaddr i)
  have start := pmpaddrMatch_iff paddr (cpu.csr.pmpaddr i)
  have stop := pmpaddrMatch_iff (Napot.last paddr size) (cpu.csr.pmpaddr i)
  unfold PmpStops PmpCovers pmpRwx
  rw [covers, ← start, ← stop]
  cases applies : rvPmpApplies cpu mMode i <;>
    cases first : pmpaddrMatch paddr (cpu.csr.pmpaddr i) <;>
    cases final : pmpaddrMatch (Napot.last paddr size) (cpu.csr.pmpaddr i) <;>
    simp [rvPmpEntry, applies, first, final]

theorem rvPmpCheck_eq (cpu : RvCpu) (paddr size : U64) (mMode : Bool) :
    rvPmpCheck cpu paddr size mMode =
      (Fin.findSome? (rvPmpEntry cpu paddr (Napot.last paddr size) mMode)).getD
        (if mMode then 7 else 0) := by
  rw [Fin.findSome?_eq_findSome?_finRange]
  rfl

theorem rvPmpCheck_of_first (proper : Napot.Proper paddr size)
    (first : FirstEntry (PmpStops cpu paddr size mMode) i) :
    (PmpCovers cpu paddr size i → rvPmpCheck cpu paddr size mMode = pmpRwx cpu i) ∧
    (¬PmpCovers cpu paddr size i → rvPmpCheck cpu paddr size mMode = 0) := by
  rcases rvPmpEntry_cases proper mMode i with ⟨goes, _⟩ | ⟨_, perms, found, decided⟩
  · exact absurd first.1 goes
  · have earlier : ∀ j < i, rvPmpEntry cpu paddr (Napot.last paddr size) mMode j = none := by
      intro j before
      rcases rvPmpEntry_cases proper mMode j with ⟨_, none'⟩ | ⟨stops, _⟩
      · exact none'
      · exact absurd stops (first.2 j before)
    rw [rvPmpCheck_eq, Fin.findSome?_eq_some_iff.mpr ⟨i, found, earlier⟩, Option.getD_some]
    exact decided

theorem rvPmpCheck_of_none (proper : Napot.Proper paddr size)
    (none' : ∀ i, ¬PmpStops cpu paddr size mMode i) :
    rvPmpCheck cpu paddr size mMode = if mMode then 7 else 0 := by
  have all : ∀ i, rvPmpEntry cpu paddr (Napot.last paddr size) mMode i = none := by
    intro i
    rcases rvPmpEntry_cases proper mMode i with ⟨_, goes⟩ | ⟨stops, _⟩
    · exact goes
    · exact absurd stops (none' i)
  rw [rvPmpCheck_eq, Fin.findSome?_eq_none_iff.mpr all, Option.getD_none]

/-- Where the loop stops, the entry is enabled and holds a byte of the range. -/
theorem PmpStops.matches' (proper : Napot.Proper paddr size)
    (stops : PmpStops cpu paddr size mMode i) : PmpMatches cpu paddr size i := by
  have enabled : ∀ cfg : U8, cfg.getLsbD (rvPmpcfgABaseBit + 1) = true →
      (cfg >>> rvPmpcfgABaseBit) &&& 3 ≠ 0 := by decide
  rcases stops with ⟨applies, ends⟩
  simp only [rvPmpApplies, Bool.and_eq_true] at applies
  refine ⟨enabled _ applies.1, ?_⟩
  rcases ends with first | final
  · exact ⟨paddr, proper.first_mem, first⟩
  · exact ⟨Napot.last paddr size, proper.last_mem, final⟩

/-- Among legal bytes, the loop skips enabled entries only where M-mode passes. -/
theorem rvPmpApplies_iff (legal : PmpLegal cpu) (matched : PmpMatches cpu paddr size i) :
    rvPmpApplies cpu mMode i = true ↔ pmpPasses cpu mMode i = false := by
  have enabled : ∀ cfg : U8, PmpByteLegal cfg → (cfg >>> rvPmpcfgABaseBit) &&& 3 ≠ 0 →
      cfg.getLsbD (rvPmpcfgABaseBit + 1) = true := by decide
  cases mMode <;> simp [rvPmpApplies, pmpPasses, enabled _ (legal i) matched.1]

/-- A loop that stops at the entry deciding by the rule returns what the rule says. -/
theorem pmpRule_of_stops (proper : Napot.Proper paddr size) (legal : PmpLegal cpu)
    (first : FirstEntry (PmpMatches cpu paddr size) i) (stops : PmpStops cpu paddr size mMode i) :
    PmpRule cpu paddr size mMode (rvPmpCheck cpu paddr size mMode) := by
  have here : FirstEntry (PmpStops cpu paddr size mMode) i :=
    ⟨stops, fun j before other => first.2 j before (other.matches' proper)⟩
  have locked : pmpPasses cpu mMode i = false := (rvPmpApplies_iff legal first.1).mp stops.1
  rw [PmpRule.of_first first, locked, if_neg Bool.false_ne_true]
  exact rvPmpCheck_of_first proper here

/-- The loop goes past an entry that covers the range only in M-mode. -/
theorem pmpPasses_of_goes (proper : Napot.Proper paddr size) (legal : PmpLegal cpu)
    (matched : PmpMatches cpu paddr size i) (covers : PmpCovers cpu paddr size i)
    (goes : ¬PmpStops cpu paddr size mMode i) : pmpPasses cpu mMode i = true := by
  by_contra locked
  apply goes
  refine ⟨(rvPmpApplies_iff legal matched).mpr (Bool.not_eq_true _ ▸ locked), Or.inl ?_⟩
  exact covers proper.first_mem

/-- A loop that goes past the deciding entry agrees with the rule by what it
finds behind it. -/
theorem pmpRule_of_goes (proper : Napot.Proper paddr size) (legal : PmpLegal cpu)
    (first : FirstEntry (PmpMatches cpu paddr size) i)
    (goes : ¬PmpStops cpu paddr size mMode i) :
    PmpRule cpu paddr size mMode (rvPmpCheck cpu paddr size mMode) ↔
      PmpCoincides cpu paddr size mMode i := by
  rw [PmpRule.of_first first]
  refine and_congr (forall_congr' fun covers => ?_) (forall_congr' fun partly => ?_)
  · have passes := pmpPasses_of_goes proper legal first.1 covers goes
    rw [if_pos passes]
    rcases firstEntry_or_none (PmpStops cpu paddr size mMode) with ⟨j, found⟩ | none'
    · have check := rvPmpCheck_of_first proper found
      constructor
      · intro all k other
        rw [found.unique other]
        by_cases inside : PmpCovers cpu paddr size j
        · exact ⟨inside, (check.1 inside).symm.trans all⟩
        · rw [check.2 inside] at all
          cases all
      · intro all
        rw [check.1 (all j found).1, (all j found).2]
    · have machine : mMode = true := (Bool.and_eq_true_iff.mp passes).1
      rw [rvPmpCheck_of_none proper none', if_pos machine]
      exact iff_of_true rfl fun j other => absurd other.1 (none' j)
  · rcases firstEntry_or_none (PmpStops cpu paddr size mMode) with ⟨j, found⟩ | none'
    · have check := rvPmpCheck_of_first proper found
      constructor
      · intro zero
        refine ⟨fun k other inside => ?_, fun none' => absurd found.1 (none' j)⟩
        rw [found.unique other] at inside ⊢
        exact (check.1 inside).symm.trans zero
      · intro zero
        by_cases inside : PmpCovers cpu paddr size j
        · rw [check.1 inside, zero.1 j found inside]
        · exact check.2 inside
    · rw [rvPmpCheck_of_none proper none']
      constructor
      · intro zero
        refine ⟨fun j other => absurd other.1 (none' j), fun _ => ?_⟩
        cases mMode with
        | false => rfl
        | true => cases zero
      · intro below
        rw [below.2 none', if_neg Bool.false_ne_true]

theorem pmpRule_iff (proper : Napot.Proper paddr size) (legal : PmpLegal cpu) :
    PmpRule cpu paddr size mMode (rvPmpCheck cpu paddr size mMode) ↔
      PmpAgrees cpu paddr size mMode := by
  rcases firstEntry_or_none (PmpMatches cpu paddr size) with ⟨i, first⟩ | none'
  · by_cases stops : PmpStops cpu paddr size mMode i
    · refine iff_of_true (pmpRule_of_stops proper legal first stops) fun j other => Or.inl ?_
      rw [first.unique other]
      exact stops
    · rw [pmpRule_of_goes proper legal first stops]
      constructor
      · intro agrees j other
        rw [first.unique other]
        exact Or.inr agrees
      · intro agrees
        exact (agrees i first).resolve_left stops
  · have goes : ∀ i, ¬PmpStops cpu paddr size mMode i :=
      fun i stops => none' i (stops.matches' proper)
    refine iff_of_true ?_ fun i other => absurd other.1 (none' i)
    rw [PmpRule.of_none none']
    exact rvPmpCheck_of_none proper goes

end Check

/-- In every state reached by register writes the check returns what the
architecture defines exactly when its loop stops at the deciding entry, or
comes to the same bits elsewhere. -/
theorem rvPmpCheck_rule_iff (device : δ) (h : Nat) (writes : List (Nat × U64)) {paddr size : U64}
    (proper : Napot.Proper paddr size) (mMode : Bool) :
    PmpRule (run csrWriteStep ((emuMachineInit device).cpus h) writes) paddr size mMode
        (rvPmpCheck (run csrWriteStep ((emuMachineInit device).cpus h) writes) paddr size mMode) ↔
      PmpAgrees (run csrWriteStep ((emuMachineInit device).cpus h) writes) paddr size mMode :=
  pmpRule_iff proper (invariant_run_always csrWriteStep_pmpMachine writes
    (emuMachineInit_pmpMachine device h)).legal

/-- A locked region of 4 KiB, and four bytes inside it in M-mode. -/
theorem rvPmpCheck_rule_locked :
    PmpRule (run csrWriteStep ((emuMachineInit ()).cpus 0) [(0x3B0, 0x200001FF), (0x3A0, 0x9D)])
      0x80000100 4 true
      (rvPmpCheck (run csrWriteStep ((emuMachineInit ()).cpus 0)
        [(0x3B0, 0x200001FF), (0x3A0, 0x9D)]) 0x80000100 4 true) := by
  have proper : Napot.Proper (0x80000100 : U64) 4 := ⟨by decide, by decide⟩
  apply (rvPmpCheck_rule_iff () 0 [(0x3B0, 0x200001FF), (0x3A0, 0x9D)] proper true).mpr
  have stops : PmpStops
      (run csrWriteStep ((emuMachineInit ()).cpus 0) [(0x3B0, 0x200001FF), (0x3A0, 0x9D)])
      0x80000100 4 true 0 := ⟨by decide +kernel, Or.inl (by decide +kernel)⟩
  intro i first
  left
  rcases Nat.eq_zero_or_pos i.val with zero | above
  · rw [show i = 0 from Fin.ext zero]
    exact stops
  · exact absurd (stops.matches' proper) (first.2 0 above)

/-- A region of eight bytes without permissions inside a page that a later entry
grants: the page query sees neither end of it. -/
theorem rvPmpCheck_inside_page :
    ¬PmpRule (run csrWriteStep ((emuMachineInit ()).cpus 0)
        [(0x3B0, 0x200), (0x3B1, 0x1FF), (0x3A0, 0x1F18)]) 0 4096 false
      (rvPmpCheck (run csrWriteStep ((emuMachineInit ()).cpus 0)
        [(0x3B0, 0x200), (0x3B1, 0x1FF), (0x3A0, 0x1F18)]) 0 4096 false) := by
  intro rule
  have matches' : PmpMatches (run csrWriteStep ((emuMachineInit ()).cpus 0)
      [(0x3B0, 0x200), (0x3B1, 0x1FF), (0x3A0, 0x1F18)]) 0 4096 0 :=
    ⟨by decide +kernel, 0x800, ⟨by decide, by decide⟩, by decide +kernel⟩
  have zero := (rule.1 0 ⟨matches', fun j below => absurd below (Fin.not_lt_zero j)⟩).2 fun all =>
    absurd (all (show (0 : U64) ∈ Napot.span 0 4096 from ⟨by decide, by decide⟩)) (by decide +kernel)
  exact absurd zero (by decide +kernel)

end Riscmulator
