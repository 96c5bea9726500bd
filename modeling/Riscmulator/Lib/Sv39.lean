import Riscmulator.Lib.BitField

/-! Sv39 address translation over an abstract page table: a function from the
physical address of an entry to its value. -/

namespace Sv39

/-! ### Fields -/

def valid (pte : BitVec 64) : Bool := pte.getLsbD 0

/-- An entry with any of R, W and X is a leaf. -/
def isLeaf (pte : BitVec 64) : Bool := pte.getLsbD 1 || pte.getLsbD 2 || pte.getLsbD 3

/-- The physical page number, bits 53:10. -/
def ppn (pte : BitVec 64) : BitVec 64 := (pte >>> 10) &&& 0xfffffffffff

/-- Field `level` of the virtual page number. -/
def vpn (vaddr : BitVec 64) (level : Nat) : BitVec 64 := (vaddr >>> (12 + 9 * level)) &&& 0x1ff

def offsetMask (level : Nat) : BitVec 64 := (1#64 <<< (9 * level)) - 1

/-- Address of the entry that `vaddr` selects in the table at page `base`. -/
def entryAddr (base vaddr : BitVec 64) (level : Nat) : BitVec 64 :=
  base * 4096 + vpn vaddr level * 8

/-! ### Walks -/

/-- The leaf and its level on the path of `vaddr` from the table at page `base`.
A superpage that is not aligned is no leaf. -/
def walk (table : BitVec 64 → BitVec 64) (vaddr : BitVec 64) :
    Nat → BitVec 64 → Option (BitVec 64 × Nat)
  | 0, _ => none
  | level + 1, base =>
      let pte := table (entryAddr base vaddr level)
      if valid pte = false then none
      else if isLeaf pte then
        if ppn pte &&& offsetMask level = 0 then some (pte, level) else none
      else walk table vaddr level (ppn pte)

/-- The page number of `vaddr` in a leaf: that of the leaf with the bits below
its level taken from `vaddr`. -/
def target (vaddr : BitVec 64) (leaf : BitVec 64 × Nat) : BitVec 64 :=
  (ppn leaf.1 &&& ~~~offsetMask leaf.2) ||| ((vaddr >>> 12) &&& offsetMask leaf.2)

/-- In an aligned leaf the bits of the address are added to those of the leaf. -/
theorem target_aligned (vaddr : BitVec 64) {pte : BitVec 64} {level : Nat}
    (aligned : ppn pte &&& offsetMask level = 0) :
    target vaddr (pte, level) = ppn pte ||| ((vaddr >>> 12) &&& offsetMask level) := by
  rw [target, BitField.and_not_of_and_zero aligned]

/-- The physical page number that the table at page `root` gives to `vaddr`. -/
def translate (table : BitVec 64 → BitVec 64) (root vaddr : BitVec 64) : Option (BitVec 64) :=
  (walk table vaddr 3 root).map (target vaddr)

/-- Every entry on the path of `vaddr` is in `T`. -/
def Within (T : BitVec 64 → Prop) (table : BitVec 64 → BitVec 64) (vaddr : BitVec 64) :
    Nat → BitVec 64 → Prop
  | 0, _ => True
  | level + 1, base =>
      let pte := table (entryAddr base vaddr level)
      T (entryAddr base vaddr level) ∧
        (valid pte = true → isLeaf pte = false → Within T table vaddr level (ppn pte))

/-! ### Entries up to their A and D bits -/

/-- Two entries that differ in A and D at most. -/
def SameEntry (pte pte' : BitVec 64) : Prop :=
  ∀ i, i ≠ 6 → i ≠ 7 → pte.getLsbD i = pte'.getLsbD i

theorem SameEntry.refl (pte : BitVec 64) : SameEntry pte pte := fun _ _ _ => rfl

theorem SameEntry.trans {first second third : BitVec 64} (left : SameEntry first second)
    (right : SameEntry second third) : SameEntry first third := by
  intro i accessed dirty
  rw [left i accessed dirty, right i accessed dirty]

theorem SameEntry.valid {pte pte' : BitVec 64} (same : SameEntry pte pte') :
    valid pte = valid pte' := same 0 (by decide) (by decide)

theorem SameEntry.isLeaf {pte pte' : BitVec 64} (same : SameEntry pte pte') :
    isLeaf pte = isLeaf pte' := by
  simp only [Sv39.isLeaf, same 1 (by decide) (by decide), same 2 (by decide) (by decide),
    same 3 (by decide) (by decide)]

theorem SameEntry.ppn {pte pte' : BitVec 64} (same : SameEntry pte pte') :
    ppn pte = ppn pte' := by
  apply BitVec.eq_of_getLsbD_eq
  intro i _
  have field : (pte >>> 10).getLsbD i = (pte' >>> 10).getLsbD i := by
    rw [BitVec.getLsbD_ushiftRight, BitVec.getLsbD_ushiftRight]
    exact same (10 + i) (by omega) (by omega)
  rw [Sv39.ppn, Sv39.ppn, BitVec.getLsbD_and, BitVec.getLsbD_and, field]

theorem sameEntry_or {pte set : BitVec 64} (only : ∀ i, i ≠ 6 → i ≠ 7 → set.getLsbD i = false) :
    SameEntry (pte ||| set) pte := by
  intro i accessed dirty
  rw [BitVec.getLsbD_or, only i accessed dirty, Bool.or_false]

/-! ### Addresses with the same page -/

def SamePage (vaddr vaddr' : BitVec 64) : Prop :=
  ∀ i, 12 ≤ i → i < 39 → vaddr.getLsbD i = vaddr'.getLsbD i

theorem SamePage.vpn {vaddr vaddr' : BitVec 64} (same : SamePage vaddr vaddr') {level : Nat}
    (low : level < 3) : vpn vaddr level = vpn vaddr' level := by
  have field : (0x1ff : BitVec 64) = (1#64 <<< 9) - 1#64 := by decide
  apply BitVec.eq_of_getLsbD_eq
  intro i _
  simp only [Sv39.vpn, field, BitVec.getLsbD_and, BitVec.getLsbD_ushiftRight]
  rw [BitField.getLsbD_lowMask (by decide)]
  by_cases inside : i < 9
  · rw [same _ (by omega) (by omega)]
  · simp [inside]

theorem SamePage.offset {vaddr vaddr' : BitVec 64} (same : SamePage vaddr vaddr') {level : Nat}
    (low : level < 3) :
    (vaddr >>> 12) &&& offsetMask level = (vaddr' >>> 12) &&& offsetMask level := by
  have small : 9 * level < 64 := by omega
  apply BitVec.eq_of_getLsbD_eq
  intro i _
  simp only [BitVec.getLsbD_and, BitVec.getLsbD_ushiftRight]
  have mask : (offsetMask level).getLsbD i = decide (i < 9 * level) :=
    BitField.getLsbD_lowMask small i
  rw [mask]
  by_cases inside : i < 9 * level
  · rw [same _ (by omega) (by omega)]
  · simp [inside]

theorem walk_level {table : BitVec 64 → BitVec 64} {vaddr base pte : BitVec 64}
    {level leafLevel : Nat}
    (found : walk table vaddr level base = some (pte, leafLevel)) : leafLevel < level := by
  induction level generalizing base with
  | zero => cases found
  | succ level ih =>
      simp only [walk] at found
      split at found
      · cases found
      split at found
      · split at found
        · cases found
          exact Nat.lt_succ_self _
        · cases found
      · exact Nat.lt_succ_of_lt (ih found)

theorem SamePage.walk {vaddr vaddr' : BitVec 64} (same : SamePage vaddr vaddr')
    (table : BitVec 64 → BitVec 64) {level : Nat} (low : level ≤ 3) (base : BitVec 64) :
    walk table vaddr level base = walk table vaddr' level base := by
  induction level generalizing base with
  | zero => rfl
  | succ level ih =>
      have entry : entryAddr base vaddr level = entryAddr base vaddr' level := by
        rw [entryAddr, entryAddr, same.vpn (Nat.lt_of_succ_le low)]
      simp only [Sv39.walk, entry]
      rw [ih (Nat.le_of_succ_le low)]

/-- Two addresses of one page have one translation. -/
theorem SamePage.translate {vaddr vaddr' : BitVec 64} (same : SamePage vaddr vaddr')
    (table : BitVec 64 → BitVec 64) (root : BitVec 64) :
    translate table root vaddr = translate table root vaddr' := by
  rw [Sv39.translate, Sv39.translate, same.walk table (le_refl 3) root]
  cases found : Sv39.walk table vaddr' 3 root with
  | none => rfl
  | some leaf =>
      have low : leaf.2 < 3 := walk_level found
      rw [Option.map_some, Option.map_some, target, target, same.offset low]

/-! ### Paths -/

/-- A valid entry without R, W, X and U points on to the next table. -/
def isPointer (pte : BitVec 64) : Bool := valid pte && !isLeaf pte && !pte.getLsbD 4

/-- From the table at page `base`, `level` levels up, following these pointers
with the fields of `vaddr` leads to the entry at `addr` in a table of level `last`. -/
inductive Leads (table : BitVec 64 → BitVec 64) (vaddr : BitVec 64) :
    Nat → BitVec 64 → List (BitVec 64) → Nat → BitVec 64 → Prop
  | here {level : Nat} {base : BitVec 64} :
      Leads table vaddr (level + 1) base [] level (entryAddr base vaddr level)
  | next {level last : Nat} {base addr : BitVec 64} {pointers : List (BitVec 64)}
      (points : isPointer (table (entryAddr base vaddr level)) = true)
      (rest : Leads table vaddr level (ppn (table (entryAddr base vaddr level))) pointers last
        addr) :
      Leads table vaddr (level + 1) base (table (entryAddr base vaddr level) :: pointers) last addr

theorem Leads.last_lt {table : BitVec 64 → BitVec 64} {vaddr base addr : BitVec 64}
    {level last : Nat} {pointers : List (BitVec 64)}
    (leads : Leads table vaddr level base pointers last addr) : last < level := by
  induction leads with
  | here => exact Nat.lt_succ_self _
  | next _ _ ih => exact Nat.lt_succ_of_lt ih

/-- Where the first entry points on, every path but the empty one goes through it. -/
theorem leads_pointer {table : BitVec 64 → BitVec 64} {vaddr base addr : BitVec 64}
    {level last : Nat} {pointers : List (BitVec 64)}
    (leads : Leads table vaddr (level + 1) base pointers last addr) :
    (pointers = [] ∧ last = level ∧ addr = entryAddr base vaddr level) ∨
      (isPointer (table (entryAddr base vaddr level)) = true ∧ ∃ rest,
        pointers = table (entryAddr base vaddr level) :: rest ∧
        Leads table vaddr level (ppn (table (entryAddr base vaddr level))) rest last addr) := by
  cases leads with
  | here => exact Or.inl ⟨rfl, rfl, rfl⟩
  | next points rest => exact Or.inr ⟨points, _, rfl, rest⟩

theorem Leads.stops {table : BitVec 64 → BitVec 64} {vaddr base addr : BitVec 64}
    {level last : Nat} {pointers : List (BitVec 64)}
    (leads : Leads table vaddr (level + 1) base pointers last addr)
    (ends : isPointer (table (entryAddr base vaddr level)) = false) :
    pointers = [] ∧ last = level ∧ addr = entryAddr base vaddr level := by
  rcases leads_pointer leads with here | ⟨points, _⟩
  · exact here
  · rw [ends] at points
    cases points

/-- A path that ends in a leaf. -/
structure LeafPath (table : BitVec 64 → BitVec 64) (vaddr : BitVec 64) (level : Nat)
    (base : BitVec 64) (pointers : List (BitVec 64)) (last : Nat) (addr : BitVec 64) : Prop where
  leads : Leads table vaddr level base pointers last addr
  valid : valid (table addr) = true
  leaf : isLeaf (table addr) = true

theorem LeafPath.ends {table : BitVec 64 → BitVec 64} {vaddr base addr : BitVec 64}
    {level last : Nat} {pointers : List (BitVec 64)}
    (path : LeafPath table vaddr level base pointers last addr) :
    isPointer (table addr) = false := by
  simp [isPointer, path.leaf]

theorem pointer_inner {pte : BitVec 64} (points : isPointer pte = true) :
    valid pte = true ∧ isLeaf pte = false := by
  simp only [isPointer, Bool.and_eq_true, Bool.not_eq_true'] at points
  exact points.1

/-- The aligned leaf at the end of a path is the one that the walk finds. -/
theorem Leads.walk {table : BitVec 64 → BitVec 64} {vaddr base addr : BitVec 64}
    {level last : Nat} {pointers : List (BitVec 64)}
    (leads : Leads table vaddr level base pointers last addr) (present : valid (table addr) = true)
    (leaf : isLeaf (table addr) = true) (aligned : ppn (table addr) &&& offsetMask last = 0) :
    walk table vaddr level base = some (table addr, last) := by
  induction leads with
  | here => simp [Sv39.walk, present, leaf, aligned]
  | next points _ ih =>
      obtain ⟨valid, inner⟩ := pointer_inner points
      rw [Sv39.walk, valid, inner, if_neg (by decide), if_neg (by decide)]
      exact ih present leaf aligned

/-- The pointers and the address lead to one entry that is no pointer. -/
theorem Leads.unique {table : BitVec 64 → BitVec 64} {vaddr base addr addr' : BitVec 64}
    {level last last' : Nat} {pointers pointers' : List (BitVec 64)}
    (leads : Leads table vaddr level base pointers last addr)
    (ends : isPointer (table addr) = false)
    (leads' : Leads table vaddr level base pointers' last' addr')
    (ends' : isPointer (table addr') = false) :
    pointers' = pointers ∧ last' = last ∧ addr' = addr := by
  induction leads generalizing pointers' last' addr' with
  | here => exact leads'.stops ends
  | next points _ ih =>
      rcases leads_pointer leads' with ⟨_, _, rfl⟩ | ⟨_, rest, rfl, further⟩
      · rw [points] at ends'
        cases ends'
      · obtain ⟨rfl, rfl, rfl⟩ := ih ends further ends'
        exact ⟨rfl, rfl, rfl⟩

section Paths

variable {table : BitVec 64 → BitVec 64} {vaddr base : BitVec 64} {level : Nat}
  {P : List (BitVec 64) → Nat → BitVec 64 → Prop}

theorem exists_leafPath_zero :
    ¬∃ pointers last addr,
      LeafPath table vaddr 0 base pointers last addr ∧ P pointers last addr := by
  rintro ⟨_, _, _, path, _⟩
  exact absurd path.leads.last_lt (Nat.not_lt_zero _)

/-- Where the first entry is no pointer, it is the leaf of the path or there is none. -/
theorem exists_leafPath_stop (ends : isPointer (table (entryAddr base vaddr level)) = false) :
    (∃ pointers last addr, LeafPath table vaddr (level + 1) base pointers last addr ∧
        P pointers last addr) ↔
      (Sv39.valid (table (entryAddr base vaddr level)) = true ∧
        isLeaf (table (entryAddr base vaddr level)) = true) ∧
          P [] level (entryAddr base vaddr level) := by
  constructor
  · rintro ⟨pointers, last, addr, path, holds⟩
    obtain ⟨rfl, rfl, rfl⟩ := path.leads.stops ends
    exact ⟨⟨path.valid, path.leaf⟩, holds⟩
  · intro found
    exact ⟨[], level, _, ⟨Leads.here, found.1.1, found.1.2⟩, found.2⟩

/-- Where the first entry is a pointer, the path goes on in the next table. -/
theorem exists_leafPath_next (points : isPointer (table (entryAddr base vaddr level)) = true) :
    (∃ pointers last addr, LeafPath table vaddr (level + 1) base pointers last addr ∧
        P pointers last addr) ↔
      ∃ pointers last addr,
        LeafPath table vaddr level (ppn (table (entryAddr base vaddr level))) pointers last addr ∧
          P (table (entryAddr base vaddr level) :: pointers) last addr := by
  constructor
  · rintro ⟨pointers, last, addr, path, holds⟩
    rcases leads_pointer path.leads with ⟨_, _, rfl⟩ | ⟨_, rest, rfl, further⟩
    · rw [path.ends] at points
      cases points
    · exact ⟨rest, last, addr, ⟨further, path.valid, path.leaf⟩, holds⟩
  · rintro ⟨pointers, last, addr, path, holds⟩
    exact ⟨_, last, addr, ⟨Leads.next points path.leads, path.valid, path.leaf⟩, holds⟩

end Paths

/-- Two properties of leaves are met by the same tables exactly if they agree on
the leaf of the path. -/
theorem leafPath_agree {table : BitVec 64 → BitVec 64} {vaddr base : BitVec 64} {level : Nat}
    {first second : List (BitVec 64) → Nat → BitVec 64 → Prop} :
    ((∃ pointers last addr, LeafPath table vaddr level base pointers last addr ∧
          first pointers last addr) ↔
        ∃ pointers last addr, LeafPath table vaddr level base pointers last addr ∧
          second pointers last addr) ↔
      ∀ pointers last addr, LeafPath table vaddr level base pointers last addr →
        (first pointers last addr ↔ second pointers last addr) := by
  constructor
  · intro agree pointers last addr path
    constructor
    · intro holds
      obtain ⟨_, _, _, path', holds'⟩ := agree.mp ⟨pointers, last, addr, path, holds⟩
      obtain ⟨rfl, rfl, rfl⟩ := path.leads.unique path.ends path'.leads path'.ends
      exact holds'
    · intro holds
      obtain ⟨_, _, _, path', holds'⟩ := agree.mpr ⟨pointers, last, addr, path, holds⟩
      obtain ⟨rfl, rfl, rfl⟩ := path.leads.unique path.ends path'.leads path'.ends
      exact holds'
  · intro agree
    constructor
    · intro some'
      obtain ⟨pointers, last, addr, path, holds⟩ := some'
      exact ⟨pointers, last, addr, path, (agree _ _ _ path).mp holds⟩
    · intro some'
      obtain ⟨pointers, last, addr, path, holds⟩ := some'
      exact ⟨pointers, last, addr, path, (agree _ _ _ path).mpr holds⟩

/-! ### Page faults -/

inductive AccessKind
  | fetch | load | store
  deriving DecidableEq, Repr

/-- Who accesses: the effective privilege and the SUM and MXR bits. -/
structure Accessor where
  user : Bool
  sum : Bool
  mxr : Bool

/-- Bits 63:54, which belong to extensions, and the encoding of W without R. -/
def reservedEntry (pte : BitVec 64) : Bool :=
  (pte >>> 54) ≠ 0 || (pte.getLsbD 2 && !pte.getLsbD 1)

/-- U, A and D are reserved in a pointer. -/
def reservedPointer (pte : BitVec 64) : Bool :=
  pte.getLsbD 4 || pte.getLsbD 6 || pte.getLsbD 7

def aligned (pte : BitVec 64) (level : Nat) : Bool := ppn pte &&& offsetMask level = 0

/-- U-mode accesses user pages only; the supervisor fetches from none of them
and accesses their data under SUM. -/
def levelGrants (who : Accessor) (kind : AccessKind) (pte : BitVec 64) : Bool :=
  if who.user then pte.getLsbD 4
  else !pte.getLsbD 4 || (kind ≠ .fetch && who.sum)

def kindGrants (who : Accessor) (kind : AccessKind) (pte : BitVec 64) : Bool :=
  match kind with
  | .fetch => pte.getLsbD 3
  | .load => pte.getLsbD 1 || (who.mxr && pte.getLsbD 3)
  | .store => pte.getLsbD 2

/-- The page-fault decision of the Sv39 algorithm over a table, from the table at
page `base` on. -/
def faults (table : BitVec 64 → BitVec 64) (who : Accessor) (kind : AccessKind)
    (vaddr : BitVec 64) : Nat → BitVec 64 → Bool
  | 0, _ => true
  | level + 1, base =>
      let pte := table (entryAddr base vaddr level)
      if !valid pte || reservedEntry pte then true
      else if isLeaf pte then
        !(aligned pte level && levelGrants who kind pte && kindGrants who kind pte)
      else if reservedPointer pte then true
      else faults table who kind vaddr level (ppn pte)

/-- Nothing reserved is set in a pointer. -/
def plain (pte : BitVec 64) : Bool := !reservedEntry pte && !reservedPointer pte

/-- A leaf of this level grants the access. -/
def leafGrants (who : Accessor) (kind : AccessKind) (pte : BitVec 64) (level : Nat) : Bool :=
  !reservedEntry pte && (aligned pte level && levelGrants who kind pte && kindGrants who kind pte)

section Faults

variable {table : BitVec 64 → BitVec 64} {who : Accessor} {kind : AccessKind}
  {vaddr base : BitVec 64} {level : Nat}

theorem faults_leaf (present : valid (table (entryAddr base vaddr level)) = true)
    (leaf : isLeaf (table (entryAddr base vaddr level)) = true) :
    faults table who kind vaddr (level + 1) base =
      !leafGrants who kind (table (entryAddr base vaddr level)) level := by
  simp only [faults, leafGrants, present, leaf]
  cases reservedEntry (table (entryAddr base vaddr level)) <;> simp

theorem faults_pointer (points : isPointer (table (entryAddr base vaddr level)) = true) :
    faults table who kind vaddr (level + 1) base =
      (!plain (table (entryAddr base vaddr level)) ||
        faults table who kind vaddr level (ppn (table (entryAddr base vaddr level)))) := by
  simp only [isPointer, Bool.and_eq_true, Bool.not_eq_true'] at points
  obtain ⟨⟨present, leaf⟩, _⟩ := points
  simp only [faults, plain, present, leaf]
  cases reservedEntry (table (entryAddr base vaddr level)) <;>
    cases reservedPointer (table (entryAddr base vaddr level)) <;> simp

/-- An entry that is neither a leaf nor a pointer: not valid, or U in a pointer. -/
theorem faults_dead (points : isPointer (table (entryAddr base vaddr level)) = false)
    (leaf : ¬(valid (table (entryAddr base vaddr level)) = true ∧
      isLeaf (table (entryAddr base vaddr level)) = true)) :
    faults table who kind vaddr (level + 1) base = true := by
  simp only [faults, reservedPointer]
  simp only [isPointer] at points
  cases present : valid (table (entryAddr base vaddr level)) with
  | false => rfl
  | true =>
      rw [present] at points leaf
      have inner : isLeaf (table (entryAddr base vaddr level)) = false := by
        simpa using leaf
      have user : (table (entryAddr base vaddr level)).getLsbD 4 = true := by
        simpa [inner] using points
      simp [inner, user]

/-- The algorithm raises no fault exactly if plain pointers lead to a leaf that
grants the access. -/
theorem faults_false_iff :
    faults table who kind vaddr level base = false ↔
      ∃ pointers last addr, LeafPath table vaddr level base pointers last addr ∧
        (pointers.all plain = true ∧ leafGrants who kind (table addr) last = true) := by
  induction level generalizing base with
  | zero => exact iff_of_false (Bool.noConfusion ·) exists_leafPath_zero
  | succ level ih =>
      by_cases points : isPointer (table (entryAddr base vaddr level)) = true
      · rw [exists_leafPath_next points, faults_pointer points, Bool.or_eq_false_iff,
          Bool.not_eq_false', ih]
        constructor
        · rintro ⟨clean, pointers, last, addr, path, all, grants⟩
          refine ⟨pointers, last, addr, path, ?_, grants⟩
          rw [List.all_cons, clean, all]
          rfl
        · rintro ⟨pointers, last, addr, path, all, grants⟩
          rw [List.all_cons, Bool.and_eq_true] at all
          exact ⟨all.1, pointers, last, addr, path, all.2, grants⟩
      · rw [Bool.not_eq_true] at points
        rw [exists_leafPath_stop points]
        by_cases leaf : valid (table (entryAddr base vaddr level)) = true ∧
          isLeaf (table (entryAddr base vaddr level)) = true
        · rw [faults_leaf leaf.1 leaf.2, Bool.not_eq_false']
          exact ⟨fun grants => ⟨leaf, rfl, grants⟩, fun found => found.2.2⟩
        · rw [faults_dead points leaf]
          exact iff_of_false (Bool.noConfusion ·) fun found => leaf found.1

end Faults

end Sv39
