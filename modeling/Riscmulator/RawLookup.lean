import Riscmulator.TlbAddress
import Riscmulator.RamBytes

/-! `rv_paging_raw_lookup` as a walk of the page tables in RAM: where it ends,
what it returns and what it writes. -/

namespace Riscmulator

variable {δ : Type}

/-! ### Where a walk ends -/

/-- Every entry that the pointers from page `base` lead `vaddr` to is in RAM. -/
def EntriesInRam (mc : EmuConfig δ) (ram : U64 → U8) (vaddr : U64) (level : Nat) (base : U64) :
    Prop :=
  ∀ pointers last addr, Sv39.Leads (ramTable mc ram) vaddr level base pointers last addr →
    ramHoldsRange mc addr 8 = true

/-- The page tables that a lookup of `vaddr` meets are in RAM. -/
def TablesInRam (mc : EmuConfig δ) (m : EmuMachine δ) (h : Nat) (vaddr : U64) : Prop :=
  EntriesInRam mc m.ram vaddr 3 (satpRoot (m.cpus h))

/-- The code's pointer test is that of Sv39, up to A, D and the bits 63:54. -/
theorem isPointer_iff (pte : U64) :
    Sv39.isPointer pte = true ↔
      pte.getLsbD rvPteVBit = true ∧ ¬(pte &&& rvPteRwxMask) ≠ 0 := by
  rw [rwxMask_iff, not_or, Bool.not_eq_true, Bool.not_eq_true]
  simp [Sv39.isPointer, Sv39.valid, rvPteVBit, rvPteUBit, and_assoc]

section Walk

variable {mc : EmuConfig δ} {h : Nat} {vaddr base : U64} {mode : RvAccess} {m : EmuMachine δ}
  {level : Nat}

theorem EntriesInRam.first (inRam : EntriesInRam mc m.ram vaddr (level + 1) base) :
    ramHoldsRange mc (Sv39.entryAddr base vaddr level) 8 = true :=
  inRam [] level _ Sv39.Leads.here

theorem EntriesInRam.next (inRam : EntriesInRam mc m.ram vaddr (level + 1) base)
    (points : Sv39.isPointer (ramTable mc m.ram (Sv39.entryAddr base vaddr level)) = true) :
    EntriesInRam mc m.ram vaddr level
      (Sv39.ppn (ramTable mc m.ram (Sv39.entryAddr base vaddr level))) := by
  intro pointers last addr leads
  exact inRam _ last addr (Sv39.Leads.next points leads)

theorem entriesInRam_leaf
    (inRam : ramHoldsRange mc (Sv39.entryAddr base vaddr level) 8 = true)
    (leaf : Sv39.isPointer (ramTable mc m.ram (Sv39.entryAddr base vaddr level)) = false) :
    EntriesInRam mc m.ram vaddr (level + 1) base := by
  intro pointers last addr leads
  obtain ⟨_, _, rfl⟩ := leads.stops leaf
  exact inRam

/-- One level of a walk whose entry is in RAM. -/
theorem rvWalk_succ (inRam : ramHoldsRange mc (Sv39.entryAddr base vaddr level) 8 = true) :
    rvWalk mc h vaddr mode (level + 1) m base =
      let addr := Sv39.entryAddr base vaddr level
      let pte := ramTable mc m.ram addr
      let ptePmp := rvPmpCheck (m.cpus h) addr 8 false
      if !ptePmp.getLsbD rvPmpcfgRBit then ⟨.accessFault, m, ⟨0, 0⟩⟩
      else if !pte.getLsbD rvPteVBit then ⟨.pageFault, m, ⟨0, 0⟩⟩
      else if (pte &&& rvPteRwxMask) ≠ 0 then rvWalkLeaf mc m h vaddr mode level addr pte ptePmp
      else rvWalk mc h vaddr mode level m (Sv39.ppn pte) := by
  obtain ⟨res, machine, data⟩ := rvAccessPhys_load m h inRam
  simp only [rvWalk, rvPtePaddr_eq, res, machine, data, Option.getD_some, rvPtePpn_eq]
  rfl

/-- A walk faults without an effect, or comes to a leaf on the path of `vaddr`. -/
theorem rvWalk_cases (inRam : EntriesInRam mc m.ram vaddr level base) (mode : RvAccess) :
    (∃ res, res ≠ .ok ∧ rvWalk mc h vaddr mode level m base = ⟨res, m, ⟨0, 0⟩⟩) ∨
      ∃ pointers last addr, Sv39.Leads (ramTable mc m.ram) vaddr level base pointers last addr ∧
        (ramTable mc m.ram addr).getLsbD rvPteVBit = true ∧
          rvWalk mc h vaddr mode level m base = rvWalkLeaf mc m h vaddr mode last addr
            (ramTable mc m.ram addr) (rvPmpCheck (m.cpus h) addr 8 false) := by
  induction level generalizing base with
  | zero => exact Or.inl ⟨.pageFault, by decide, rfl⟩
  | succ level ih =>
      rw [rvWalk_succ inRam.first]
      simp only
      split
      · exact Or.inl ⟨.accessFault, by decide, rfl⟩
      split
      · exact Or.inl ⟨.pageFault, by decide, rfl⟩
      next present =>
      have valid : (ramTable mc m.ram (Sv39.entryAddr base vaddr level)).getLsbD rvPteVBit =
          true := by
        simpa using present
      split
      · exact Or.inr ⟨[], level, _, Sv39.Leads.here, valid, rfl⟩
      · next pointer =>
          have points := (isPointer_iff _).mpr ⟨valid, pointer⟩
          rcases ih (inRam.next points) with fault | ⟨pointers, last, addr, leads, found, walked⟩
          · exact Or.inl fault
          · exact Or.inr ⟨_, last, addr, Sv39.Leads.next points leads, found, walked⟩

end Walk

/-! ### What a walk returns and writes -/

def RvAccess.writes : RvAccess → Bool
  | .store | .amo => true
  | .load | .insn => false

/-- The bits that an access sets in its leaf: A, and D if it writes. -/
def RvAccess.marks (mode : RvAccess) : U64 :=
  if mode.writes then bit rvPteABit ||| bit rvPteDBit else bit rvPteABit

theorem rvSetfl_eq (mode : RvAccess) : rvSetfl mode = mode.marks := by cases mode <;> rfl

/-- What a successful lookup has done: it followed `pointers` to the leaf at `addr`,
returned that leaf's translation of `vaddr` and marked the leaf in RAM. -/
structure Translated (mc : EmuConfig δ) (m : EmuMachine δ) (h : Nat) (vaddr : U64) (mode : RvAccess)
    (out : WalkOutcome δ) (pointers : List U64) (level : Nat) (addr : U64) : Prop where
  ok : out.res = .ok
  path : Sv39.LeafPath (ramTable mc m.ram) vaddr 3 (satpRoot (m.cpus h)) pointers level addr
  page : rvPtePpn out.entry.pte = Sv39.target vaddr (ramTable mc m.ram addr, level)
  accessed : out.entry.pte.getLsbD rvPteABit = true
  dirty : mode.writes = true → out.entry.pte.getLsbD rvPteDBit = true
  marked : ramTable mc out.machine.ram addr = ramTable mc m.ram addr ||| mode.marks
  elsewhere : ∀ idx, 8 ≤ (idx - (addr - mc.ramStart)).toNat → out.machine.ram idx = m.ram idx
  others : out.machine = { m with ram := out.machine.ram }

section Leaf

variable {mc : EmuConfig δ} {h : Nat} {vaddr addr pte : U64} {mode : RvAccess} {m : EmuMachine δ}
  {level : Nat} {ptePmp : U8}

theorem rvAccessPhys_store_ok {data : U64} (inRam : ramHoldsRange mc addr 8 = true) :
    (rvAccessPhys mc m h addr data 3 .store true).res = .ok := by
  have size : bit (3 : Fin 4).val = 8 := rfl
  simp only [rvAccessPhys, rvAccessPhysUnchecked, size, inRam, ramTransfer]
  rfl

/-- A walk at its leaf: it faults without an effect, finds the leaf marked, or
marks it. -/
theorem rvWalkLeaf_cases (inRam : ramHoldsRange mc addr 8 = true) (m : EmuMachine δ) (h : Nat)
    (vaddr pte : U64) (mode : RvAccess) (level : Nat) (ptePmp : U8) :
    (∃ res, res ≠ .ok ∧
        rvWalkLeaf mc m h vaddr mode level addr pte ptePmp = ⟨res, m, ⟨0, 0⟩⟩) ∨
      (pte &&& rvSetfl mode = rvSetfl mode ∧
        rvWalkLeaf mc m h vaddr mode level addr pte ptePmp =
          ⟨.ok, m, rvLeafEntry (m.cpus h) vaddr pte level⟩) ∨
      rvWalkLeaf mc m h vaddr mode level addr pte ptePmp =
        ⟨.ok, { m with ram := ramStore m.ram (addr - mc.ramStart) (pte ||| rvSetfl mode) 8 },
          { rvLeafEntry (m.cpus h) vaddr pte level with
            pte := (rvLeafEntry (m.cpus h) vaddr pte level).pte ||| rvSetfl mode }⟩ := by
  simp only [rvWalkLeaf, rvAccessPhys_store_ok inRam, rvAccessPhys_store inRam]
  split
  · exact Or.inl ⟨.pageFault, by decide, rfl⟩
  split
  · next denied => exact Or.inl ⟨_, denied, rfl⟩
  split
  · split
    · exact Or.inl ⟨.accessFault, by decide, rfl⟩
    · exact Or.inr (Or.inr rfl)
  · next present => exact Or.inr (Or.inl ⟨not_not.mp present, rfl⟩)

/-- The marks that a value has, bit by bit. -/
theorem getLsbD_marks (mode : RvAccess) :
    mode.marks.getLsbD rvPteABit = true ∧ mode.marks.getLsbD rvPteDBit = mode.writes := by
  cases mode <;> decide

theorem marked_bits {value : U64} (marked : value &&& mode.marks = mode.marks) {i : Nat}
    (up : mode.marks.getLsbD i = true) : value.getLsbD i = true := by
  have both := congrArg (fun bits => bits.getLsbD i) marked
  rw [BitVec.getLsbD_and, up, Bool.and_true] at both
  exact both

theorem or_marks {value : U64} (marked : value &&& mode.marks = mode.marks) :
    value ||| mode.marks = value := by
  apply BitVec.eq_of_getLsbD_eq
  intro i _
  rw [BitVec.getLsbD_or]
  cases up : mode.marks.getLsbD i with
  | false => rw [Bool.or_false]
  | true => rw [marked_bits marked up, Bool.or_true]

end Leaf

section Lookup

variable {mc : EmuConfig δ} {h : Nat} {vaddr addr : U64} {mode : RvAccess} {m : EmuMachine δ}
  {pointers : List U64} {level : Nat}

/-- The page in the entry that a successful walk returns is the leaf's translation. -/
theorem WalkFound.target {cpu : RvCpu} {leaf : Leaf} {entry : RvTlbEntry}
    (found : WalkFound cpu vaddr mode leaf entry) (low : leaf.level < 3) :
    rvPtePpn entry.pte = Sv39.target vaddr (leaf.pte, leaf.level) := by
  have aligned : Sv39.ppn leaf.pte &&& Sv39.offsetMask leaf.level = 0 := by
    rw [← rvPtePpn_eq]
    exact found.aligned
  calc
    _ = rvPtePpn leaf.pte ||| ((vaddr >>> rvCpuPageSizeExp) &&& leaf.offsetMask) := found.ppn low
    _ = Sv39.ppn leaf.pte ||| ((vaddr >>> 12) &&& Sv39.offsetMask leaf.level) := by
      rw [rvPtePpn_eq]
      rfl
    _ = _ := (Sv39.target_aligned vaddr aligned).symm

/-- A lookup that comes to a leaf faults without an effect, or has translated. -/
theorem rvWalkLeaf_translated
    (leads : Sv39.Leads (ramTable mc m.ram) vaddr 3 (satpRoot (m.cpus h)) pointers level addr)
    (valid : (ramTable mc m.ram addr).getLsbD rvPteVBit = true)
    (inRam : ramHoldsRange mc addr 8 = true) (ptePmp : U8) :
    (∃ res, res ≠ .ok ∧ rvWalkLeaf mc m h vaddr mode level addr (ramTable mc m.ram addr) ptePmp =
        ⟨res, m, ⟨0, 0⟩⟩) ∨
      Translated mc m h vaddr mode
        (rvWalkLeaf mc m h vaddr mode level addr (ramTable mc m.ram addr) ptePmp)
        pointers level addr := by
  have found : (rvWalkLeaf mc m h vaddr mode level addr (ramTable mc m.ram addr) ptePmp).res = .ok →
      _ := fun ok => rvWalkLeaf_ok valid ok
  obtain ⟨accessedMark, dirtyMark⟩ := getLsbD_marks mode
  rcases rvWalkLeaf_cases inRam m h vaddr (ramTable mc m.ram addr) mode level ptePmp with
    fault | ⟨marked, walked⟩ | walked
  · exact Or.inl fault
  · apply Or.inr
    rw [walked] at found ⊢
    have leaf := found rfl
    rw [rvSetfl_eq] at marked
    have kept : ∀ i < rvPtePpnBaseBit, mode.marks.getLsbD i = true →
        (rvLeafEntry (m.cpus h) vaddr (ramTable mc m.ram addr) level).pte.getLsbD i = true := by
      intro i low up
      rw [rvLeafEntry_pte _ _ _ _ low]
      exact marked_bits marked up
    exact {
      ok := rfl
      path := ⟨leads, valid, leaf.isLeaf⟩
      page := leaf.target leads.last_lt
      accessed := kept rvPteABit (by decide) accessedMark
      dirty := fun writes => kept rvPteDBit (by decide) (dirtyMark.trans writes)
      marked := (or_marks marked).symm
      elsewhere := fun _ _ => rfl
      others := rfl }
  · apply Or.inr
    rw [walked] at found ⊢
    rw [rvSetfl_eq] at found ⊢
    have leaf := found rfl
    exact {
      ok := rfl
      path := ⟨leads, valid, leaf.isLeaf⟩
      page := leaf.target leads.last_lt
      accessed := by rw [BitVec.getLsbD_or, accessedMark, Bool.or_true]
      dirty := fun writes => by rw [BitVec.getLsbD_or, dirtyMark, writes, Bool.or_true]
      marked := ramLoad_ramStore _ _ _
      elsewhere := fun _ outside => ramStore_other _ _ _ outside
      others := rfl }

/-- With the page tables in RAM, a lookup that succeeds has translated and changed
RAM in the marks of its leaf at most, and one that faults changes nothing. -/
theorem rvPagingRawLookup_translated (mc : EmuConfig δ) (m : EmuMachine δ) (h : Nat) (vaddr : U64)
    (mode : RvAccess) (inRam : TablesInRam mc m h vaddr) :
    ((rvPagingRawLookup mc m h vaddr mode).res = .ok → ∃ pointers level addr,
        Translated mc m h vaddr mode (rvPagingRawLookup mc m h vaddr mode) pointers level addr) ∧
      ((rvPagingRawLookup mc m h vaddr mode).res ≠ .ok →
        (rvPagingRawLookup mc m h vaddr mode).machine = m) := by
  have outcome : (∃ res, res ≠ .ok ∧ rvPagingRawLookup mc m h vaddr mode = ⟨res, m, ⟨0, 0⟩⟩) ∨
      ∃ pointers level addr,
        Translated mc m h vaddr mode (rvPagingRawLookup mc m h vaddr mode) pointers level addr := by
    rcases rvWalk_cases inRam mode with
      fault | ⟨pointers, level, addr, leads, valid, walked⟩
    · exact Or.inl fault
    · have ends : rvPagingRawLookup mc m h vaddr mode = _ := walked
      rw [ends]
      rcases rvWalkLeaf_translated leads valid (inRam _ _ _ leads)
        (rvPmpCheck (m.cpus h) addr 8 false) with fault | translated
      · exact Or.inl fault
      · exact Or.inr ⟨pointers, level, addr, translated⟩
  rcases outcome with ⟨res, fault, result⟩ | ⟨pointers, level, addr, translated⟩
  · rw [result]
    exact ⟨fun ok => absurd ok fault, fun _ => rfl⟩
  · exact ⟨fun _ => ⟨pointers, level, addr, translated⟩, fun fault => absurd translated.ok fault⟩

end Lookup

/-! ### One page -/

/-- Loading from a readable page whose A bit is not set yet. -/
theorem rvPagingRawLookup_translated_load :
    ∃ pointers level addr, Translated (EmuConfig.ramOnly 0 0x1000 1) (onePageMachine 0x1f 0x03) 0 0
      .load (rvPagingRawLookup (EmuConfig.ramOnly 0 0x1000 1) (onePageMachine 0x1f 0x03) 0 0 .load)
      pointers level addr :=
  (rvPagingRawLookup_translated (EmuConfig.ramOnly 0 0x1000 1) (onePageMachine 0x1f 0x03) 0 0 .load
    (entriesInRam_leaf (by decide +kernel) (by decide +kernel))).1 (by decide +kernel)

end Riscmulator
