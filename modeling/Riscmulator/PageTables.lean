import Riscmulator.TlbAccess
import Riscmulator.Lib.Sv39

/-! Page tables in RAM: the entries that a walk reads and writes, and the Sv39
translation that its leaf stands for. -/

namespace Riscmulator

variable {δ : Type}

/-! ### Words of RAM -/

theorem getLsbD_ramLoad (ram : U64 → U8) (n : Nat) {i : Nat} (word : i < 64) (idx : U64) :
    (ramLoad ram idx n).getLsbD i =
      (decide (i < 8 * n) && (ram (idx + BitVec.ofNat 64 (i / 8))).getLsbD (i % 8)) := by
  induction n generalizing idx i with
  | zero => simp [ramLoad]
  | succ n ih =>
      rw [ramLoad, BitVec.getLsbD_or, BitVec.getLsbD_setWidth, BitVec.getLsbD_shiftLeft]
      by_cases first : i < 8
      · have byte : i / 8 = 0 := Nat.div_eq_of_lt first
        have inside : i < 8 * (n + 1) := by omega
        simp [first, byte, Nat.mod_eq_of_lt first, inside, word]
      · have next : (ram idx).getLsbD i = false := BitVec.getLsbD_of_ge _ _ (by omega)
        have byte : idx + 1 + BitVec.ofNat 64 ((i - 8) / 8) = idx + BitVec.ofNat 64 (i / 8) := by
          have successor : i / 8 = 1 + (i - 8) / 8 := by omega
          rw [successor, BitVec.ofNat_add, BitVec.add_assoc]
          rfl
        have position : (i - 8) % 8 = i % 8 := by omega
        rw [ih (by omega), byte, position, next]
        simp only [first, word, decide_true, decide_false, Bool.not_false, Bool.true_and,
          Bool.and_false, Bool.false_or]
        congr 1
        simp only [decide_eq_decide]
        omega

/-- A word read where it was written. -/
theorem ramLoad_ramStore (ram : U64 → U8) (idx data : U64) :
    ramLoad (ramStore ram idx data 8) idx 8 = data := by
  apply BitVec.eq_of_getLsbD_eq
  intro i word
  have byte : (idx + BitVec.ofNat 64 (i / 8) - idx).toNat = i / 8 := by bv_omega
  have inside : i / 8 < 8 := by omega
  have position : i % 8 < 8 := Nat.mod_lt _ (by decide)
  rw [getLsbD_ramLoad _ 8 word, ramStore, byte, if_pos inside, BitVec.getLsbD_setWidth,
    BitVec.getLsbD_ushiftRight, Nat.div_add_mod]
  simp [word, position]

theorem ramLoad_ramStore_other (ram : U64 → U8) (start data : U64) {paddr paddr' : U64}
    (aligned : paddr.toNat % 8 = 0) (aligned' : paddr'.toNat % 8 = 0) (other : paddr' ≠ paddr) :
    ramLoad (ramStore ram (paddr - start) data 8) (paddr' - start) 8 =
      ramLoad ram (paddr' - start) 8 := by
  apply BitVec.eq_of_getLsbD_eq
  intro i word
  have outside : ¬(paddr' - start + BitVec.ofNat 64 (i / 8) - (paddr - start)).toNat < 8 := by
    have byte : i / 8 < 8 := by omega
    generalize i / 8 = k at byte
    bv_omega
  rw [getLsbD_ramLoad _ 8 word, getLsbD_ramLoad _ 8 word, ramStore, if_neg outside]

def ramTable (mc : EmuConfig δ) (ram : U64 → U8) (paddr : U64) : U64 :=
  ramLoad ram (paddr - mc.ramStart) 8

theorem rvAccessPhys_load {mc : EmuConfig δ} (m : EmuMachine δ) (h : Nat) {paddr : U64}
    (inRam : ramHoldsRange mc paddr 8 = true) :
    (rvAccessPhys mc m h paddr 0 3 .load true).res = .ok ∧
      (rvAccessPhys mc m h paddr 0 3 .load true).machine = m ∧
      (rvAccessPhys mc m h paddr 0 3 .load true).data = some (ramTable mc m.ram paddr) := by
  have size : bit (3 : Fin 4).val = 8 := rfl
  have whole : spliceLow 0 (ramLoad m.ram (paddr - mc.ramStart) 8) 8 =
      ramLoad m.ram (paddr - mc.ramStart) 8 := by
    simp [spliceLow]
  simp only [rvAccessPhys, rvAccessPhysUnchecked, size, inRam, ramTransfer]
  exact ⟨rfl, rfl, congrArg some whole⟩

theorem rvAccessPhys_store {mc : EmuConfig δ} {m : EmuMachine δ} {h : Nat} {paddr data : U64}
    (inRam : ramHoldsRange mc paddr 8 = true) :
    (rvAccessPhys mc m h paddr data 3 .store true).machine =
      { m with ram := ramStore m.ram (paddr - mc.ramStart) data 8 } := by
  have size : bit (3 : Fin 4).val = 8 := rfl
  simp only [rvAccessPhys, rvAccessPhysUnchecked, size, inRam, ramTransfer]
  rfl

/-! ### The walk's arithmetic -/

theorem div_pageSize (vaddr : U64) : vaddr / rvCpuPageSize = vaddr >>> 12 := by
  have power : rvCpuPageSize = BitVec.twoPow 64 12 := by decide
  rw [power, BitVec.udiv_twoPow_eq_of_lt (by decide)]

theorem rvPtePaddr_eq (base vaddr : U64) (level : Nat) :
    rvPtePaddr base vaddr level = Sv39.entryAddr base vaddr level := by
  simp only [rvPtePaddr, Sv39.entryAddr, Sv39.vpn, div_pageSize, BitVec.shiftRight_add]
  rfl

theorem rvPtePpn_eq (pte : U64) : rvPtePpn pte = Sv39.ppn pte := by
  have mask : rvPtePpnMask >>> rvPtePpnBaseBit = 0xfffffffffff := by decide
  rw [rvPtePpn, BitVec.ushiftRight_and_distrib, mask]
  rfl

theorem rwxMask_bits : ∀ i < 64, rvPteRwxMask.getLsbD i = true → i = 1 ∨ i = 2 ∨ i = 3 ∨ i = 4 := by
  decide

/-- The code's leaf test: R, W or X, or the U bit alone. -/
theorem rwxMask_iff (pte : U64) :
    (pte &&& rvPteRwxMask) ≠ 0 ↔ Sv39.isLeaf pte = true ∨ pte.getLsbD rvPteUBit = true := by
  rw [Ne, BitField.eq_zero_iff]
  simp only [not_forall, Bool.not_eq_false, BitVec.getLsbD_and, Bool.and_eq_true, Sv39.isLeaf,
    Bool.or_eq_true]
  constructor
  · intro some'
    rcases some' with ⟨i, up, masked⟩
    have word : i < 64 := BitVec.lt_of_getLsbD up
    rcases rwxMask_bits i word masked with rfl | rfl | rfl | rfl
    · exact Or.inl (Or.inl (Or.inl up))
    · exact Or.inl (Or.inl (Or.inr up))
    · exact Or.inl (Or.inr up)
    · exact Or.inr up
  · intro permission
    rcases permission with ((r | w) | x) | u
    · exact ⟨1, r, by decide⟩
    · exact ⟨2, w, by decide⟩
    · exact ⟨3, x, by decide⟩
    · exact ⟨4, u, by decide⟩

/-! ### Tables that stay fixed -/

/-- A set of page-table entries: aligned words in RAM. -/
structure TableSet (mc : EmuConfig δ) where
  mem : U64 → Prop
  aligned : ∀ paddr, mem paddr → paddr.toNat % 8 = 0
  inRam : ∀ paddr, mem paddr → ramHoldsRange mc paddr 8 = true

/-- RAM holds the entries of `table`, up to their A and D bits. -/
def TablesFixed {mc : EmuConfig δ} (T : TableSet mc) (table : U64 → U64) (ram : U64 → U8) : Prop :=
  ∀ paddr, T.mem paddr → Sv39.SameEntry (ramTable mc ram paddr) (table paddr)

section Tables

variable {mc : EmuConfig δ} {T : TableSet mc} {table : U64 → U64} {h : Nat} {vaddr : U64}
  {mode : RvAccess}

/-- Writing an entry of the set back with more A and D bits keeps the tables. -/
theorem tablesFixed_store {ram : U64 → U8} (fixed : TablesFixed T table ram) {paddr data : U64}
    (mem : T.mem paddr) (same : Sv39.SameEntry data (ramTable mc ram paddr)) :
    TablesFixed T table (ramStore ram (paddr - mc.ramStart) data 8) := by
  intro paddr' mem'
  by_cases mine : paddr' = paddr
  · subst mine
    rw [ramTable, ramLoad_ramStore]
    apply same.trans
    exact fixed paddr' mem
  · rw [ramTable, ramLoad_ramStore_other ram mc.ramStart data (T.aligned paddr mem)
      (T.aligned paddr' mem') mine]
    exact fixed paddr' mem'

theorem rvSetfl_bits (mode : RvAccess) : ∀ i, i ≠ 6 → i ≠ 7 → (rvSetfl mode).getLsbD i = false := by
  have low : ∀ i < 64, i ≠ 6 → i ≠ 7 → (rvSetfl mode).getLsbD i = false := by
    cases mode <;> decide
  intro i accessed dirty
  rcases Nat.lt_or_ge i 64 with word | beyond
  · exact low i word accessed dirty
  · exact BitVec.getLsbD_of_ge _ _ beyond

theorem rvWalkLeaf_tables {m : EmuMachine δ} (fixed : TablesFixed T table m.ram) {level : Nat}
    {ptePaddr : U64} (mem : T.mem ptePaddr) (ptePmp : U8) :
    TablesFixed T table (rvWalkLeaf mc m h vaddr mode level ptePaddr (ramTable mc m.ram ptePaddr)
      ptePmp).machine.ram := by
  have stored : TablesFixed T table (rvAccessPhys mc m h ptePaddr
      (ramTable mc m.ram ptePaddr ||| rvSetfl mode) 3 .store true).machine.ram := by
    rw [rvAccessPhys_store (T.inRam ptePaddr mem)]
    exact tablesFixed_store fixed mem (Sv39.sameEntry_or (rvSetfl_bits mode))
  simp only [rvWalkLeaf]
  split_ifs
  · exact fixed
  · exact fixed
  · exact fixed
  · exact stored
  · exact stored
  · exact fixed

/-- A walk keeps the tables whose entries it meets. -/
theorem rvWalk_tables {level : Nat} {m : EmuMachine δ} {base : U64}
    (fixed : TablesFixed T table m.ram) (within : Sv39.Within T.mem table vaddr level base) :
    TablesFixed T table (rvWalk mc h vaddr mode level m base).machine.ram := by
  induction level generalizing base with
  | zero => exact fixed
  | succ level ih =>
      rcases within with ⟨mem, next⟩
      have same := fixed _ mem
      obtain ⟨_, machine, data⟩ := rvAccessPhys_load m h (T.inRam _ mem)
      simp only [rvWalk, rvPtePaddr_eq, machine, data, Option.getD_some]
      split_ifs with _ _ present leaf
      · exact fixed
      · exact fixed
      · exact fixed
      · exact rvWalkLeaf_tables fixed mem _
      · rw [rvPtePpn_eq, same.ppn]
        apply ih
        apply next
        · rw [← same.valid]
          simpa [Sv39.valid, rvPteVBit] using present
        · rw [rwxMask_iff, not_or, Bool.not_eq_true, same.isLeaf] at leaf
          exact leaf.1

/-- The leaf that a walk finds is that of the Sv39 path, if it has a permission
and is aligned. -/
theorem rvFindLeaf_walk {level : Nat} {m : EmuMachine δ} {base : U64} {leaf : Leaf}
    (fixed : TablesFixed T table m.ram) (within : Sv39.Within T.mem table vaddr level base)
    (found : rvFindLeaf mc h vaddr level m base = some leaf)
    (permitted : Sv39.isLeaf leaf.pte = true) (aligned : leaf.Aligned) :
    ∃ pte, Sv39.walk table vaddr level base = some (pte, leaf.level) ∧
      Sv39.SameEntry leaf.pte pte := by
  induction level generalizing base with
  | zero => cases found
  | succ level ih =>
      rcases within with ⟨mem, next⟩
      have same := fixed _ mem
      obtain ⟨res, machine, data⟩ := rvAccessPhys_load m h (T.inRam _ mem)
      simp only [rvFindLeaf, rvPtePaddr_eq, res, machine, data, Option.getD_some] at found
      split at found
      · next fault => exact absurd rfl fault
      split at found
      · cases found
      next present =>
      have valid : Sv39.valid (table (Sv39.entryAddr base vaddr level)) = true := by
        rw [← same.valid]
        simpa [Sv39.valid, rvPteVBit] using present
      split at found
      · cases found
        have start :
            Sv39.ppn (table (Sv39.entryAddr base vaddr level)) &&& Sv39.offsetMask level = 0 := by
          rw [← same.ppn, ← rvPtePpn_eq]
          exact aligned
        refine ⟨_, ?_, same⟩
        simp only [Sv39.walk, valid, ← same.isLeaf, permitted, start]
        rfl
      · next pointer =>
          rw [rwxMask_iff, not_or, Bool.not_eq_true, same.isLeaf] at pointer
          rw [rvPtePpn_eq, same.ppn] at found
          rcases ih (next valid pointer.1) found with ⟨pte, walked, entry⟩
          refine ⟨pte, ?_, entry⟩
          simp only [Sv39.walk, valid, pointer.1]
          exact walked

end Tables

end Riscmulator
