import Riscmulator.Lockstep
import Riscmulator.PmpGuard
import Mathlib.Data.List.Forall2

/-! Accesses of two machines whose regions come to the same, one by one. -/

namespace Riscmulator

variable {δ δ' : Type}

/-- All of a range is visible. -/
def VisibleRange (visible : U64 → Prop) (addr : U64) (n : Nat) : Prop :=
  ∀ k < n, visible (addr + BitVec.ofNat 64 k)

theorem VisibleRange.part {visible : U64 → Prop} {addr part size : U64}
    (seen : VisibleRange visible addr size.toNat) (le : part.toNat ≤ size.toNat) :
    VisibleRange visible addr part.toNat :=
  fun k inside => seen k (by omega)

theorem VisibleRange.rest {visible : U64 → Prop} {addr part size : U64}
    (seen : VisibleRange visible addr size.toNat) (le : part.toNat ≤ size.toNat) :
    VisibleRange visible (addr + part) (size - part).toNat := by
  intro k inside
  have position : addr + part + BitVec.ofNat 64 k = addr + BitVec.ofNat 64 (part.toNat + k) := by
    bv_omega
  rw [position]
  exact seen _ (by bv_omega)

/-- Regions at one place whose callbacks come to the same. -/
structure AlikeRegion (R : EmuMachine δ → EmuMachine δ' → Prop) (r : EmuMmioRegion δ)
    (r' : EmuMmioRegion δ') : Prop where
  base : r'.base = r.base
  size : r'.size = r.size
  dispatch : ∀ {m m'}, R m m' → ∀ addr data size mode,
    AlikeOut R (mmioDispatch m r addr data size mode) (mmioDispatch m' r' addr data size mode)

/-- What a relation of machines needs for physical accesses to come to the same, where those
of RAM do. -/
structure BusLockstep (mc : EmuConfig δ) (mc' : EmuConfig δ')
    (R : EmuMachine δ → EmuMachine δ' → Prop) (visible : U64 → Prop) : Prop where
  ramStart : mc'.ramStart = mc.ramStart
  ramEnd : mc'.ramEnd = mc.ramEnd
  regions : List.Forall₂ (AlikeRegion R) mc.mmio mc'.mmio
  ram : ∀ {m m'}, R m m' → ∀ addr data len mode, VisibleRange visible addr len.toNat →
    AlikeOut R (ramTransfer mc m addr data len mode) (ramTransfer mc' m' addr data len mode)

theorem AlikeRegion.holdsByte {R : EmuMachine δ → EmuMachine δ' → Prop} {r : EmuMmioRegion δ}
    {r' : EmuMmioRegion δ'} (alike : AlikeRegion R r r') : r'.holdsByte = r.holdsByte := by
  funext addr
  rw [EmuMmioRegion.holdsByte, EmuMmioRegion.holdsByte, EmuMmioRegion.limit, EmuMmioRegion.limit,
    alike.base, alike.size]

theorem AlikeRegion.holdsRange {R : EmuMachine δ → EmuMachine δ' → Prop} {r : EmuMmioRegion δ}
    {r' : EmuMmioRegion δ'} (alike : AlikeRegion R r r') : r'.holdsRange = r.holdsRange := by
  funext addr size
  rw [EmuMmioRegion.holdsRange, EmuMmioRegion.holdsRange, EmuMmioRegion.limit, EmuMmioRegion.limit,
    alike.base, alike.size]

/-- A search by a test that related elements pass together finds related elements. -/
theorem find_alike {α β : Type} {S : α → β → Prop} (p : α → Bool) (p' : β → Bool)
    (tests : ∀ {a b}, S a b → p' b = p a) {l : List α} {l' : List β}
    (related : List.Forall₂ S l l') :
    Option.Rel (fun a b => p a = true ∧ S a b) (l.find? p) (l'.find? p') := by
  induction related with
  | nil => exact .none
  | @cons a b l l' first _ ih =>
      rw [List.find?_cons, List.find?_cons, tests first]
      cases passes : p a with
      | true => exact .some ⟨passes, first⟩
      | false => exact ih

section Phys

variable {mc : EmuConfig δ} {mc' : EmuConfig δ'} {R : EmuMachine δ → EmuMachine δ' → Prop}
  {visible : U64 → Prop} {m : EmuMachine δ} {m' : EmuMachine δ'} {addr : U64} {mode : RvAccess}

theorem BusLockstep.misaligned (bus : BusLockstep mc mc' R visible) (fuel : Nat) (alike : R m m')
    (data : Option U64) {size : U64} (seen : VisibleRange visible addr size.toNat) :
    AlikeOut R (misalignedAccess mc fuel m addr data size mode)
      (misalignedAccess mc' fuel m' addr data size mode) := by
  induction fuel generalizing m m' addr data size with
  | zero => exact ⟨rfl, rfl, alike⟩
  | succ fuel ih =>
      have holds : ramHoldsByte mc' addr = ramHoldsByte mc addr := by
        rw [ramHoldsByte, ramHoldsByte, bus.ramStart, bus.ramEnd]
      have find := find_alike (·.holdsByte addr) (·.holdsByte addr)
        (fun same => congrFun same.holdsByte addr) bus.regions
      simp only [misalignedAccess, holds, bus.ramEnd]
      split
      · exact ⟨rfl, rfl, alike⟩
      next pos =>
      split
      · next ram =>
          have below : addr + 1 ≤ mc.ramEnd := by
            rw [ramHoldsByte, Bool.and_eq_true, decide_eq_true_iff, decide_eq_true_iff] at ram
            exact ram.2
          have le := (clipPart_part below pos).2
          have first := bus.ram alike addr data (clipPart addr size mc.ramEnd) mode (seen.part le)
          have rest := ih first.machine (ramTransfer mc m addr data
            (clipPart addr size mc.ramEnd) mode).data (seen.rest le)
          rw [first.data]
          exact ⟨rest.res, rest.data, rest.machine⟩
      · revert find
        generalize mc.mmio.find? (·.holdsByte addr) = found
        generalize mc'.mmio.find? (·.holdsByte addr) = found'
        intro find
        cases find with
        | none => exact ⟨rfl, rfl, alike⟩
        | @some r r' both =>
            obtain ⟨holds, region⟩ := both
            have limit : r'.limit = r.limit := by
              rw [EmuMmioRegion.limit, EmuMmioRegion.limit, region.base, region.size]
            have below : addr + 1 ≤ r.limit := by
              rw [EmuMmioRegion.holdsByte, Bool.and_eq_true, decide_eq_true_iff,
                decide_eq_true_iff] at holds
              bv_omega
            have le := (clipPart_part below pos).2
            have first := region.dispatch alike addr data
              ((clipPart addr size r.limit).setWidth 8) mode
            simp only [limit]
            rw [first.res]
            split
            · exact first
            · have rest := ih first.machine (mmioDispatch m r addr data
                ((clipPart addr size r.limit).setWidth 8) mode).data (seen.rest le)
              rw [first.data]
              exact ⟨rest.res, rest.data, rest.machine⟩

theorem BusLockstep.twoPass (bus : BusLockstep mc mc' R visible) (alike : R m m') (data : U64)
    {size : U64} (seen : VisibleRange visible addr size.toNat) :
    AlikeOut R (misalignedTwoPass mc m addr data size mode)
      (misalignedTwoPass mc' m' addr data size mode) := by
  have pass : AlikeOut R (misalignedAccess mc size.toNat m addr none size mode)
      (misalignedAccess mc' size.toNat m' addr none size mode) :=
    bus.misaligned size.toNat alike none seen
  simp only [misalignedTwoPass, pass.res]
  split
  · exact ⟨rfl, rfl, pass.machine⟩
  · exact bus.misaligned size.toNat pass.machine (some data) seen

theorem BusLockstep.unchecked (bus : BusLockstep mc mc' R visible) (alike : R m m') (data : U64)
    {sizeExp : Fin 4} (seen : VisibleRange visible addr (bit sizeExp.val).toNat) :
    AlikeOut R (rvAccessPhysUnchecked mc m addr data sizeExp mode)
      (rvAccessPhysUnchecked mc' m' addr data sizeExp mode) := by
  have holds : ramHoldsRange mc' addr (bit sizeExp.val) =
      ramHoldsRange mc addr (bit sizeExp.val) := by
    rw [ramHoldsRange, ramHoldsRange, bus.ramStart, bus.ramEnd]
  have find := find_alike (·.holdsRange addr (bit sizeExp.val))
    (·.holdsRange addr (bit sizeExp.val))
    (fun same => congrFun (congrFun same.holdsRange addr) _) bus.regions
  simp only [rvAccessPhysUnchecked, holds]
  split
  · exact bus.ram alike addr (some data) _ mode seen
  split
  · exact bus.twoPass alike data seen
  · revert find
    generalize mc.mmio.find? (·.holdsRange addr (bit sizeExp.val)) = found
    generalize mc'.mmio.find? (·.holdsRange addr (bit sizeExp.val)) = found'
    intro find
    cases find with
    | some both => exact both.2.dispatch alike addr (some data) _ mode
    | none => exact ⟨rfl, rfl, alike⟩

end Phys

/-! ### Translation -/

/-- Nothing is hidden. -/
def Everywhere : U64 → Prop := fun _ => True

theorem everywhere_range (addr : U64) (n : Nat) : VisibleRange Everywhere addr n :=
  fun _ _ => trivial

structure AlikeWalk (R : EmuMachine δ → EmuMachine δ' → Prop) (out : WalkOutcome δ)
    (out' : WalkOutcome δ') : Prop where
  res : out'.res = out.res
  entry : out'.entry = out.entry
  machine : R out.machine out'.machine

structure AlikeLookup (R : EmuMachine δ → EmuMachine δ' → Prop) (out : LookupOutcome δ)
    (out' : LookupOutcome δ') : Prop where
  res : out'.res = out.res
  entry : out'.entry = out.entry
  machine : R out.machine out'.machine

/-- Every entry that a walk of `vaddr` reads is visible. -/
def WalkSeen (mc : EmuConfig δ) (visible : U64 → Prop) (h : Nat) (vaddr : U64) :
    Nat → EmuMachine δ → U64 → Prop
  | 0, _, _ => True
  | level + 1, m, ppn =>
      let out := rvAccessPhys mc m h (rvPtePaddr ppn vaddr level) 0 3 .load true
      let pte := out.data.getD 0
      VisibleRange visible (rvPtePaddr ppn vaddr level) 8 ∧
        (out.res = .ok → pte.getLsbD rvPteVBit = true → (pte &&& rvPteRwxMask) = 0 →
          WalkSeen mc visible h vaddr level out.machine (rvPtePpn pte))

theorem walkSeen_everywhere (mc : EmuConfig δ) (h : Nat) (vaddr : U64) (level : Nat)
    (m : EmuMachine δ) (ppn : U64) : WalkSeen mc Everywhere h vaddr level m ppn := by
  induction level generalizing m ppn with
  | zero => trivial
  | succ level ih => exact ⟨everywhere_range _ _, fun _ _ _ => ih _ _⟩

section Virt

variable {mc : EmuConfig δ} {mc' : EmuConfig δ'} {R : EmuMachine δ → EmuMachine δ' → Prop}
  {visible : U64 → Prop} {m : EmuMachine δ} {m' : EmuMachine δ'} {h : Nat} {mode : RvAccess}

theorem BusLockstep.phys (bus : BusLockstep mc mc' R visible) (harts : AlikeHarts R)
    (alike : R m m') {addr : U64} (data : U64) {sizeExp : Fin 4} (ignorePmp : Bool)
    (seen : VisibleRange visible addr (bit sizeExp.val).toNat) :
    AlikeOut R (rvAccessPhys mc m h addr data sizeExp mode ignorePmp)
      (rvAccessPhys mc' m' h addr data sizeExp mode ignorePmp) := by
  simp only [rvAccessPhys, harts.cpus alike]
  split
  · exact ⟨rfl, rfl, alike⟩
  · exact bus.unchecked alike data seen

theorem BusLockstep.physPartial (bus : BusLockstep mc mc' R visible) (harts : AlikeHarts R)
    (alike : R m m') {addr : U64} (data : U64) {size : U64} (ignorePmp : Bool)
    (seen : VisibleRange visible addr size.toNat) :
    AlikeOut R (rvAccessPhysPartial mc m h addr data size mode ignorePmp)
      (rvAccessPhysPartial mc' m' h addr data size mode ignorePmp) := by
  simp only [rvAccessPhysPartial, harts.cpus alike]
  split
  · exact ⟨rfl, rfl, alike⟩
  · exact bus.twoPass alike data seen

theorem BusLockstep.walkLeaf (bus : BusLockstep mc mc' R visible) (harts : AlikeHarts R)
    (alike : R m m') (vaddr : U64) (level : Nat) {ptePaddr : U64} (pte : U64) (ptePmp : U8)
    (seen : VisibleRange visible ptePaddr 8) :
    AlikeWalk R (rvWalkLeaf mc m h vaddr mode level ptePaddr pte ptePmp)
      (rvWalkLeaf mc' m' h vaddr mode level ptePaddr pte ptePmp) := by
  have stored : AlikeOut R (rvAccessPhys mc m h ptePaddr (pte ||| rvSetfl mode) 3 .store true)
      (rvAccessPhys mc' m' h ptePaddr (pte ||| rvSetfl mode) 3 .store true) :=
    bus.phys harts alike _ true seen
  simp only [rvWalkLeaf, harts.cpus alike, stored.res]
  split
  · exact ⟨rfl, rfl, alike⟩
  split
  · exact ⟨rfl, rfl, alike⟩
  split
  · split
    · exact ⟨rfl, rfl, alike⟩
    split
    · exact ⟨rfl, rfl, stored.machine⟩
    · exact ⟨rfl, rfl, stored.machine⟩
  · exact ⟨rfl, rfl, alike⟩

theorem BusLockstep.walk (bus : BusLockstep mc mc' R visible) (harts : AlikeHarts R)
    {vaddr : U64} {level : Nat} (alike : R m m') {ppn : U64}
    (seen : WalkSeen mc visible h vaddr level m ppn) :
    AlikeWalk R (rvWalk mc h vaddr mode level m ppn) (rvWalk mc' h vaddr mode level m' ppn) := by
  induction level generalizing m m' ppn with
  | zero => exact ⟨rfl, rfl, alike⟩
  | succ level ih =>
      obtain ⟨entry, rest⟩ := seen
      have read : AlikeOut R (rvAccessPhys mc m h (rvPtePaddr ppn vaddr level) 0 3 .load true)
          (rvAccessPhys mc' m' h (rvPtePaddr ppn vaddr level) 0 3 .load true) :=
        bus.phys harts alike 0 true entry
      simp only [rvWalk, harts.cpus alike, read.res, read.data]
      split
      · exact ⟨rfl, rfl, alike⟩
      split
      · exact ⟨rfl, rfl, read.machine⟩
      next ok =>
      split
      · exact ⟨rfl, rfl, read.machine⟩
      next valid =>
      split
      · exact bus.walkLeaf harts read.machine vaddr level _ _ entry
      next inner =>
        rw [Bool.not_eq_true', Bool.not_eq_false] at valid
        exact ih read.machine (rest (not_not.mp ok) valid (not_not.mp inner))

theorem BusLockstep.miss (bus : BusLockstep mc mc' R visible) (harts : AlikeHarts R)
    (alike : R m m') {vaddr : U64}
    (seen : WalkSeen mc visible h vaddr 3 m ((m.cpus h).csr.satp &&& rvSatpPpnMask)) :
    AlikeLookup R (rvPagingMiss mc m h vaddr mode) (rvPagingMiss mc' m' h vaddr mode) := by
  have walked : AlikeWalk R (rvPagingRawLookup mc m h vaddr mode)
      (rvPagingRawLookup mc' m' h vaddr mode) := by
    rw [rvPagingRawLookup, rvPagingRawLookup, harts.cpus alike]
    exact bus.walk harts alike seen
  simp only [rvPagingMiss, walked.res, walked.entry, harts.cpus walked.machine]
  split
  · exact ⟨rfl, rfl, walked.machine⟩
  split
  · exact ⟨rfl, rfl, walked.machine⟩
  · refine ⟨rfl, rfl, ?_⟩
    rw [EmuMachine.setTlb, EmuMachine.setTlb, harts.cpus walked.machine]
    exact harts.setCpu walked.machine h _

theorem BusLockstep.lookup (bus : BusLockstep mc mc' R visible) (harts : AlikeHarts R)
    (alike : R m m') {vaddr : U64}
    (seen : ∀ first : EmuMachine δ, first.ram = m.ram →
      WalkSeen mc visible h vaddr 3 first ((m.cpus h).csr.satp &&& rvSatpPpnMask)) :
    AlikeLookup R (rvPagingLookup mc m h vaddr mode) (rvPagingLookup mc' m' h vaddr mode) := by
  simp only [rvPagingLookup, harts.cpus alike]
  split
  · exact ⟨rfl, rfl, alike⟩
  · rw [EmuMachine.setTlb, EmuMachine.setTlb, harts.cpus alike]
    refine bus.miss harts (harts.setCpu alike h _) ?_
    rw [EmuMachine.setCpu_same]
    exact seen _ rfl
  · exact bus.miss harts alike (seen m rfl)

theorem BusLockstep.twoPages (bus : BusLockstep mc mc' R visible) (harts : AlikeHarts R)
    (alike : R m m') {vaddr : U64} (data : U64) {size : U64} {result0 result1 : RvTlbEntry}
    (seen0 : VisibleRange visible (rvTranslate result0 vaddr) (rvNextPage vaddr - vaddr).toNat)
    (seen1 : VisibleRange visible (rvTranslate result1 (rvNextPage vaddr))
      (vaddr + size - rvNextPage vaddr).toNat) :
    AlikeOut R (rvAccessTwoPages mc m h vaddr data size mode result0 result1)
      (rvAccessTwoPages mc' m' h vaddr data size mode result0 result1) := by
  have first : AlikeOut R (rvAccessPhysPartial mc m h (rvTranslate result0 vaddr) data
      (rvNextPage vaddr - vaddr) mode true)
      (rvAccessPhysPartial mc' m' h (rvTranslate result0 vaddr) data
        (rvNextPage vaddr - vaddr) mode true) := bus.physPartial harts alike data true seen0
  simp only [rvAccessTwoPages, first.res, first.data]
  split
  · exact first
  · generalize (rvAccessPhysPartial mc m h (rvTranslate result0 vaddr) data
      (rvNextPage vaddr - vaddr) mode true).data.getD data >>>
        (8 * (rvNextPage vaddr - vaddr).toNat) = rest
    have second : AlikeOut R (rvAccessPhysPartial mc (rvAccessPhysPartial mc m h
        (rvTranslate result0 vaddr) data (rvNextPage vaddr - vaddr) mode true).machine h
        (rvTranslate result1 (rvNextPage vaddr)) rest (vaddr + size - rvNextPage vaddr) mode true)
        (rvAccessPhysPartial mc' _ h (rvTranslate result1 (rvNextPage vaddr)) rest
          (vaddr + size - rvNextPage vaddr) mode true) :=
      bus.physPartial harts first.machine rest true seen1
    exact ⟨second.res, by rw [second.data], second.machine⟩

/-- Regions that come to the same make virtual accesses come to the same. -/
theorem BusLockstep.virt (bus : BusLockstep mc mc' R Everywhere) (harts : AlikeHarts R)
    (alike : R m m') (vaddr data : U64) (sizeExp : Fin 4) (mode : RvAccess) :
    AlikeOut R (rvAccessVirt mc m h vaddr data sizeExp mode)
      (rvAccessVirt mc' m' h vaddr data sizeExp mode) := by
  have look0 : AlikeLookup R (rvPagingLookup mc m h vaddr mode)
      (rvPagingLookup mc' m' h vaddr mode) := 
    bus.lookup harts alike fun _ _ => walkSeen_everywhere _ _ _ _ _ _
  have look1 : AlikeLookup R
      (rvPagingLookup mc (rvPagingLookup mc m h vaddr mode).machine h (rvNextPage vaddr) mode)
      (rvPagingLookup mc' (rvPagingLookup mc' m' h vaddr mode).machine h (rvNextPage vaddr) mode) :=
    bus.lookup harts look0.machine fun _ _ => walkSeen_everywhere _ _ _ _ _ _
  simp only [rvAccessVirt, rvAccessVirtBy, rvAccessVirtPageboundary, harts.cpus alike, look0.res,
    look0.entry, look1.res, look1.entry]
  split
  · exact bus.phys harts alike data false (everywhere_range _ _)
  split
  · exact ⟨rfl, rfl, alike⟩
  split
  · split
    · exact ⟨rfl, rfl, alike⟩
    split
    · exact ⟨rfl, rfl, look0.machine⟩
    split
    · exact ⟨rfl, rfl, look1.machine⟩
    · exact bus.twoPages harts look1.machine _ (everywhere_range _ _) (everywhere_range _ _)
  · split
    · exact ⟨rfl, rfl, look0.machine⟩
    · exact bus.phys harts look0.machine _ _ (everywhere_range _ _)

end Virt

end Riscmulator
