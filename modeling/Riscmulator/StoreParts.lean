import Riscmulator.PmpAccess
import Riscmulator.Lib.Attempts

/-! A store is made in parts, one after the other: the parts that the physical
access functions cut it into, and that performing them in order is the store. -/

namespace Riscmulator

open Attempts

variable {δ : Type}

/-- One part of a store: bytes of RAM, one write to a device, or a part that is
refused because the translation faults or nothing holds its bytes. -/
inductive StorePart (δ : Type)
  | ram (addr len data : U64)
  | device (r : EmuMmioRegion δ) (addr : U64) (size : U8) (data : U64)
  | refused

def StorePart.perform (mc : EmuConfig δ) : StorePart δ → EmuMachine δ → Bool × EmuMachine δ
  | .ram addr len data, m =>
      (true, { m with ram := ramStore m.ram (addr - mc.ramStart) data len.toNat })
  | .device r addr size data, m =>
      let out := r.write m.bus (addr - r.base) size (lowBytes data size.toNat)
      (out.1, m.setBus out.2)
  | .refused, m => (false, m)

/-- The parts that `misaligned_access` cuts a store into, unless it meets a byte
that nothing holds. -/
def splitParts (mc : EmuConfig δ) (data : U64) : Nat → U64 → U64 → Option (List (StorePart δ))
  | 0, _, _ => some []
  | fuel + 1, addr, size =>
      if size = 0 then some []
      else if ramHoldsByte mc addr then
        let len := clipPart addr size mc.ramEnd
        (splitParts mc data fuel (addr + len) (size - len)).map (.ram addr len data :: ·)
      else
        match mc.mmio.find? (·.holdsByte addr) with
        | none => none
        | some r =>
            let len := clipPart addr size r.limit
            (splitParts mc data fuel (addr + len) (size - len)).map
              (.device r addr (len.setWidth 8) data :: ·)

/-- The check of the first pass: a split store with a byte that nothing holds is refused. -/
def twoPassParts (mc : EmuConfig δ) (addr data size : U64) : List (StorePart δ) :=
  (splitParts mc data size.toNat addr size).getD [.refused]

/-- The parts of a store by `rv_access_phys`. -/
def physParts (mc : EmuConfig δ) (addr data : U64) (sizeExp : Fin 4) : List (StorePart δ) :=
  let size := bit sizeExp.val
  if ramHoldsRange mc addr size then [.ram addr size data]
  else if addr % size ≠ 0 then twoPassParts mc addr data size
  else
    match mc.mmio.find? (·.holdsRange addr size) with
    | some r => [.device r addr (size.setWidth 8) data]
    | none => [.refused]

/-- The parts of a store to two pages. -/
def pageParts (mc : EmuConfig δ) (vaddr data size : U64) (result0 result1 : RvTlbEntry) :
    List (StorePart δ) :=
  let vaddr1 := rvNextPage vaddr
  let size0 := vaddr1 - vaddr
  let size1 := vaddr + size - vaddr1
  twoPassParts mc (rvTranslate result0 vaddr) data size0 ++
    twoPassParts mc (rvTranslate result1 vaddr1) (data >>> (8 * size0.toNat)) size1

/-- A store after its translation: the machine as the walks leave it, and the
parts that are still to be performed. -/
structure StorePlan (δ : Type) where
  machine : EmuMachine δ
  parts : List (StorePart δ)

def storePlan (mc : EmuConfig δ) (m : EmuMachine δ) (h : Nat) (vaddr data : U64)
    (sizeExp : Fin 4) : StorePlan δ :=
  let size := bit sizeExp.val
  let vaddr1 := rvNextPage vaddr
  if rvIsBare (m.cpus h) .store then
    if doPmpCheck (m.cpus h) vaddr size .store ≠ .ok then ⟨m, [.refused]⟩
    else ⟨m, physParts mc vaddr data sizeExp⟩
  else if !rvIsCanonVaddr (m.cpus h) vaddr then ⟨m, [.refused]⟩
  else if vaddr / rvCpuPageSize ≠ (vaddr + size - 1) / rvCpuPageSize then
    if !rvIsCanonVaddr (m.cpus h) vaddr1 then ⟨m, [.refused]⟩
    else
      let look0 := rvPagingLookup mc m h vaddr .store
      if look0.res ≠ .ok then ⟨look0.machine, [.refused]⟩
      else
        let look1 := rvPagingLookup mc look0.machine h vaddr1 .store
        if look1.res ≠ .ok then ⟨look1.machine, [.refused]⟩
        else ⟨look1.machine, pageParts mc vaddr data size look0.entry look1.entry⟩
  else
    let look := rvPagingLookup mc m h vaddr .store
    if look.res ≠ .ok then ⟨look.machine, [.refused]⟩
    else ⟨look.machine, physParts mc (rvTranslate look.entry vaddr) data sizeExp⟩

/-- An outcome is that of performing these parts in order. -/
structure Performs (mc : EmuConfig δ) (parts : List (StorePart δ)) (m : EmuMachine δ)
    (out : MemOutcome δ) : Prop where
  ok : out.res = .ok ↔ (runAll (StorePart.perform mc) parts m).1 = true
  machine : out.machine = (runAll (StorePart.perform mc) parts m).2

section Performs

variable {mc : EmuConfig δ} {m : EmuMachine δ} {h : Nat} {data : U64}

theorem performs_refused {out : MemOutcome δ} (faults : out.res ≠ .ok)
    (same : out.machine = m) : Performs mc [.refused] m out :=
  ⟨iff_of_false faults Bool.false_ne_true, same⟩

/-- The first parts succeed, and the others are performed after them. -/
theorem Performs.append {first second : List (StorePart δ)} {early late : MemOutcome δ}
    (performed : Performs mc first m early) (done : early.res = .ok)
    (later : Performs mc second early.machine late) : Performs mc (first ++ second) m late := by
  have passed := performed.ok.mp done
  rw [performed.machine] at later
  constructor
  · rw [runAll_append_done passed]
    exact later.ok
  · rw [runAll_append_done passed]
    exact later.machine

/-- One of the first parts fails, so the others are not reached. -/
theorem Performs.stops {first second : List (StorePart δ)} {out : MemOutcome δ}
    (performed : Performs mc first m out) (faults : out.res ≠ .ok) :
    Performs mc (first ++ second) m out := by
  have failed := Bool.eq_false_iff.mpr (mt performed.ok.mpr faults)
  constructor
  · rw [runAll_append_failed failed]
    exact performed.ok
  · rw [runAll_append_failed failed]
    exact performed.machine

theorem ramTransfer_performs (addr len : U64) :
    Performs mc [.ram addr len data] m (ramTransfer mc m addr (some data) len .store) :=
  ⟨iff_of_true rfl rfl, rfl⟩

theorem mmioDispatch_performs (r : EmuMmioRegion δ) (addr : U64) (size : U8) :
    Performs mc [.device r addr size data] m
      (mmioDispatch m r addr (some data) size .store) := by
  constructor
  · rw [runAll_single]
    simp only [mmioDispatch, StorePart.perform, if_true]
    split
    · next accepted => exact iff_of_true rfl accepted
    · next rejected => exact iff_of_false (by decide) rejected
  · rw [runAll_single]
    rfl

/-- The first pass looks for bytes that nothing holds, as the split does. -/
theorem misalignedAccess_check (mc : EmuConfig δ) (m : EmuMachine δ) (data : U64) (fuel : Nat)
    (addr size : U64) :
    (misalignedAccess mc fuel m addr none size .store).res =
      if (splitParts mc data fuel addr size).isSome then .ok else .accessFault := by
  induction fuel generalizing addr size with
  | zero => rfl
  | succ fuel ih =>
      by_cases done : size = 0
      · rw [done, misalignedAccess_done]
        rfl
      cases ram : ramHoldsByte mc addr with
      | true =>
          rw [misalignedAccess_ram done ram]
          simp only [splitParts, done, ram, if_true, if_false, ramTransfer_null, Option.isSome_map]
          exact ih _ _
      | false =>
          cases region : mc.mmio.find? (·.holdsByte addr) with
          | none =>
              rw [misalignedAccess_nowhere done ram region]
              simp only [splitParts, done, ram, region, if_false]
              rfl
          | some r =>
              rw [misalignedAccess_mmio done ram region]
              simp only [splitParts, done, ram, region, if_false, mmioDispatch_null,
                Option.isSome_map, Bool.false_eq_true]
              exact ih _ _

/-- The second pass performs the parts, and keeps the buffer. -/
theorem misalignedAccess_performs (fuel : Nat) (m : EmuMachine δ) (addr size : U64)
    {parts : List (StorePart δ)} (cut : splitParts mc data fuel addr size = some parts) :
    Performs mc parts m (misalignedAccess mc fuel m addr (some data) size .store) ∧
      (misalignedAccess mc fuel m addr (some data) size .store).data = some data := by
  induction fuel generalizing m addr size parts with
  | zero =>
      cases cut
      exact ⟨⟨iff_of_true rfl rfl, rfl⟩, rfl⟩
  | succ fuel ih =>
      by_cases done : size = 0
      · rw [splitParts, if_pos done] at cut
        cases cut
        rw [done, misalignedAccess_done]
        exact ⟨⟨iff_of_true rfl rfl, rfl⟩, rfl⟩
      cases ram : ramHoldsByte mc addr with
      | true =>
          simp only [splitParts, done, ram, if_true, if_false, Option.map_eq_some_iff] at cut
          obtain ⟨rest, cut, rfl⟩ := cut
          have first : Performs mc [.ram addr (clipPart addr size mc.ramEnd) data] m _ :=
            ramTransfer_performs addr _
          obtain ⟨later, kept⟩ := ih (ramTransfer mc m addr (some data)
            (clipPart addr size mc.ramEnd) .store).machine _ _ cut
          rw [misalignedAccess_ram done ram]
          exact ⟨first.append rfl ⟨later.ok, later.machine⟩, kept⟩
      | false =>
          cases region : mc.mmio.find? (·.holdsByte addr) with
          | none =>
              simp only [splitParts, done, ram, region, if_false, Bool.false_eq_true] at cut
              cases cut
          | some r =>
              simp only [splitParts, done, ram, region, if_false, Bool.false_eq_true,
                Option.map_eq_some_iff] at cut
              obtain ⟨rest, cut, rfl⟩ := cut
              rw [misalignedAccess_mmio done ram region]
              have first : Performs mc [.device r addr ((clipPart addr size r.limit).setWidth 8) data]
                m _ := mmioDispatch_performs r addr _
              dsimp only
              split
              · next rejected => exact ⟨first.stops rejected, rfl⟩
              · next taken =>
                  obtain ⟨later, kept⟩ := ih (mmioDispatch m r addr (some data)
                    ((clipPart addr size r.limit).setWidth 8) .store).machine _ _ cut
                  exact ⟨first.append (not_not.mp taken) ⟨later.ok, later.machine⟩, kept⟩

theorem misalignedTwoPass_performs (mc : EmuConfig δ) (m : EmuMachine δ) (addr data size : U64) :
    Performs mc (twoPassParts mc addr data size) m
        (misalignedTwoPass mc m addr data size .store) ∧
      (misalignedTwoPass mc m addr data size .store).data = some data := by
  have check := misalignedAccess_check mc m data size.toNat addr size
  have same := (misalignedAccess_null mc size.toNat m addr size .store).2
  simp only [misalignedTwoPass, twoPassParts, check, same]
  cases cut : splitParts mc data size.toNat addr size with
  | none => exact ⟨performs_refused (by simp) rfl, rfl⟩
  | some parts =>
      simp only [Option.isSome_some, Option.getD_some, if_true, ne_eq, not_true_eq_false, if_false]
      exact misalignedAccess_performs size.toNat m addr size cut

theorem rvAccessPhysUnchecked_performs (addr : U64) (sizeExp : Fin 4) :
    Performs mc (physParts mc addr data sizeExp) m
      (rvAccessPhysUnchecked mc m addr data sizeExp .store) := by
  simp only [physParts, rvAccessPhysUnchecked]
  split
  · exact ramTransfer_performs addr _
  split
  · exact (misalignedTwoPass_performs mc m addr data _).1
  · cases mc.mmio.find? (·.holdsRange addr (bit sizeExp.val)) with
    | none => exact performs_refused (by simp) rfl
    | some r => exact mmioDispatch_performs r addr _

/-- The second page's parts are performed after those of the first, if these succeed. -/
theorem rvAccessTwoPages_performs (vaddr size : U64) (result0 result1 : RvTlbEntry) :
    Performs mc (pageParts mc vaddr data size result0 result1) m
      (rvAccessTwoPages mc m h vaddr data size .store result0 result1) := by
  obtain ⟨first, kept⟩ := misalignedTwoPass_performs mc m (rvTranslate result0 vaddr) data
    (rvNextPage vaddr - vaddr)
  simp only [rvAccessTwoPages, rvAccessPhysPartial, pageParts, Bool.not_true, Bool.false_and,
    Bool.false_eq_true, if_false, kept, Option.getD_some]
  split
  · next faults => exact first.stops faults
  · next done =>
      have second := (misalignedTwoPass_performs mc (misalignedTwoPass mc m
        (rvTranslate result0 vaddr) data (rvNextPage vaddr - vaddr) .store).machine
        (rvTranslate result1 (rvNextPage vaddr)) (data >>> (8 * (rvNextPage vaddr - vaddr).toNat))
        (vaddr + size - rvNextPage vaddr)).1
      exact first.append (not_not.mp done) ⟨second.ok, second.machine⟩

/-- A store is its walks, and then its parts in order. -/
theorem rvAccessVirt_performs (mc : EmuConfig δ) (m : EmuMachine δ) (h : Nat) (vaddr data : U64)
    (sizeExp : Fin 4) :
    Performs mc (storePlan mc m h vaddr data sizeExp).parts
      (storePlan mc m h vaddr data sizeExp).machine
      (rvAccessVirt mc m h vaddr data sizeExp .store) := by
  simp only [storePlan, rvAccessVirt, rvAccessVirtBy, rvAccessVirtPageboundary, rvAccessPhys,
    Bool.not_true, Bool.not_false, Bool.false_and, Bool.true_and, Bool.false_eq_true, if_false]
  split
  · simp only [decide_eq_true_eq]
    split
    · next denied => exact performs_refused denied rfl
    · exact rvAccessPhysUnchecked_performs vaddr sizeExp
  split
  · exact performs_refused (by simp) rfl
  split
  · split
    · exact performs_refused (by simp) rfl
    split
    · next faults => exact performs_refused faults rfl
    split
    · next faults => exact performs_refused faults rfl
    · exact rvAccessTwoPages_performs vaddr _ _ _
  · split
    · next faults => exact performs_refused faults rfl
    · exact rvAccessPhysUnchecked_performs _ sizeExp

end Performs

end Riscmulator
