import Riscmulator.RamBounds
import Riscmulator.TlbAddress
import Riscmulator.Lib.FirstMatch

/-! PMP on the way from a virtual access to the bytes it transfers. -/

namespace Riscmulator

open Transition

variable {δ : Type}

/-! ### Parts of a checked range -/

theorem xor_succ_low (x : U64) : (x ^^^ (x + 1)).getLsbD 0 = true := by
  have step : (x + 1).getLsbD 0 = !x.getLsbD 0 := by
    simp only [BitVec.getLsbD, Nat.testBit_zero, BitVec.toNat_add]
    by_cases even : x.toNat % 2 = 1
    · simp [even]
      omega
    · simp [even]
      omega
  rw [BitVec.getLsbD_xor, step]
  cases x.getLsbD 0 <;> rfl

/-- A region starts and ends at multiples of eight bytes. -/
theorem pmpaddrMatch_granule {paddr paddr' : U64} (same : paddr >>> 3 = paddr' >>> 3)
    (pmpaddr : U64) : pmpaddrMatch paddr pmpaddr = pmpaddrMatch paddr' pmpaddr := by
  have low : ∀ i, i < 3 → (((pmpaddr ^^^ (pmpaddr + 1)) <<< 2) ||| 3).getLsbD i = true := by
    intro i below
    have third := xor_succ_low pmpaddr
    obtain rfl | rfl | rfl : i = 0 ∨ i = 1 ∨ i = 2 := by omega
    · simp
    · simp
    · rw [BitVec.getLsbD_or, BitVec.getLsbD_shiftLeft, third]
      rfl
  have masked : paddr &&& ~~~(((pmpaddr ^^^ (pmpaddr + 1)) <<< 2) ||| 3) =
      paddr' &&& ~~~(((pmpaddr ^^^ (pmpaddr + 1)) <<< 2) ||| 3) := by
    apply BitVec.eq_of_getLsbD_eq
    intro i _
    rw [BitField.getLsbD_and_not, BitField.getLsbD_and_not]
    rcases Nat.lt_or_ge i 3 with below | above
    · rw [low i below]
      simp
    · have bits := congrArg (fun x : U64 => x.getLsbD (i - 3)) same
      simp only [BitVec.getLsbD_ushiftRight, Nat.add_sub_cancel' above] at bits
      rw [bits]
  simp only [pmpaddrMatch, masked]

/-- The bytes of a range of at most eight lie in the granules of its first and
its last byte. -/
theorem granule_of_part (addr k : U64) {size : U64} (small : size.toNat ≤ 8) (inside : k.toNat < size.toNat) :
    (addr + k) >>> 3 = addr >>> 3 ∨ (addr + k) >>> 3 = (addr + size - 1) >>> 3 := by
  by_cases first : (addr + k).toNat / 8 = addr.toNat / 8
  · left
    apply BitVec.eq_of_toNat_eq
    simp only [BitVec.toNat_ushiftRight, Nat.shiftRight_eq_div_pow]
    exact first
  · right
    apply BitVec.eq_of_toNat_eq
    simp only [BitVec.toNat_ushiftRight, Nat.shiftRight_eq_div_pow]
    bv_omega

/-- On a part of the range an entry decides as on the whole, unless the whole
spans an edge of its region. -/
theorem rvPmpEntry_part (cpu : RvCpu) {addr size k len : U64} (small : size.toNat ≤ 8)
    (some' : 0 < len.toNat) (inside : k.toNat + len.toNat ≤ size.toNat) (mMode : Bool) (i : Fin 64) :
    rvPmpEntry cpu addr (addr + size - 1) mMode i =
        rvPmpEntry cpu (addr + k) (addr + k + len - 1) mMode i ∨
      rvPmpEntry cpu addr (addr + size - 1) mMode i = some 0 := by
  have first := granule_of_part addr k small (by omega)
  have last := granule_of_part addr (k + len - 1) small (by bv_omega)
  have position : addr + (k + len - 1) = addr + k + len - 1 := by bv_omega
  rw [position] at last
  simp only [rvPmpEntry]
  split
  · exact Or.inl rfl
  · generalize cpu.csr.pmpaddr i = region
    by_cases edge : pmpaddrMatch addr region = pmpaddrMatch (addr + size - 1) region
    · left
      have start : pmpaddrMatch (addr + k) region = pmpaddrMatch addr region := by
        rcases first with low | high
        · exact pmpaddrMatch_granule low region
        · rw [pmpaddrMatch_granule high region, edge]
      have stop : pmpaddrMatch (addr + k + len - 1) region = pmpaddrMatch addr region := by
        rcases last with low | high
        · exact pmpaddrMatch_granule low region
        · rw [pmpaddrMatch_granule high region, edge]
      rw [start, stop, edge]
    · right
      rw [if_pos (by simpa using edge)]

/-- What a check grants to a range of at most eight bytes it grants to each of
its parts. -/
theorem rvPmpCheck_part {cpu : RvCpu} {addr size k len : U64} {mMode : Bool} {b : Nat}
    (small : size.toNat ≤ 8) (some' : 0 < len.toNat) (inside : k.toNat + len.toNat ≤ size.toNat)
    (whole : (rvPmpCheck cpu addr size mMode).getLsbD b = true) :
    (rvPmpCheck cpu (addr + k) len mMode).getLsbD b = true := by
  have decided : (List.finRange 64).findSome? (rvPmpEntry cpu addr (addr + size - 1) mMode) ≠
      some 0 := by
    intro zero
    have clear : (0 : U8).getLsbD b = false := BitVec.getLsbD_zero
    rw [rvPmpCheck, zero, Option.getD_some, clear] at whole
    cases whole
  have same := FirstMatch.findSome_agree
    (rvPmpEntry_part cpu small some' inside mMode) (List.finRange 64) decided
  rw [rvPmpCheck, same]
  exact whole

/-! ### Transfers of a physical access -/

/-- The transfer is of some of the `size` bytes at `addr`. -/
def PartOf (addr size : U64) (t : PhysTouch) : Prop :=
  ∃ k : U64, t.addr = addr + k ∧ 0 < t.len.toNat ∧ k.toNat + t.len.toNat ≤ size.toNat

theorem partOf_rest {addr size part : U64} {t : PhysTouch} (le : part.toNat ≤ size.toNat)
    (rest : PartOf (addr + part) (size - part) t) : PartOf addr size t := by
  rcases rest with ⟨k, start, pos, inside⟩
  refine ⟨part + k, ?_, pos, ?_⟩
  · rw [start, BitVec.add_assoc]
  · bv_omega

theorem partOf_start {addr size part : U64} {inRam : Bool} (pos : 0 < part.toNat)
    (le : part.toNat ≤ size.toNat) : PartOf addr size ⟨addr, part, inRam⟩ :=
  ⟨0, by simp, pos, by simpa using le⟩

theorem clipPart_part {addr size limit : U64} (below : addr + 1 ≤ limit) (pos : size ≠ 0) :
    0 < (clipPart addr size limit).toNat ∧ (clipPart addr size limit).toNat ≤ size.toNat := by
  unfold clipPart
  split <;> bv_omega

section Transfers

variable {mc : EmuConfig δ} {mode : RvAccess}

theorem ramTransfer_parts (m : EmuMachine δ) {addr size len : U64} (data : Option U64)
    (pos : 0 < len.toNat) (le : len.toNat ≤ size.toNat) :
    ∀ t ∈ (ramTransfer mc m addr data len mode).touched, PartOf addr size t := by
  intro t member
  cases data with
  | none => cases member
  | some d =>
      rw [ramTransfer_touched, List.mem_singleton] at member
      rw [member]
      exact partOf_start pos le

theorem mmioDispatch_parts (m : EmuMachine δ) (r : EmuMmioRegion δ) {addr size : U64} {len : U8}
    (data : Option U64) (pos : 0 < len.toNat) (le : len.toNat ≤ size.toNat) :
    ∀ t ∈ (mmioDispatch m r addr data len mode).touched, PartOf addr size t := by
  have wide : (len.setWidth 64).toNat = len.toNat := by
    rw [BitVec.toNat_setWidth]
    exact Nat.mod_eq_of_lt (by omega)
  intro t member
  cases data with
  | none => cases member
  | some d =>
      simp only [mmioDispatch] at member
      split at member <;>
        (rw [List.mem_singleton.mp member]
         exact partOf_start (by rw [wide]; exact pos) (by rw [wide]; exact le))

theorem misalignedAccess_parts (fuel : Nat) (m : EmuMachine δ) (addr size : U64)
    (data : Option U64) (small : size.toNat ≤ 8) :
    ∀ t ∈ (misalignedAccess mc fuel m addr data size mode).touched, PartOf addr size t := by
  induction fuel generalizing m addr size data with
  | zero =>
      intro t member
      cases member
  | succ fuel ih =>
      by_cases done : size = 0
      · rw [done, misalignedAccess_done]
        intro t member
        cases member
      · cases ram : ramHoldsByte mc addr with
        | true =>
            rw [misalignedAccess_ram done ram]
            have below : addr + 1 ≤ mc.ramEnd := by
              simp only [ramHoldsByte, Bool.and_eq_true, decide_eq_true_eq] at ram
              exact ram.2
            obtain ⟨pos, le⟩ := clipPart_part below done
            intro t member
            rcases List.mem_append.mp member with now | later
            · exact ramTransfer_parts m data pos le t now
            · exact partOf_rest le (ih _ _ _ _ (by bv_omega) t later)
        | false =>
            cases found : mc.mmio.find? (·.holdsByte addr) with
            | none =>
                rw [misalignedAccess_nowhere done ram found]
                intro t member
                cases member
            | some r =>
                rw [misalignedAccess_mmio done ram found]
                have below : addr + 1 ≤ r.limit := by
                  have limit := (holdsByte_limit found).2
                  bv_omega
                rcases clipPart_part below done with ⟨pos, le⟩
                have narrow : ((clipPart addr size r.limit).setWidth 8).toNat =
                    (clipPart addr size r.limit).toNat := by
                  rw [BitVec.toNat_setWidth]
                  exact Nat.mod_eq_of_lt (by omega)
                have now : ∀ t ∈ (mmioDispatch m r addr data ((clipPart addr size r.limit).setWidth 8)
                    mode).touched, PartOf addr size t :=
                  mmioDispatch_parts m r data (by rw [narrow]; exact pos) (by rw [narrow]; exact le)
                simp only
                split
                · exact now
                · intro t member
                  rcases List.mem_append.mp member with first | later
                  · exact now t first
                  · exact partOf_rest le (ih _ _ _ _ (by bv_omega) t later)

theorem misalignedTwoPass_parts (m : EmuMachine δ) (addr data size : U64) (small : size.toNat ≤ 8) :
    ∀ t ∈ (misalignedTwoPass mc m addr data size mode).touched, PartOf addr size t := by
  simp only [misalignedTwoPass]
  split
  · exact misalignedAccess_parts _ m addr size none small
  · exact misalignedAccess_parts _ _ addr size _ small

theorem rvAccessPhysPartial_parts (m : EmuMachine δ) (h : Nat) (addr data size : U64)
    (ignorePmp : Bool) (small : size.toNat ≤ 8) :
    ∀ t ∈ (rvAccessPhysPartial mc m h addr data size mode ignorePmp).touched,
      PartOf addr size t := by
  simp only [rvAccessPhysPartial]
  split
  · intro t member
    cases member
  · exact misalignedTwoPass_parts m addr data size small

theorem accessSize_small (sizeExp : Fin 4) :
    0 < (bit sizeExp.val).toNat ∧ (bit sizeExp.val).toNat ≤ 8 := by
  revert sizeExp
  decide

/-- Every transfer of `rv_access_phys` is of some of its bytes. -/
theorem rvAccessPhys_parts (m : EmuMachine δ) (h : Nat) (addr data : U64) (sizeExp : Fin 4)
    (ignorePmp : Bool) :
    ∀ t ∈ (rvAccessPhys mc m h addr data sizeExp mode ignorePmp).touched,
      PartOf addr (bit sizeExp.val) t := by
  obtain ⟨pos, small⟩ := accessSize_small sizeExp
  simp only [rvAccessPhys, rvAccessPhysUnchecked]
  split
  · intro t member
    cases member
  split
  · exact ramTransfer_parts m _ pos (le_refl _)
  split
  · exact misalignedTwoPass_parts m addr data _ small
  split
  · have narrow : ((bit sizeExp.val).setWidth 8).toNat = (bit sizeExp.val).toNat := by
      rw [BitVec.toNat_setWidth]
      exact Nat.mod_eq_of_lt (by omega)
    exact mmioDispatch_parts m _ _ (by rw [narrow]; exact pos) (by rw [narrow])
  · intro t member
    cases member

end Transfers

end Riscmulator
