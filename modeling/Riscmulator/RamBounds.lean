import Riscmulator.Machine

/-! Where the transfers of a physical access land in RAM, with every address
sum reduced modulo 2^64 as the code computes it. -/

namespace Riscmulator

variable {δ : Type}

/-- Every byte of a RAM transfer has an index below the size of RAM. -/
def PhysTouch.InBounds (mc : EmuConfig δ) (t : PhysTouch) : Prop :=
  t.inRam = true → ∀ i < t.len.toNat,
    (t.addr - mc.ramStart + BitVec.ofNat 64 i).toNat < (mc.ramEnd - mc.ramStart).toNat

def RamInBounds (mc : EmuConfig δ) (touched : List PhysTouch) : Prop :=
  ∀ t ∈ touched, t.InBounds mc

theorem ramInBounds_append (mc : EmuConfig δ) (first second : List PhysTouch) :
    RamInBounds mc (first ++ second) ↔ RamInBounds mc first ∧ RamInBounds mc second :=
  List.forall_mem_append

/-! ### Single transfers -/

theorem inBounds_of_le {mc : EmuConfig δ} {addr len : U64} {inRam : Bool}
    (low : mc.ramStart ≤ addr) (high : addr.toNat + len.toNat ≤ mc.ramEnd.toNat) :
    PhysTouch.InBounds mc ⟨addr, len, inRam⟩ := by
  intro _ i inside
  have inside : i < len.toNat := inside
  have index : (BitVec.ofNat 64 i).toNat = i := by
    rw [BitVec.toNat_ofNat]
    exact Nat.mod_eq_of_lt (by omega)
  change (addr - mc.ramStart + BitVec.ofNat 64 i).toNat < (mc.ramEnd - mc.ramStart).toNat
  bv_omega

/-- A transfer over the top of the address space takes the byte at `2^64 - 1`,
which no RAM contains. -/
theorem not_inBounds_of_top {mc : EmuConfig δ} (fits : mc.ramStart ≤ mc.ramEnd) {addr len : U64}
    (top : 2 ^ 64 ≤ addr.toNat + len.toNat) : ¬PhysTouch.InBounds mc ⟨addr, len, true⟩ := by
  intro inBounds
  have last := inBounds rfl (2 ^ 64 - 1 - addr.toNat) (by
    change _ < len.toNat
    omega)
  have index : addr + BitVec.ofNat 64 (2 ^ 64 - 1 - addr.toNat) = BitVec.allOnes 64 := by
    apply BitVec.eq_of_toNat_eq
    rw [BitVec.toNat_add, BitVec.toNat_ofNat, BitVec.toNat_allOnes]
    omega
  have shifted : addr - mc.ramStart + BitVec.ofNat 64 (2 ^ 64 - 1 - addr.toNat) =
      BitVec.allOnes 64 - mc.ramStart := by
    rw [← index]
    bv_omega
  change (addr - mc.ramStart + BitVec.ofNat 64 (2 ^ 64 - 1 - addr.toNat)).toNat < _ at last
  rw [shifted] at last
  bv_omega

theorem ramTransfer_touched (mc : EmuConfig δ) (m : EmuMachine δ) (addr d len : U64)
    (mode : RvAccess) : (ramTransfer mc m addr (some d) len mode).touched = [⟨addr, len, true⟩] := by
  simp only [ramTransfer]
  split <;> rfl

theorem mmioDispatch_inBounds (mc : EmuConfig δ) (m : EmuMachine δ) (r : EmuMmioRegion δ)
    (addr : U64) (data : Option U64) (size : U8) (mode : RvAccess) :
    RamInBounds mc (mmioDispatch m r addr data size mode).touched := by
  intro t member
  cases data with
  | none => cases member
  | some d =>
      simp only [mmioDispatch] at member
      split at member <;>
        (rw [List.mem_singleton.mp member]
         intro ram
         cases ram)

/-! ### The clipped length of a round -/

theorem clipPart_inside {addr size limit : U64} (noWrap : addr.toNat + size.toNat < 2 ^ 64)
    (below : addr < limit) (pos : size ≠ 0) :
    0 < (clipPart addr size limit).toNat ∧ (clipPart addr size limit).toNat ≤ size.toNat ∧
      addr.toNat + (clipPart addr size limit).toNat ≤ limit.toNat := by
  unfold clipPart
  split <;> bv_omega

/-- A sum that wraps around is below any limit above the address. -/
theorem clipPart_wrap {addr size limit : U64} (wraps : 2 ^ 64 ≤ addr.toNat + size.toNat)
    (below : addr < limit) : clipPart addr size limit = size := by
  unfold clipPart
  rw [if_neg]
  bv_omega

theorem ramHoldsByte_iff {mc : EmuConfig δ} {addr : U64} (noWrap : addr.toNat + 1 < 2 ^ 64) :
    ramHoldsByte mc addr = true ↔ mc.ramStart ≤ addr ∧ addr < mc.ramEnd := by
  simp only [ramHoldsByte, Bool.and_eq_true, decide_eq_true_eq]
  refine and_congr_right fun _ => ?_
  bv_omega

/-! ### The loop of `misaligned_access` -/

theorem misalignedAccess_done (mc : EmuConfig δ) (fuel : Nat) (m : EmuMachine δ) (addr : U64)
    (data : Option U64) (mode : RvAccess) :
    misalignedAccess mc fuel m addr data 0 mode = ⟨.ok, m, data, []⟩ := by
  cases fuel with
  | zero => rfl
  | succ fuel => simp only [misalignedAccess, if_true]

section Round

variable {mc : EmuConfig δ} {m : EmuMachine δ} {addr size : U64} {data : Option U64}
  {mode : RvAccess} {fuel : Nat}

theorem misalignedAccess_ram (pos : size ≠ 0) (ram : ramHoldsByte mc addr = true) :
    misalignedAccess mc (fuel + 1) m addr data size mode =
      let part := clipPart addr size mc.ramEnd
      let out := ramTransfer mc m addr data part mode
      let rest := misalignedAccess mc fuel out.machine (addr + part) out.data (size - part) mode
      { rest with touched := out.touched ++ rest.touched } := by
  rw [misalignedAccess, if_neg pos, if_pos ram]

theorem misalignedAccess_nowhere (pos : size ≠ 0) (ram : ramHoldsByte mc addr = false)
    (nowhere : mc.mmio.find? (·.holdsByte addr) = none) :
    misalignedAccess mc (fuel + 1) m addr data size mode = ⟨.accessFault, m, data, []⟩ := by
  rw [misalignedAccess, if_neg pos, ram, nowhere]
  rfl

theorem misalignedAccess_mmio (pos : size ≠ 0) (ram : ramHoldsByte mc addr = false)
    {r : EmuMmioRegion δ} (region : mc.mmio.find? (·.holdsByte addr) = some r) :
    misalignedAccess mc (fuel + 1) m addr data size mode =
      let part := clipPart addr size r.limit
      let out := mmioDispatch m r addr data (part.setWidth 8) mode
      if out.res ≠ .ok then out
      else
        let rest := misalignedAccess mc fuel out.machine (addr + part) out.data (size - part) mode
        { rest with touched := out.touched ++ rest.touched } := by
  rw [misalignedAccess, if_neg pos, ram, region]
  rfl

end Round

theorem holdsByte_limit {r : EmuMmioRegion δ} {addr : U64} {regions : List (EmuMmioRegion δ)}
    (region : regions.find? (·.holdsByte addr) = some r) : r.holdsByte addr = true ∧ addr < r.limit := by
  have holds := List.find?_some region
  have both := holds
  simp only [EmuMmioRegion.holdsByte, Bool.and_eq_true, decide_eq_true_eq] at both
  exact ⟨holds, both.2⟩

/-- The transfers of a RAM round stay inside RAM when the access does not wrap. -/
theorem ramTransfer_inBounds {mc : EmuConfig δ} {m : EmuMachine δ} {addr size : U64}
    {data : Option U64} {mode : RvAccess} (noWrap : addr.toNat + size.toNat < 2 ^ 64)
    (pos : size ≠ 0) (ram : ramHoldsByte mc addr = true) :
    RamInBounds mc (ramTransfer mc m addr data (clipPart addr size mc.ramEnd) mode).touched := by
  obtain ⟨low, below⟩ := (ramHoldsByte_iff (by bv_omega)).mp ram
  rcases clipPart_inside noWrap below pos with ⟨_, _, high⟩
  intro t member
  cases data with
  | none => cases member
  | some d =>
      rw [ramTransfer_touched, List.mem_singleton] at member
      rw [member]
      exact inBounds_of_le low high

theorem rest_noWrap {addr size part : U64} (noWrap : addr.toNat + size.toNat < 2 ^ 64)
    (le : part.toNat ≤ size.toNat) :
    (addr + part).toNat + (size - part).toNat < 2 ^ 64 := by
  bv_omega

/-- An access that does not wrap around stays inside RAM. -/
theorem misalignedAccess_inBounds {mc : EmuConfig δ} {mode : RvAccess} (fuel : Nat)
    (m : EmuMachine δ) (addr size : U64) (data : Option U64)
    (noWrap : addr.toNat + size.toNat < 2 ^ 64) :
    RamInBounds mc (misalignedAccess mc fuel m addr data size mode).touched := by
  induction fuel generalizing m addr size data with
  | zero => intro t member; cases member
  | succ fuel ih =>
      by_cases done : size = 0
      · rw [done, misalignedAccess_done]
        intro t member
        cases member
      cases ram : ramHoldsByte mc addr with
      | true =>
          rw [misalignedAccess_ram done ram]
          have below := ((ramHoldsByte_iff (by bv_omega)).mp ram).2
          have shorter := (clipPart_inside noWrap below done).2.1
          apply (ramInBounds_append mc _ _).mpr
          exact ⟨ramTransfer_inBounds noWrap done ram, ih _ _ _ _ (rest_noWrap noWrap shorter)⟩
      | false =>
          cases region : mc.mmio.find? (·.holdsByte addr) with
          | none =>
              rw [misalignedAccess_nowhere done ram region]
              intro t member
              cases member
          | some r =>
              rw [misalignedAccess_mmio done ram region]
              have shorter := (clipPart_inside noWrap (holdsByte_limit region).2 done).2.1
              simp only
              split
              · exact mmioDispatch_inBounds mc m r addr data _ mode
              · apply (ramInBounds_append mc _ _).mpr
                exact ⟨mmioDispatch_inBounds mc m r addr data _ mode,
                  ih _ _ _ _ (rest_noWrap noWrap shorter)⟩

/-- An access that wraps around and does not start in RAM never reaches it: the
region it starts in takes the whole rest. -/
theorem misalignedAccess_wrap_mmio {mc : EmuConfig δ} {mode : RvAccess} (fuel : Nat)
    (m : EmuMachine δ) {addr size : U64} (data : Option U64)
    (wraps : 2 ^ 64 ≤ addr.toNat + size.toNat) (ram : ramHoldsByte mc addr = false) :
    RamInBounds mc (misalignedAccess mc fuel m addr data size mode).touched := by
  have pos : size ≠ 0 := by bv_omega
  cases fuel with
  | zero => intro t member; cases member
  | succ fuel =>
      cases region : mc.mmio.find? (·.holdsByte addr) with
      | none =>
          rw [misalignedAccess_nowhere pos ram region]
          intro t member
          cases member
      | some r =>
          rw [misalignedAccess_mmio pos ram region, clipPart_wrap wraps (holdsByte_limit region).2]
          have rest : size - size = (0 : U64) := BitVec.sub_self size
          simp only [rest, misalignedAccess_done, List.append_nil]
          split
          · exact mmioDispatch_inBounds mc m r addr data _ mode
          · exact mmioDispatch_inBounds mc m r addr data _ mode

/-! ### The first pass -/

theorem ramTransfer_null (mc : EmuConfig δ) (m : EmuMachine δ) (addr len : U64)
    (mode : RvAccess) : ramTransfer mc m addr none len mode = ⟨.ok, m, none, []⟩ := rfl

theorem mmioDispatch_null (m : EmuMachine δ) (r : EmuMmioRegion δ) (addr : U64) (size : U8)
    (mode : RvAccess) : mmioDispatch m r addr none size mode = ⟨.ok, m, none, []⟩ := rfl

/-- Without a buffer nothing is transferred and nothing changes. -/
theorem misalignedAccess_null (mc : EmuConfig δ) (fuel : Nat) (m : EmuMachine δ) (addr size : U64)
    (mode : RvAccess) :
    (misalignedAccess mc fuel m addr none size mode).touched = [] ∧
      (misalignedAccess mc fuel m addr none size mode).machine = m := by
  induction fuel generalizing addr size with
  | zero => exact ⟨rfl, rfl⟩
  | succ fuel ih =>
      by_cases done : size = 0
      · rw [done, misalignedAccess_done]
        exact ⟨rfl, rfl⟩
      cases ram : ramHoldsByte mc addr with
      | true =>
          rw [misalignedAccess_ram done ram]
          simp only [ramTransfer_null, List.nil_append]
          exact ih _ _
      | false =>
          cases region : mc.mmio.find? (·.holdsByte addr) with
          | none =>
              rw [misalignedAccess_nowhere done ram region]
              exact ⟨rfl, rfl⟩
          | some r =>
              rw [misalignedAccess_mmio done ram region]
              simp only [mmioDispatch_null, List.nil_append]
              exact ih _ _

def MmioHolds (mc : EmuConfig δ) (addr : Nat) : Prop :=
  ∃ r ∈ mc.mmio, r.holdsByte (BitVec.ofNat 64 addr) = true

/-- Past the end of RAM the first pass succeeds exactly on bytes that regions hold. -/
theorem misalignedAccess_null_ok {mc : EmuConfig δ} {mode : RvAccess} (fuel : Nat)
    (m : EmuMachine δ) (addr size : U64) (enough : size.toNat ≤ fuel)
    (noWrap : addr.toNat + size.toNat < 2 ^ 64) (past : mc.ramEnd ≤ addr) :
    (misalignedAccess mc fuel m addr none size mode).res = .ok ↔
      ∀ x, addr.toNat ≤ x → x < addr.toNat + size.toNat → MmioHolds mc x := by
  induction fuel generalizing addr size with
  | zero =>
      refine iff_of_true rfl ?_
      intro x low high
      omega
  | succ fuel ih =>
      by_cases done : size = 0
      · rw [done, misalignedAccess_done]
        refine iff_of_true rfl ?_
        intro x low high
        have zero : (0 : U64).toNat = 0 := rfl
        omega
      have ram : ramHoldsByte mc addr = false := by
        apply Bool.eq_false_iff.mpr
        intro holds
        have := ((ramHoldsByte_iff (by bv_omega)).mp holds).2
        bv_omega
      cases region : mc.mmio.find? (·.holdsByte addr) with
      | none =>
          rw [misalignedAccess_nowhere done ram region]
          refine iff_of_false (by simp) ?_
          intro all
          obtain ⟨r, member, holds⟩ := all addr.toNat (Nat.le_refl _) (by bv_omega)
          rw [BitVec.ofNat_toNat, BitVec.setWidth_eq] at holds
          have := List.find?_eq_none.mp region r member
          exact this holds
      | some r =>
          rw [misalignedAccess_mmio done ram region]
          simp only [mmioDispatch_null, ne_eq, not_true_eq_false, if_false]
          obtain ⟨holds, below⟩ := holdsByte_limit region
          rcases clipPart_inside noWrap below done with ⟨progress, shorter, clipped⟩
          generalize clipPart addr size r.limit = part at progress shorter clipped
          have next : (addr + part).toNat = addr.toNat + part.toNat := by bv_omega
          have left : (size - part).toNat = size.toNat - part.toNat := by bv_omega
          rw [ih (addr + part) (size - part) (by omega) (rest_noWrap noWrap shorter)
            (by bv_omega), next, left]
          constructor
          · intro rest x low high
            by_cases first : x < addr.toNat + part.toNat
            · refine ⟨r, List.mem_of_find?_eq_some region, ?_⟩
              simp only [EmuMmioRegion.holdsByte, Bool.and_eq_true, decide_eq_true_eq] at holds ⊢
              have value : (BitVec.ofNat 64 x).toNat = x := by
                rw [BitVec.toNat_ofNat]
                exact Nat.mod_eq_of_lt (by omega)
              bv_omega
            · exact rest x (by omega) (by omega)
          · intro all x low high
            exact all x (by omega) (by omega)

/-! ### A whole access -/

def PmpAllows (m : EmuMachine δ) (h : Nat) (addr size : U64) (mode : RvAccess)
    (ignorePmp : Bool) : Prop :=
  ignorePmp = true ∨ doPmpCheck (m.cpus h) addr size mode = .ok

/-- The access wraps around the top of the address space into RAM: it is let
through, ends at or past `2^64`, starts at or above RAM, and its reduced end is
either within RAM or reached from `2^64 - 1` over bytes that regions hold. -/
def WrapsIntoRam (mc : EmuConfig δ) (m : EmuMachine δ) (h : Nat) (addr size : U64)
    (mode : RvAccess) (ignorePmp : Bool) : Prop :=
  PmpAllows m h addr size mode ignorePmp ∧ 2 ^ 64 ≤ addr.toNat + size.toNat ∧
    mc.ramStart ≤ addr ∧
    (addr.toNat + size.toNat - 2 ^ 64 ≤ mc.ramEnd.toNat ∨
      (addr.toNat = 2 ^ 64 - 1 ∧ ∀ x, mc.ramEnd.toNat ≤ x →
        x < addr.toNat + size.toNat - 2 ^ 64 → MmioHolds mc x))

/-- The fast path leaves RAM exactly when the access wraps around. -/
theorem ramHoldsRange_inBounds {mc : EmuConfig δ} (fits : mc.ramStart ≤ mc.ramEnd)
    (m : EmuMachine δ) {addr data size : U64} {mode : RvAccess}
    (ram : ramHoldsRange mc addr size = true) :
    RamInBounds mc (ramTransfer mc m addr (some data) size mode).touched ↔
      addr.toNat + size.toNat < 2 ^ 64 := by
  simp only [ramHoldsRange, Bool.and_eq_true, decide_eq_true_eq] at ram
  rw [ramTransfer_touched, RamInBounds, List.forall_mem_singleton]
  constructor
  · intro inBounds
    by_contra top
    exact not_inBounds_of_top fits (Nat.not_lt.mp top) inBounds
  · intro noWrap
    apply inBounds_of_le ram.1
    bv_omega

theorem misalignedTwoPass_top {mc : EmuConfig δ} (fits : mc.ramStart ≤ mc.ramEnd)
    (m : EmuMachine δ) {addr data size : U64} {mode : RvAccess} (top : addr.toNat = 2 ^ 64 - 1)
    (past : mc.ramEnd.toNat < addr.toNat + size.toNat - 2 ^ 64) :
    RamInBounds mc (misalignedTwoPass mc m addr data size mode).touched ↔
      ¬∀ x, mc.ramEnd.toNat ≤ x → x < addr.toNat + size.toNat - 2 ^ 64 → MmioHolds mc x := by
  have pos : size ≠ 0 := by bv_omega
  have ram : ramHoldsByte mc addr = true := by
    simp only [ramHoldsByte, Bool.and_eq_true, decide_eq_true_eq]
    bv_omega
  have clipped : clipPart addr size mc.ramEnd = mc.ramEnd - addr := by
    unfold clipPart
    rw [if_pos]
    bv_omega
  obtain ⟨fuel, enough⟩ : ∃ fuel, size.toNat = fuel + 1 := ⟨size.toNat - 1, by bv_omega⟩
  have next : addr + (mc.ramEnd - addr) = mc.ramEnd := by bv_omega
  have round : ∀ (m : EmuMachine δ) (data : Option U64),
      misalignedAccess mc size.toNat m addr data size mode =
        let out := ramTransfer mc m addr data (mc.ramEnd - addr) mode
        let rest := misalignedAccess mc fuel out.machine mc.ramEnd out.data
          (size - (mc.ramEnd - addr)) mode
        { rest with touched := out.touched ++ rest.touched } := by
    intro m data
    rw [enough, misalignedAccess_ram pos ram, clipped]
    simp only [next]
  have left : mc.ramEnd.toNat + (size - (mc.ramEnd - addr)).toNat =
      addr.toNat + size.toNat - 2 ^ 64 := by bv_omega
  have pass : (misalignedAccess mc size.toNat m addr none size mode).res = .ok ↔
      ∀ x, mc.ramEnd.toNat ≤ x → x < addr.toNat + size.toNat - 2 ^ 64 → MmioHolds mc x := by
    rw [round]
    simp only [ramTransfer_null]
    have shorter : (size - (mc.ramEnd - addr)).toNat ≤ fuel := by bv_omega
    have noWrap : mc.ramEnd.toNat + (size - (mc.ramEnd - addr)).toNat < 2 ^ 64 := by bv_omega
    rw [misalignedAccess_null_ok fuel m _ _ shorter noWrap (BitVec.le_refl _), left]
  rw [← pass]
  unfold misalignedTwoPass
  by_cases ok : (misalignedAccess mc size.toNat m addr none size mode).res = .ok
  · simp only [ok, ne_eq, not_true_eq_false, if_false, iff_false]
    rw [round]
    intro inBounds
    have first := ((ramInBounds_append mc _ _).mp inBounds).1
    rw [ramTransfer_touched, RamInBounds, List.forall_mem_singleton] at first
    exact not_inBounds_of_top fits (by bv_omega) first
  · simp only [ok, ne_eq, not_false_eq_true, if_true, iff_true]
    rw [(misalignedAccess_null mc size.toNat m addr size mode).1]
    intro t member
    cases member

theorem misalignedTwoPass_inBounds {mc : EmuConfig δ} {m : EmuMachine δ} {addr data size : U64}
    {mode : RvAccess}
    (second : ∀ m, RamInBounds mc (misalignedAccess mc size.toNat m addr (some data) size mode).touched) :
    RamInBounds mc (misalignedTwoPass mc m addr data size mode).touched := by
  unfold misalignedTwoPass
  simp only
  split
  · rw [(misalignedAccess_null mc size.toNat m addr size mode).1]
    intro t member
    cases member
  · exact second _

theorem misalignedTwoPass_iff {mc : EmuConfig δ} (fits : mc.ramStart ≤ mc.ramEnd)
    (m : EmuMachine δ) {addr data size : U64} {mode : RvAccess} (small : size.toNat ≤ 8)
    (slow : ramHoldsRange mc addr size = false) (misaligned : addr % size ≠ 0) :
    RamInBounds mc (misalignedTwoPass mc m addr data size mode).touched ↔
      ¬(2 ^ 64 ≤ addr.toNat + size.toNat ∧ mc.ramStart ≤ addr ∧
        (addr.toNat + size.toNat - 2 ^ 64 ≤ mc.ramEnd.toNat ∨
          (addr.toNat = 2 ^ 64 - 1 ∧ ∀ x, mc.ramEnd.toNat ≤ x →
            x < addr.toNat + size.toNat - 2 ^ 64 → MmioHolds mc x))) := by
  have bound := addr.isLt
  by_cases noWrap : addr.toNat + size.toNat < 2 ^ 64
  · refine iff_of_true ?_ (fun wraps => by omega)
    apply misalignedTwoPass_inBounds
    intro m
    exact misalignedAccess_inBounds _ m addr size _ noWrap
  have wraps : 2 ^ 64 ≤ addr.toNat + size.toNat := Nat.not_lt.mp noWrap
  simp only [ramHoldsRange, Bool.and_eq_false_iff, decide_eq_false_iff_not] at slow
  cases ram : ramHoldsByte mc addr with
  | false =>
      refine iff_of_true (misalignedTwoPass_inBounds fun m =>
        misalignedAccess_wrap_mmio _ m _ wraps ram) ?_
      intro wraps
      rcases wraps with ⟨_, low, inside | ⟨top, _⟩⟩
      · rcases slow with below | above
        · exact below low
        · bv_omega
      · have : ramHoldsByte mc addr = true := by
          simp only [ramHoldsByte, Bool.and_eq_true, decide_eq_true_eq]
          bv_omega
        rw [ram] at this
        cases this
  | true =>
      simp only [ramHoldsByte, Bool.and_eq_true, decide_eq_true_eq] at ram
      have high : ¬addr + size ≤ mc.ramEnd := slow.resolve_left (not_not.mpr ram.1)
      have past : mc.ramEnd.toNat < addr.toNat + size.toNat - 2 ^ 64 := by bv_omega
      have top : addr.toNat = 2 ^ 64 - 1 := by bv_omega
      rw [misalignedTwoPass_top fits m top past]
      refine not_congr ⟨fun all => ⟨wraps, ram.1, Or.inr ⟨top, all⟩⟩, ?_⟩
      intro wraps
      rcases wraps with ⟨_, _, inside | ⟨_, all⟩⟩
      · omega
      · exact all

theorem accessSize_toNat : ∀ sizeExp : Fin 4, (bit sizeExp.val).toNat = 2 ^ sizeExp.val := by
  decide

/-- An aligned access that reaches the top of the address space ends there. -/
theorem aligned_end {addr : U64} {sizeExp : Fin 4} (aligned : addr % bit sizeExp.val = 0)
    (wraps : 2 ^ 64 ≤ addr.toNat + (bit sizeExp.val).toNat) :
    addr.toNat + (bit sizeExp.val).toNat = 2 ^ 64 := by
  have mod : addr.toNat % (bit sizeExp.val).toNat = 0 := by
    rw [← BitVec.toNat_umod, aligned]
    rfl
  rw [accessSize_toNat] at mod wraps ⊢
  have divides : 2 ^ sizeExp.val ∣ addr.toNat + 2 ^ sizeExp.val :=
    Nat.dvd_add (Nat.dvd_of_mod_eq_zero mod) (Nat.dvd_refl _)
  have top : 2 ^ sizeExp.val ∣ 2 ^ 64 := Nat.pow_dvd_pow 2 (by omega)
  have below : addr.toNat + 2 ^ sizeExp.val ≤ 2 ^ 64 :=
    Nat.le_of_lt_add_of_dvd (by omega) divides top
  omega

theorem rvAccessPhysUnchecked_iff {mc : EmuConfig δ} (fits : mc.ramStart ≤ mc.ramEnd)
    (m : EmuMachine δ) (addr data : U64) (sizeExp : Fin 4) (mode : RvAccess) :
    RamInBounds mc (rvAccessPhysUnchecked mc m addr data sizeExp mode).touched ↔
      ¬(2 ^ 64 ≤ addr.toNat + (bit sizeExp.val).toNat ∧ mc.ramStart ≤ addr ∧
        (addr.toNat + (bit sizeExp.val).toNat - 2 ^ 64 ≤ mc.ramEnd.toNat ∨
          (addr.toNat = 2 ^ 64 - 1 ∧ ∀ x, mc.ramEnd.toNat ≤ x →
            x < addr.toNat + (bit sizeExp.val).toNat - 2 ^ 64 → MmioHolds mc x))) := by
  have bound := addr.isLt
  have small : (bit sizeExp.val).toNat ≤ 8 := by
    revert sizeExp
    decide
  simp only [rvAccessPhysUnchecked]
  cases ram : ramHoldsRange mc addr (bit sizeExp.val) with
  | true =>
      rw [if_pos rfl, ramHoldsRange_inBounds fits m ram]
      simp only [ramHoldsRange, Bool.and_eq_true, decide_eq_true_eq] at ram
      constructor
      · intro noWrap wraps
        omega
      · intro inside
        by_contra wraps
        exact inside ⟨Nat.not_lt.mp wraps, ram.1, Or.inl (by bv_omega)⟩
  | false =>
      rw [if_neg (by decide)]
      by_cases misaligned : addr % bit sizeExp.val ≠ 0
      · rw [if_pos misaligned]
        exact misalignedTwoPass_iff fits m small ram misaligned
      rw [if_neg misaligned]
      refine iff_of_true ?_ ?_
      · split
        · exact mmioDispatch_inBounds mc m _ addr _ _ mode
        · intro t member
          cases member
      intro into
      rcases into with ⟨wraps, low, _⟩
      have top := aligned_end (not_not.mp misaligned) wraps
      simp only [ramHoldsRange, Bool.and_eq_false_iff, decide_eq_false_iff_not] at ram
      rcases ram with below | above
      · exact below low
      · bv_omega

/-- A physical access stays inside RAM exactly when it does not wrap around the
top of the address space into it. -/
theorem rvAccessPhys_inBounds_iff (mc : EmuConfig δ) (ramSize : U64)
    (ramEnd : mc.ramEnd = mc.ramStart + ramSize)
    (fits : mc.ramStart.toNat + ramSize.toNat < 2 ^ 64) (m : EmuMachine δ) (h : Nat)
    (addr data : U64) (sizeExp : Fin 4) (mode : RvAccess) (ignorePmp : Bool) :
    RamInBounds mc (rvAccessPhys mc m h addr data sizeExp mode ignorePmp).touched ↔
      ¬WrapsIntoRam mc m h addr (bit sizeExp.val) mode ignorePmp := by
  have ordered : mc.ramStart ≤ mc.ramEnd := by bv_omega
  have unchecked := rvAccessPhysUnchecked_iff ordered m addr data sizeExp mode
  simp only [rvAccessPhys, WrapsIntoRam, PmpAllows]
  by_cases refused :
      (!ignorePmp && decide (doPmpCheck (m.cpus h) addr (bit sizeExp.val) mode ≠ .ok)) = true
  · rw [if_pos refused]
    simp only [Bool.and_eq_true, Bool.not_eq_true', decide_eq_true_eq] at refused
    refine iff_of_true ?_ ?_
    · intro t member
      cases member
    · intro both
      rcases both with ⟨ignored | allowed, _⟩
      · rw [refused.1] at ignored
        cases ignored
      · exact refused.2 allowed
  · rw [if_neg refused, unchecked]
    have allows : ignorePmp = true ∨ doPmpCheck (m.cpus h) addr (bit sizeExp.val) mode = .ok := by
      cases ignorePmp with
      | true => exact Or.inl rfl
      | false => exact Or.inr (by simpa using refused)
    simp only [allows, true_and]

/-- An ordinary doubleword at the end of RAM. -/
theorem rvAccessPhys_inBounds_end :
    RamInBounds (EmuConfig.ramOnly 0x80000000 0x1000 1)
      (rvAccessPhys (EmuConfig.ramOnly 0x80000000 0x1000 1) (emuMachineInit ()) 0 0x80000ff8 0 3
        .load false).touched :=
  (rvAccessPhys_inBounds_iff (EmuConfig.ramOnly 0x80000000 0x1000 1) 0x1000 rfl (by decide)
    (emuMachineInit ()) 0 0x80000ff8 0 3 .load false).mpr (by
      intro into
      rcases into with ⟨_, wraps, _⟩
      revert wraps
      decide)

/-- A doubleword load at `2^64 - 4` from a machine whose RAM starts at 0. -/
theorem rvAccessPhys_outOfBounds :
    ¬RamInBounds (EmuConfig.ramOnly 0 0x1000 1)
      (rvAccessPhys (EmuConfig.ramOnly 0 0x1000 1) (emuMachineInit ()) 0 0xfffffffffffffffc 0 3
        .load false).touched := by
  intro inBounds
  have first := inBounds ⟨0xfffffffffffffffc, 8, true⟩ (by decide +kernel) rfl 0 (by decide)
  revert first
  decide

end Riscmulator
