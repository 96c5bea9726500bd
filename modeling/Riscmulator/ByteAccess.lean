import Riscmulator.ByteParts
import Riscmulator.PmpGuard

/-! Misaligned physical accesses, byte by byte: the loop takes one part after the other,
but every part starts at the first byte of the buffer. -/

namespace Riscmulator

open Bytes Overlay

variable {δ : Type}

/-! ### One part -/

section Parts

variable {mc : EmuConfig δ} (dev : ByteDevices mc) {addr len : U64}

/-- The part's bytes in memory become the first bytes of the buffer. -/
def StoresPart (m : EmuMachine δ) (addr len data : U64) (out : MemOutcome δ) : Prop :=
  ∃ m' touched, out = ⟨.ok, m', some data, touched⟩ ∧ ∀ x, dev.byteAt m' x =
    if (x - addr).toNat < len.toNat then byte data (x - addr).toNat else dev.byteAt m x

/-- The first bytes of the buffer become the part's bytes in memory. -/
def LoadsPart (m : EmuMachine δ) (addr len data : U64) (out : MemOutcome δ) : Prop :=
  ∃ buffer touched, out = ⟨.ok, m, some buffer, touched⟩ ∧ ∀ j < 8, byte buffer j =
    if j < len.toNat then dev.byteAt m (addr + BitVec.ofNat 64 j) else byte data j

def PartInRam (mc : EmuConfig δ) (addr len : U64) : Prop :=
  mc.ramStart ≤ addr ∧ addr.toNat + len.toNat ≤ mc.ramEnd.toNat

theorem ramTransfer_storesPart (inRam : PartInRam mc addr len) (m : EmuMachine δ) (data : U64) :
    StoresPart dev m addr len data (ramTransfer mc m addr (some data) len .store) := by
  rcases inRam with ⟨low, high⟩
  refine ⟨{ m with ram := ramStore m.ram (addr - mc.ramStart) data len.toNat }, _, rfl, ?_⟩
  intro x
  have position : x - mc.ramStart - (addr - mc.ramStart) = x - addr := by bv_omega
  simp only [ByteDevices.byteAt, ramStore, position]
  by_cases part : (x - addr).toNat < len.toNat
  · have here : InRam mc x := by constructor <;> bv_omega
    rw [if_pos here, if_pos part, if_pos part]
    rfl
  · rw [if_neg part, if_neg part]

theorem ramTransfer_loadsPart (inRam : PartInRam mc addr len) (m : EmuMachine δ) (data : U64)
    {mode : RvAccess} (load : mode ≠ .store) :
    LoadsPart dev m addr len data (ramTransfer mc m addr (some data) len mode) := by
  rcases inRam with ⟨low, high⟩
  refine ⟨_, _, ramTransfer_load load m addr data len, ?_⟩
  intro j word
  rw [byte_spliceLow_ramLoad m.ram data _ word]
  by_cases part : j < len.toNat
  · have here : InRam mc (addr + BitVec.ofNat 64 j) := by constructor <;> bv_omega
    rw [if_pos part, if_pos part, ByteDevices.byteAt, if_pos here, index_add]
  · rw [if_neg part, if_neg part]

structure PartInRegion (mc : EmuConfig δ) (r : EmuMmioRegion δ) (addr len : U64) : Prop where
  member : r ∈ mc.mmio
  low : r.base ≤ addr
  high : addr.toNat + len.toNat ≤ r.limit.toNat
  pos : 0 < len.toNat
  small : len.toNat ≤ 8

section Region

variable {r : EmuMmioRegion δ} (inRegion : PartInRegion mc r addr len)

/-- The offset of a part and its length, as the device sees them. -/
theorem PartInRegion.offset (inRegion : PartInRegion mc r addr len) :
    r.base + (addr - r.base) = addr ∧ (len.setWidth 8).toNat = len.toNat ∧
      (addr - r.base).toNat + (len.setWidth 8).toNat ≤ r.size.toNat := by
  rcases inRegion with ⟨_, low, high, pos, small⟩
  have narrow : (len.setWidth 8).toNat = len.toNat := by
    rw [BitVec.toNat_setWidth]
    exact Nat.mod_eq_of_lt (by omega)
  refine ⟨by bv_omega, narrow, ?_⟩
  rw [narrow]
  simp only [EmuMmioRegion.limit] at high
  bv_omega

/-- The bytes of a part are the device's, not RAM's. -/
theorem PartInRegion.outside (inRegion : PartInRegion mc r addr len) (layout : ByteLayout mc)
    {x : U64} (part : (x - addr).toNat < len.toNat) : ¬InRam mc x := by
  apply layout.apart r inRegion.member x
  rcases inRegion with ⟨_, low, high, _, _⟩
  apply holdsByte_iff.mpr
  constructor <;> bv_omega

theorem mmioDispatch_storesPart (layout : ByteLayout mc) (inRegion : PartInRegion mc r addr len)
    (m : EmuMachine δ) (data : U64) :
    StoresPart dev m addr len data
      (mmioDispatch m r addr (some data) (len.setWidth 8) .store) := by
  obtain ⟨start, narrow, fits⟩ := inRegion.offset
  have small := inRegion.small
  obtain ⟨device, written, view⟩ := dev.writes r inRegion.member m.bus (addr - r.base)
    (len.setWidth 8) (lowBytes data len.toNat) (by omega) fits
  refine ⟨{ m with device := device }, [⟨addr, (len.setWidth 8).setWidth 64, false⟩], ?_, ?_⟩
  · simp only [mmioDispatch, narrow, written, if_true]
    rfl
  · intro x
    simp only [ByteDevices.byteAt]
    rw [view, start, narrow]
    by_cases part : (x - addr).toNat < len.toNat
    · rw [if_neg (inRegion.outside layout part), if_pos part, if_pos part,
        byte_lowBytes data small, if_pos part]
    · rw [if_neg part, if_neg part]
      rfl

theorem mmioDispatch_loadsPart (layout : ByteLayout mc) (inRegion : PartInRegion mc r addr len)
    (m : EmuMachine δ) (data : U64) {mode : RvAccess} (load : mode ≠ .store) :
    LoadsPart dev m addr len data (mmioDispatch m r addr (some data) (len.setWidth 8) mode) := by
  obtain ⟨start, narrow, fits⟩ := inRegion.offset
  have small := inRegion.small
  obtain ⟨value, loaded, bytes⟩ := dev.reads r inRegion.member m.bus (addr - r.base)
    (len.setWidth 8) (by omega) fits
  refine ⟨spliceLow data (lowBytes value len.toNat) len.toNat,
    [⟨addr, (len.setWidth 8).setWidth 64, false⟩], ?_, ?_⟩
  · simp only [mmioDispatch, if_neg load, loaded, if_true, narrow]
    rfl
  · intro j word
    rw [byte_spliceLow data _ word, byte_lowBytes value small]
    · by_cases part : j < len.toNat
      · have inside : (addr + BitVec.ofNat 64 j - addr).toNat < len.toNat := by bv_omega
        rw [if_pos part, if_pos part, if_pos part, bytes j (narrow ▸ part), start,
          ByteDevices.byteAt, if_neg (inRegion.outside layout inside)]
        rfl
      · rw [if_neg part, if_neg part]
    · intro past
      rw [byte_lowBytes value small, if_neg (not_lt.mpr past)]

end Region

end Parts

/-! ### One round -/

section Round

variable {mc : EmuConfig δ} (dev : ByteDevices mc) {addr size : U64}

/-- Both outcomes are the same but for the transfers they record. -/
structure EndsAs (out rest : MemOutcome δ) : Prop where
  res : out.res = rest.res
  machine : out.machine = rest.machine
  data : out.data = rest.data

/-- What a transfer does, by its mode. -/
def DoesPart (m : EmuMachine δ) (addr len data : U64) (mode : RvAccess) (out : MemOutcome δ) :
    Prop :=
  if mode = .store then StoresPart dev m addr len data out else LoadsPart dev m addr len data out

theorem DoesPart.ok {m : EmuMachine δ} {len data : U64} {mode : RvAccess} {out : MemOutcome δ}
    (does : DoesPart dev m addr len data mode out) : out.res = .ok := by
  rw [DoesPart] at does
  split at does
  · obtain ⟨m', touched, rfl, _⟩ := does
    rfl
  · obtain ⟨buffer, touched, rfl, _⟩ := does
    rfl

/-- A round checks or transfers one part, and goes on behind it with the buffer at its start. -/
structure RoundDoes (addr size len : U64) : Prop where
  takes : RoundTakes mc addr size len
  checks : ∀ fuel m mode, EndsAs (misalignedAccess mc (fuel + 1) m addr none size mode)
    (misalignedAccess mc fuel m (addr + len) none (size - len) mode)
  transfers : ∀ fuel m data mode, ∃ out, DoesPart dev m addr len data mode out ∧
    EndsAs (misalignedAccess mc (fuel + 1) m addr (some data) size mode)
      (misalignedAccess mc fuel out.machine (addr + len) out.data (size - len) mode)

theorem roundDoes_ram (layout : ByteLayout mc) (pos : size ≠ 0)
    (noWrap : addr.toNat + size.toNat < 2 ^ 64) (inRam : InRam mc addr) :
    RoundDoes dev addr size (clipPart addr size mc.ramEnd) := by
  have ram : ramHoldsByte mc addr = true := (ramHoldsByte_iff (by bv_omega)).mpr inRam
  have part : PartInRam mc addr (clipPart addr size mc.ramEnd) :=
    ⟨inRam.1, (clipPart_inside noWrap inRam.2 pos).2.2⟩
  constructor
  · exact roundTakes_clip (ram_interval layout) inRam.1 inRam.2 pos noWrap
  · intro fuel m mode
    rw [misalignedAccess_ram pos ram]
    exact ⟨rfl, rfl, rfl⟩
  · intro fuel m data mode
    refine ⟨ramTransfer mc m addr (some data) (clipPart addr size mc.ramEnd) mode, ?_, ?_⟩
    · rw [DoesPart]
      split
      · next store =>
          rw [store]
          exact ramTransfer_storesPart dev part m data
      · next load => exact ramTransfer_loadsPart dev part m data load
    · rw [misalignedAccess_ram pos ram]
      exact ⟨rfl, rfl, rfl⟩

theorem roundDoes_mmio (layout : ByteLayout mc) (pos : size ≠ 0) (small : size.toNat ≤ 8)
    (noWrap : addr.toNat + size.toNat < 2 ^ 64) {r : EmuMmioRegion δ} (member : r ∈ mc.mmio)
    (holds : r.holdsByte addr = true) :
    RoundDoes dev addr size (clipPart addr size r.limit) := by
  have outside := layout.apart r member addr holds
  have ram : ramHoldsByte mc addr = false := by
    rw [← Bool.not_eq_true, ramHoldsByte_iff (by bv_omega)]
    exact outside
  have found := find_holder layout member holds
  obtain ⟨low, below⟩ := holdsByte_iff.mp holds
  obtain ⟨some', le, high⟩ := clipPart_inside noWrap below pos
  have part : PartInRegion mc r addr (clipPart addr size r.limit) :=
    ⟨member, low, high, some', by omega⟩
  constructor
  · exact roundTakes_clip (region_interval layout member) low below pos noWrap
  · intro fuel m mode
    rw [misalignedAccess_mmio pos ram found]
    exact ⟨rfl, rfl, rfl⟩
  · intro fuel m data mode
    have does : DoesPart dev m addr (clipPart addr size r.limit) data mode
        (mmioDispatch m r addr (some data) ((clipPart addr size r.limit).setWidth 8) mode) := by
      rw [DoesPart]
      split
      · next store =>
          rw [store]
          exact mmioDispatch_storesPart dev layout part m data
      · next load => exact mmioDispatch_loadsPart dev layout part m data load
    have taken := not_not.mpr (does.ok dev)
    refine ⟨_, does, ?_⟩
    rw [misalignedAccess_mmio pos ram found]
    simp only
    rw [if_neg taken]
    exact ⟨rfl, rfl, rfl⟩

/-- Whoever holds the first byte, the next round does one part. -/
theorem roundDoes (layout : ByteLayout mc) (pos : size ≠ 0) (small : size.toNat ≤ 8)
    (noWrap : addr.toNat + size.toNat < 2 ^ 64) (held : Held mc addr) :
    ∃ len, RoundDoes dev addr size len := by
  rcases held with inRam | ⟨r, member, holds⟩
  · exact ⟨_, roundDoes_ram dev layout pos noWrap inRam⟩
  · exact ⟨_, roundDoes_mmio dev layout pos small noWrap member holds⟩

end Round

/-! ### The loop -/

section Loop

variable {mc : EmuConfig δ} (dev : ByteDevices mc)

def AllHeld (mc : EmuConfig δ) (addr : U64) (n : Nat) : Prop :=
  ∀ i < n, Held mc (addr + BitVec.ofNat 64 i)

instance (addr : U64) (n : Nat) : Decidable (AllHeld mc addr n) :=
  inferInstanceAs (Decidable (∀ i < n, _))

theorem AllHeld.first {addr : U64} {n : Nat} (held : AllHeld mc addr n) (pos : 0 < n) :
    Held mc addr := by
  simpa using held 0 pos

/-- The bytes behind a part are held with those of the part. -/
theorem RoundTakes.allHeld_iff {addr size len : U64} (takes : RoundTakes mc addr size len) :
    AllHeld mc addr size.toNat ↔ AllHeld mc (addr + len) (size - len).toNat := by
  have le := takes.le
  have rest : (size - len).toNat = size.toNat - len.toNat := by bv_omega
  constructor
  · intro held i inside
    have address : addr + len + BitVec.ofNat 64 i = addr + BitVec.ofNat 64 (len.toNat + i) := by
      bv_omega
    rw [address]
    exact held (len.toNat + i) (by omega)
  · intro held i inside
    by_cases part : i < len.toNat
    · exact takes.held i part
    · have address : addr + BitVec.ofNat 64 i =
          addr + len + BitVec.ofNat 64 (i - len.toNat) := by bv_omega
      rw [address]
      exact held (i - len.toNat) (by omega)

/-- The first pass succeeds on bytes that are all held. -/
theorem misalignedAccess_checks (dev : ByteDevices mc) (layout : ByteLayout mc) (fuel : Nat)
    (m : EmuMachine δ) (addr size : U64) (mode : RvAccess) (enough : size.toNat ≤ fuel)
    (small : size.toNat ≤ 8)
    (noWrap : addr.toNat + size.toNat < 2 ^ 64) :
    (misalignedAccess mc fuel m addr none size mode).res = .ok ↔ AllHeld mc addr size.toNat := by
  induction fuel generalizing addr size with
  | zero =>
      refine iff_of_true rfl ?_
      intro i inside
      omega
  | succ fuel ih =>
      by_cases done : size = 0
      · rw [done, misalignedAccess_done]
        refine iff_of_true rfl ?_
        intro i inside
        exact absurd inside (Nat.not_lt_zero i)
      by_cases held : Held mc addr
      · obtain ⟨len, round⟩ := roundDoes dev layout done small noWrap held
        have pos := round.takes.pos
        have le := round.takes.le
        rw [(round.checks fuel m mode).res, round.takes.allHeld_iff]
        exact ih (addr + len) (size - len) (by bv_omega) (by bv_omega) (rest_noWrap noWrap le)
      · have ram : ramHoldsByte mc addr = false := by
          rw [← Bool.not_eq_true, ramHoldsByte_iff (by bv_omega)]
          exact fun inRam => held (Or.inl inRam)
        have nowhere : mc.mmio.find? (·.holdsByte addr) = none := by
          apply List.find?_eq_none.mpr
          intro r member holds
          exact held (Or.inr ⟨r, member, holds⟩)
        rw [misalignedAccess_nowhere done ram nowhere]
        refine iff_of_false (by simp) ?_
        intro all
        exact held (all.first (by bv_omega))

/-- The second pass of a store: every byte of memory gets the byte of the buffer at its
distance from the start of its part. -/
theorem misalignedAccess_stores (layout : ByteLayout mc) (fuel : Nat) (m : EmuMachine δ)
    (addr size data : U64) (enough : size.toNat ≤ fuel) (small : size.toNat ≤ 8)
    (noWrap : addr.toNat + size.toNat < 2 ^ 64) (held : AllHeld mc addr size.toNat) :
    (misalignedAccess mc fuel m addr (some data) size .store).res = .ok ∧
      ∀ x, dev.byteAt (misalignedAccess mc fuel m addr (some data) size .store).machine x =
        if (x - addr).toNat < size.toNat then byte data (partPos mc addr (x - addr).toNat)
        else dev.byteAt m x := by
  induction fuel generalizing m addr size with
  | zero =>
      refine ⟨rfl, ?_⟩
      intro x
      rw [if_neg (by omega)]
      rfl
  | succ fuel ih =>
      by_cases done : size = 0
      · rw [done, misalignedAccess_done]
        exact ⟨rfl, fun x => rfl⟩
      obtain ⟨len, round⟩ := roundDoes dev layout done small noWrap (held.first (by bv_omega))
      have takes := round.takes
      have pos := takes.pos
      have le := takes.le
      have rest : (size - len).toNat = size.toNat - len.toNat := by bv_omega
      have heldRest := takes.allHeld_iff.mp held
      obtain ⟨out, does, ends⟩ := round.transfers fuel m data .store
      obtain ⟨m', touched, rfl, stored⟩ : StoresPart dev m addr len data out := does
      obtain ⟨ok, later⟩ := ih m' (addr + len) (size - len) (by omega) (by omega)
        (rest_noWrap noWrap le) heldRest
      rw [ends.res, ends.machine]
      refine ⟨ok, ?_⟩
      intro x
      rw [later, stored]
      by_cases part : (x - addr).toNat < len.toNat
      · have before : ¬(x - (addr + len)).toNat < (size - len).toNat := by bv_omega
        rw [if_neg before, if_pos part, if_pos (by omega), takes.here _ part]
      · rw [if_neg part]
        by_cases behind : (x - (addr + len)).toNat < (size - len).toNat
        · have position : (x - addr).toNat = len.toNat + (x - (addr + len)).toNat := by bv_omega
          rw [if_pos behind, position, if_pos (by omega),
            takes.next _ (by omega) (heldRest _ behind)]
        · have outside : ¬(x - addr).toNat < size.toNat := by bv_omega
          rw [if_neg behind, if_neg outside]

/-- The second pass of a load: the bytes of memory are copied in order, each to the
position in the buffer that is its distance from the start of its part. -/
theorem misalignedAccess_loads (layout : ByteLayout mc) (fuel : Nat) (m : EmuMachine δ)
    (addr size data : U64) {mode : RvAccess} (load : mode ≠ .store) (enough : size.toNat ≤ fuel)
    (small : size.toNat ≤ 8) (noWrap : addr.toNat + size.toNat < 2 ^ 64)
    (held : AllHeld mc addr size.toNat) :
    (misalignedAccess mc fuel m addr (some data) size mode).res = .ok ∧
      ∃ buffer, (misalignedAccess mc fuel m addr (some data) size mode).data = some buffer ∧
        ∀ j < 8, byte buffer j = overlay (partPos mc addr)
          (fun i => dev.byteAt m (addr + BitVec.ofNat 64 i)) (byte data) size.toNat j := by
  induction fuel generalizing addr size data with
  | zero =>
      have none : size.toNat = 0 := by omega
      refine ⟨rfl, data, rfl, ?_⟩
      intro j word
      rw [none]
      rfl
  | succ fuel ih =>
      by_cases done : size = 0
      · rw [done, misalignedAccess_done]
        exact ⟨rfl, data, rfl, fun j word => rfl⟩
      obtain ⟨len, round⟩ := roundDoes dev layout done small noWrap (held.first (by bv_omega))
      have takes := round.takes
      have pos := takes.pos
      have le := takes.le
      have rest : (size - len).toNat = size.toNat - len.toNat := by bv_omega
      have heldRest := takes.allHeld_iff.mp held
      obtain ⟨out, does, ends⟩ := round.transfers fuel m data mode
      rw [DoesPart, if_neg load] at does
      obtain ⟨first, touched, rfl, loaded⟩ := does
      obtain ⟨ok, buffer, same, later⟩ := ih (addr + len) (size - len) first (by omega) (by omega)
        (rest_noWrap noWrap le) heldRest
      rw [ends.res, ends.data]
      refine ⟨ok, buffer, same, ?_⟩
      intro j word
      have total : size.toNat = len.toNat + (size - len).toNat := by omega
      rw [later j word, total, overlay_add]
      apply overlay_congr
      · intro i inside
        exact (takes.next i (by omega) (heldRest i inside)).symm
      · intro i inside
        have address : addr + len + BitVec.ofNat 64 i =
            addr + BitVec.ofNat 64 (len.toNat + i) := by bv_omega
        rw [address]
      · rw [loaded j word, overlay_own takes.here]

end Loop

/-! ### A whole access -/

section Access

variable {mc : EmuConfig δ} (dev : ByteDevices mc) {m : EmuMachine δ} {h : Nat} {addr data : U64}
  {sizeExp : Fin 4} {mode : RvAccess} {ignorePmp : Bool}

/-- PMP lets the access through, and every byte of it is held. -/
def Admitted (mc : EmuConfig δ) (m : EmuMachine δ) (h : Nat) (addr : U64) (sizeExp : Fin 4)
    (mode : RvAccess) (ignorePmp : Bool) : Prop :=
  PmpAllows m h addr (bit sizeExp.val) mode ignorePmp ∧ AllHeld mc addr (2 ^ sizeExp.val)

/-- A load that succeeds yields the bytes from `addr` on. -/
def LoadsByteWise (m : EmuMachine δ) (addr : U64) (n : Nat) (out : MemOutcome δ) : Prop :=
  out.res = .ok → ∃ buffer, out.data = some buffer ∧
    ∀ i < n, byte buffer i = dev.byteAt m (addr + BitVec.ofNat 64 i)

/-- A store that succeeds sets the bytes from `addr` on, and no others. -/
def StoresByteWise (m : EmuMachine δ) (addr : U64) (n : Nat) (data : U64) (out : MemOutcome δ) :
    Prop :=
  out.res = .ok → ∀ x, dev.byteAt out.machine x =
    if (x - addr).toNat < n then byte data (x - addr).toNat else dev.byteAt m x

theorem rvAccessPhysUnchecked_misaligned (m : EmuMachine δ) (data : U64) (mode : RvAccess)
    (noWrap : addr.toNat + (bit sizeExp.val).toNat < 2 ^ 64)
    (misaligned : addr % bit sizeExp.val ≠ 0) :
    rvAccessPhysUnchecked mc m addr data sizeExp mode =
      misalignedTwoPass mc m addr data (bit sizeExp.val) mode := by
  cases ram : ramHoldsRange mc addr (bit sizeExp.val) with
  | true =>
      rw [rvAccessPhysUnchecked, if_pos ram]
      rw [ramHoldsRange, Bool.and_eq_true, decide_eq_true_iff, decide_eq_true_iff] at ram
      rcases ram with ⟨low, high⟩
      rw [misalignedTwoPass_ram mc m data mode (accessSize_small sizeExp).1 low (by bv_omega)]
  | false =>
      have slow : ¬ramHoldsRange mc addr (bit sizeExp.val) = true := by
        rw [ram]
        exact Bool.false_ne_true
      rw [rvAccessPhysUnchecked, if_neg slow, if_pos misaligned]

/-- The two passes: the first finds a byte that nothing holds, or the second runs. -/
theorem misalignedTwoPass_held (dev : ByteDevices mc) (layout : ByteLayout mc)
    (m : EmuMachine δ) {size : U64} (small : size.toNat ≤ 8)
    (noWrap : addr.toNat + size.toNat < 2 ^ 64)
    (held : AllHeld mc addr size.toNat) :
    misalignedTwoPass mc m addr data size mode =
      misalignedAccess mc size.toNat m addr (some data) size mode := by
  have passed := (misalignedAccess_checks dev layout size.toNat m addr size mode (Nat.le_refl _)
    small noWrap).mpr held
  have same := (misalignedAccess_null mc size.toNat m addr size mode).2
  rw [misalignedTwoPass, if_neg (not_not.mpr passed), same]

theorem misalignedTwoPass_notHeld (dev : ByteDevices mc) (layout : ByteLayout mc)
    (m : EmuMachine δ) {size : U64} (small : size.toNat ≤ 8)
    (noWrap : addr.toNat + size.toNat < 2 ^ 64) (missing : ¬AllHeld mc addr size.toNat) :
    (misalignedTwoPass mc m addr data size mode).res ≠ .ok := by
  have failed := mt (misalignedAccess_checks dev layout size.toNat m addr size mode (Nat.le_refl _)
    small noWrap).mp missing
  rw [misalignedTwoPass, if_pos failed]
  exact failed

/-- A misaligned access that is admitted runs the loop. -/
theorem rvAccessPhys_admitted (dev : ByteDevices mc) (layout : ByteLayout mc)
    (noWrap : addr.toNat + 2 ^ sizeExp.val < 2 ^ 64) (misaligned : addr % bit sizeExp.val ≠ 0)
    (admitted : Admitted mc m h addr sizeExp mode ignorePmp) :
    rvAccessPhys mc m h addr data sizeExp mode ignorePmp =
      misalignedAccess mc (2 ^ sizeExp.val) m addr (some data) (bit sizeExp.val) mode := by
  rcases admitted with ⟨allows, held⟩
  have size := accessSize_toNat sizeExp
  have small := (accessSize_small sizeExp).2
  rw [← size] at noWrap held ⊢
  have passes : ¬(!ignorePmp && decide (doPmpCheck (m.cpus h) addr (bit sizeExp.val) mode ≠ .ok)) =
      true := by
    rcases allows with ignored | granted
    · rw [ignored]
      exact Bool.false_ne_true
    · simp [granted]
  rw [rvAccessPhys, if_neg passes, rvAccessPhysUnchecked_misaligned m data mode noWrap misaligned,
    misalignedTwoPass_held dev layout m small noWrap held]

/-- One that is not admitted fails. -/
theorem rvAccessPhys_refused (dev : ByteDevices mc) (layout : ByteLayout mc)
    (noWrap : addr.toNat + 2 ^ sizeExp.val < 2 ^ 64) (misaligned : addr % bit sizeExp.val ≠ 0)
    (refused : ¬Admitted mc m h addr sizeExp mode ignorePmp) :
    (rvAccessPhys mc m h addr data sizeExp mode ignorePmp).res ≠ .ok := by
  have size := accessSize_toNat sizeExp
  have small := (accessSize_small sizeExp).2
  rw [Admitted, PmpAllows, ← size] at refused
  rw [← size] at noWrap
  rw [rvAccessPhys]
  split
  · next denied =>
      simp only [Bool.and_eq_true, decide_eq_true_eq] at denied
      exact denied.2
  · next passes =>
      rw [rvAccessPhysUnchecked_misaligned m data mode noWrap misaligned]
      apply misalignedTwoPass_notHeld dev layout m small noWrap
      intro held
      apply refused
      refine ⟨?_, held⟩
      cases ignorePmp with
      | true => exact Or.inl rfl
      | false => exact Or.inr (by simpa using passes)

/-! ### The condition -/

/-- The bytes of an admitted access come out right although every part of it starts at the
first byte of the buffer. A load leaves in each place of the buffer the last byte that is so
far from the start of its part, which is the same as the byte that belongs there; a store
finds the byte that belongs at an address in that place too. -/
structure PartsCoincide (m : EmuMachine δ) (h : Nat) (addr data : U64) (sizeExp : Fin 4)
    (ignorePmp : Bool) : Prop where
  loads : Admitted mc m h addr sizeExp .load ignorePmp → ∀ j < 2 ^ sizeExp.val,
    overlay (partPos mc addr) (fun i => dev.byteAt m (addr + BitVec.ofNat 64 i)) (byte data)
        (2 ^ sizeExp.val) j =
      dev.byteAt m (addr + BitVec.ofNat 64 j)
  stores : Admitted mc m h addr sizeExp .store ignorePmp → ∀ i < 2 ^ sizeExp.val,
    byte data (partPos mc addr i) = byte data i

theorem loadsByteWise_iff (layout : ByteLayout mc) (noWrap : addr.toNat + 2 ^ sizeExp.val < 2 ^ 64)
    (misaligned : addr % bit sizeExp.val ≠ 0) (load : mode ≠ .store) :
    LoadsByteWise dev m addr (2 ^ sizeExp.val)
        (rvAccessPhys mc m h addr data sizeExp mode ignorePmp) ↔
      (Admitted mc m h addr sizeExp mode ignorePmp → ∀ j < 2 ^ sizeExp.val,
        overlay (partPos mc addr) (fun i => dev.byteAt m (addr + BitVec.ofNat 64 i)) (byte data)
            (2 ^ sizeExp.val) j =
          dev.byteAt m (addr + BitVec.ofNat 64 j)) := by
  have size := accessSize_toNat sizeExp
  have small := (accessSize_small sizeExp).2
  by_cases admitted : Admitted mc m h addr sizeExp mode ignorePmp
  · rw [rvAccessPhys_admitted dev layout noWrap misaligned admitted]
    have loop := misalignedAccess_loads dev layout (2 ^ sizeExp.val) m addr (bit sizeExp.val) data
      load (le_of_eq size) small (size ▸ noWrap) (size ▸ admitted.2)
    rw [size] at loop
    obtain ⟨ok, buffer, same, bytes⟩ := loop
    constructor
    · intro right _ j inside
      obtain ⟨buffer', same', bytes'⟩ := right ok
      rw [same] at same'
      cases same'
      rw [← bytes j (by omega), bytes' j inside]
    · intro coincide _
      refine ⟨buffer, same, ?_⟩
      intro j inside
      rw [bytes j (by omega), coincide admitted j inside]
  · refine iff_of_true ?_ fun impossible => absurd impossible admitted
    intro ok
    exact absurd ok (rvAccessPhys_refused dev layout noWrap misaligned admitted)

theorem storesByteWise_iff (layout : ByteLayout mc)
    (noWrap : addr.toNat + 2 ^ sizeExp.val < 2 ^ 64) (misaligned : addr % bit sizeExp.val ≠ 0) :
    StoresByteWise dev m addr (2 ^ sizeExp.val) data
        (rvAccessPhys mc m h addr data sizeExp .store ignorePmp) ↔
      (Admitted mc m h addr sizeExp .store ignorePmp → ∀ i < 2 ^ sizeExp.val,
        byte data (partPos mc addr i) = byte data i) := by
  have size := accessSize_toNat sizeExp
  have small := (accessSize_small sizeExp).2
  by_cases admitted : Admitted mc m h addr sizeExp .store ignorePmp
  · rw [rvAccessPhys_admitted dev layout noWrap misaligned admitted]
    have loop := misalignedAccess_stores dev layout (2 ^ sizeExp.val) m addr (bit sizeExp.val) data
      (le_of_eq size) small (size ▸ noWrap) (size ▸ admitted.2)
    rw [size] at loop
    obtain ⟨ok, bytes⟩ := loop
    constructor
    · intro right _ i inside
      have position : (addr + BitVec.ofNat 64 i - addr).toNat = i := by bv_omega
      have both := (bytes (addr + BitVec.ofNat 64 i)).symm.trans
        (right ok (addr + BitVec.ofNat 64 i))
      rw [position, if_pos inside, if_pos inside] at both
      exact both
    · intro coincide _ x
      rw [bytes x]
      split
      · next inside => rw [coincide admitted _ inside]
      · rfl
  · refine iff_of_true ?_ fun impossible => absurd impossible admitted
    intro ok
    exact absurd ok (rvAccessPhys_refused dev layout noWrap misaligned admitted)

/-- An access within RAM or within one region has one part, and no byte is misplaced. -/
theorem partPos_onePart {n : Nat} {base limit : U64} (interval : HolderInterval mc base limit)
    (low : base ≤ addr) (high : addr.toNat + n ≤ limit.toNat) {i : Nat} (inside : i < n) :
    partPos mc addr i = i := by
  have start := interval.bases (addr + BitVec.ofNat 64 i) (by bv_omega) (by bv_omega)
  simp only [partPos, start]
  bv_omega

theorem partsCoincide_onePart {base limit : U64} (interval : HolderInterval mc base limit)
    (low : base ≤ addr) (high : addr.toNat + 2 ^ sizeExp.val ≤ limit.toNat) :
    PartsCoincide dev m h addr data sizeExp ignorePmp := by
  have own : ∀ i < 2 ^ sizeExp.val, partPos mc addr i = i :=
    fun i inside => partPos_onePart interval low high inside
  constructor
  · intro _ j inside
    rw [overlay_own own, if_pos inside]
  · intro _ i inside
    rw [own i inside]

end Access

/-- A misaligned load and store are byte-wise exactly when the parts of the access, each
taken from the start of the buffer, coincide with its bytes. -/
theorem rvAccessPhys_byteWise_iff (mc : EmuConfig δ) (dev : ByteDevices mc)
    (layout : ByteLayout mc) (m : EmuMachine δ) (h : Nat) (addr data : U64) (sizeExp : Fin 4)
    (ignorePmp : Bool) (noWrap : addr.toNat + 2 ^ sizeExp.val < 2 ^ 64)
    (misaligned : addr % bit sizeExp.val ≠ 0) :
    LoadsByteWise dev m addr (2 ^ sizeExp.val)
          (rvAccessPhys mc m h addr data sizeExp .load ignorePmp) ∧
        StoresByteWise dev m addr (2 ^ sizeExp.val) data
          (rvAccessPhys mc m h addr data sizeExp .store ignorePmp) ↔
      PartsCoincide dev m h addr data sizeExp ignorePmp := by
  rw [loadsByteWise_iff dev layout noWrap misaligned (by decide),
    storesByteWise_iff dev layout noWrap misaligned]
  exact ⟨fun both => ⟨both.1, both.2⟩, fun coincide => ⟨coincide.loads, coincide.stores⟩⟩

/-! ### Arrays of bytes -/

/-- A device that is an array of bytes. -/
def byteRegion (base size : U64) : EmuMmioRegion (U64 → U8) where
  base := base
  size := size
  read := fun bus offset n => ((true, ramLoad bus.device (base + offset) n.toNat), bus)
  write := fun bus offset n value =>
    (true, { bus with device := ramStore bus.device (base + offset) value n.toNat })

/-- RAM from `0x1000` and an array of bytes from `0x2000`, a page each. -/
def byteConfig : EmuConfig (U64 → U8) where
  ramStart := 0x1000
  ramEnd := 0x2000
  cpuCount := 1
  mmio := [byteRegion 0x2000 0x1000]
  trapHook := fun _ => none
  rvFloatExactMath := false
  fpu := default
  softfloat := default

theorem byteConfig_region {r : EmuMmioRegion (U64 → U8)} (member : r ∈ byteConfig.mmio) :
    r = byteRegion 0x2000 0x1000 :=
  List.mem_singleton.mp member

def byteDevices : ByteDevices byteConfig where
  view := id
  reads := by
    intro r member bus offset size small fits
    rw [byteConfig_region member]
    refine ⟨_, rfl, ?_⟩
    intro i inside
    rw [byte_ramLoad _ _ (by omega), if_pos inside]
    rfl
  writes := by
    intro r member bus offset size value small fits
    rw [byteConfig_region member]
    exact ⟨_, rfl, fun x => rfl⟩

theorem byteLayout : ByteLayout byteConfig := by
  constructor
  · intro r member x holds inRam
    rw [byteConfig_region member] at holds
    have low : (0x2000 : U64) ≤ x := (holdsByte_iff.mp holds).1
    have high : x < (0x2000 : U64) := inRam.2
    bv_omega
  · intro r member r' member' x _ _
    rw [byteConfig_region member, byteConfig_region member']

/-- A doubleword at an odd address of the device. -/
theorem rvAccessPhys_byteWise_iff_device :
    LoadsByteWise byteDevices (emuMachineInit fun _ => 0) 0x2001 (2 ^ (3 : Fin 4).val)
        (rvAccessPhys byteConfig (emuMachineInit fun _ => 0) 0 0x2001 0x0807060504030201 3 .load
          false) ∧
      StoresByteWise byteDevices (emuMachineInit fun _ => 0) 0x2001 (2 ^ (3 : Fin 4).val)
        0x0807060504030201
        (rvAccessPhys byteConfig (emuMachineInit fun _ => 0) 0 0x2001 0x0807060504030201 3 .store
          false) :=
  (rvAccessPhys_byteWise_iff byteConfig byteDevices byteLayout (emuMachineInit fun _ => 0) 0 0x2001
    0x0807060504030201 3 false (by decide) (by decide)).mpr
    (partsCoincide_onePart byteDevices (region_interval byteLayout List.mem_cons_self) (by decide)
      (by decide))

/-- A word stored across the end of RAM: the device gets the bytes that RAM got. -/
theorem rvAccessPhys_straddles :
    ¬∀ (mc : EmuConfig (U64 → U8)) (dev : ByteDevices mc), ByteLayout mc →
      ∀ (m : EmuMachine (U64 → U8)) (h : Nat) (addr data : U64) (sizeExp : Fin 4) (ignorePmp : Bool),
        addr.toNat + 2 ^ sizeExp.val < 2 ^ 64 → addr % bit sizeExp.val ≠ 0 →
          LoadsByteWise dev m addr (2 ^ sizeExp.val)
              (rvAccessPhys mc m h addr data sizeExp .load ignorePmp) ∧
            StoresByteWise dev m addr (2 ^ sizeExp.val) data
              (rvAccessPhys mc m h addr data sizeExp .store ignorePmp) := by
  intro always
  have both := always byteConfig byteDevices byteLayout (emuMachineInit fun _ => 0) 0 0x1ffe
    0x04030201 2 true (by decide) (by decide)
  have admitted : Admitted byteConfig (emuMachineInit fun _ => 0) 0 0x1ffe 2 .store true :=
    ⟨Or.inl rfl, by decide⟩
  have coincide := (storesByteWise_iff byteDevices byteLayout (by decide) (by decide)).mp both.2
    admitted 2 (by decide)
  exact absurd coincide (by decide)

end Riscmulator
