import Riscmulator.RamBytes
import Riscmulator.Lib.Overlay

/-! Physical memory as bytes, in RAM and in devices that are arrays of bytes, and what one
round of `misaligned_access` does to them. -/

namespace Riscmulator

open Bytes

variable {δ : Type}

/-! ### Who holds a byte -/

def InRam (mc : EmuConfig δ) (x : U64) : Prop := mc.ramStart ≤ x ∧ x < mc.ramEnd

instance (mc : EmuConfig δ) (x : U64) : Decidable (InRam mc x) :=
  inferInstanceAs (Decidable (_ ∧ _))

def Held (mc : EmuConfig δ) (x : U64) : Prop := InRam mc x ∨ ∃ r ∈ mc.mmio, r.holdsByte x = true

instance (mc : EmuConfig δ) (x : U64) : Decidable (Held mc x) :=
  inferInstanceAs (Decidable (_ ∨ _))

/-- RAM and the regions are disjoint. -/
structure ByteLayout (mc : EmuConfig δ) : Prop where
  apart : ∀ r ∈ mc.mmio, ∀ x, r.holdsByte x = true → ¬InRam mc x
  single : ∀ r ∈ mc.mmio, ∀ r' ∈ mc.mmio, ∀ x, r.holdsByte x = true → r'.holdsByte x = true → r = r'

/-- Where the RAM or the region that holds a byte starts. -/
def holderBase (mc : EmuConfig δ) (x : U64) : U64 :=
  if InRam mc x then mc.ramStart
  else ((mc.mmio.find? (·.holdsByte x)).map (·.base)).getD x

/-- How far byte `i` of an access is from the start of its part of the access: the part
starts where the access does, or where the RAM or the region that holds the byte does. -/
def partPos (mc : EmuConfig δ) (addr : U64) (i : Nat) : Nat :=
  let x := addr + BitVec.ofNat 64 i
  min i (x.toNat - (holderBase mc x).toNat)

/-! ### Bytes -/

/-- The regions' devices are arrays of bytes, `view` being the byte at a physical address. -/
structure ByteDevices (mc : EmuConfig δ) where
  view : δ → U64 → U8
  reads : ∀ r ∈ mc.mmio, ∀ (bus : DeviceBus δ) (offset : U64) (size : U8), size.toNat ≤ 8 →
    offset.toNat + size.toNat ≤ r.size.toNat → ∃ value,
      r.read bus offset size = ((true, value), bus) ∧
      ∀ i < size.toNat, byte value i = view bus.device (r.base + offset + BitVec.ofNat 64 i)
  writes : ∀ r ∈ mc.mmio, ∀ (bus : DeviceBus δ) (offset : U64) (size : U8) (value : U64),
    size.toNat ≤ 8 → offset.toNat + size.toNat ≤ r.size.toNat → ∃ device,
      r.write bus offset size value = (true, { bus with device := device }) ∧
      ∀ x, view device x =
        if (x - (r.base + offset)).toNat < size.toNat then byte value (x - (r.base + offset)).toNat
        else view bus.device x

/-- The byte at a physical address. -/
def ByteDevices.byteAt {mc : EmuConfig δ} (dev : ByteDevices mc) (m : EmuMachine δ) (x : U64) : U8 :=
  if InRam mc x then m.ram (x - mc.ramStart) else dev.view m.device x

/-! ### The part that a round takes -/

section Layout

variable {mc : EmuConfig δ}

theorem find_holder (layout : ByteLayout mc) {r : EmuMmioRegion δ} (member : r ∈ mc.mmio) {x : U64}
    (holds : r.holdsByte x = true) : mc.mmio.find? (·.holdsByte x) = some r := by
  cases found : mc.mmio.find? (·.holdsByte x) with
  | none => exact absurd holds (List.find?_eq_none.mp found r member)
  | some r' =>
      have same := layout.single r' (List.mem_of_find?_eq_some found) r member x
        (holdsByte_limit found).1 holds
      rw [same]

theorem holdsByte_iff {r : EmuMmioRegion δ} {x : U64} :
    r.holdsByte x = true ↔ r.base ≤ x ∧ x < r.limit := by
  rw [EmuMmioRegion.holdsByte, Bool.and_eq_true, decide_eq_true_iff, decide_eq_true_iff]

/-- RAM, or the region around a byte: an interval that holds all of its bytes, and what
lies past it is held from there on. -/
structure HolderInterval (mc : EmuConfig δ) (base limit : U64) : Prop where
  held : ∀ x, base ≤ x → x < limit → Held mc x
  bases : ∀ x, base ≤ x → x < limit → holderBase mc x = base
  past : ∀ x, Held mc x → base < limit → limit ≤ x → limit ≤ holderBase mc x

theorem ram_interval (layout : ByteLayout mc) : HolderInterval mc mc.ramStart mc.ramEnd := by
  constructor
  · intro x low high
    exact Or.inl ⟨low, high⟩
  · intro x low high
    exact if_pos ⟨low, high⟩
  · intro x held proper past
    have outside : ¬InRam mc x := by
      rintro ⟨_, high⟩
      bv_omega
    rcases held with inRam | ⟨r, member, holds⟩
    · exact absurd inRam outside
    · rw [holderBase, if_neg outside, find_holder layout member holds]
      by_contra before
      have start : r.base < mc.ramEnd := BitVec.not_le.mp before
      obtain ⟨low, high⟩ := holdsByte_iff.mp holds
      have shared : r.holdsByte (mc.ramEnd - 1) = true := by
        apply holdsByte_iff.mpr
        constructor <;> bv_omega
      apply layout.apart r member _ shared
      constructor <;> bv_omega

theorem region_interval (layout : ByteLayout mc) {r : EmuMmioRegion δ} (member : r ∈ mc.mmio) :
    HolderInterval mc r.base r.limit := by
  have holds : ∀ x, r.base ≤ x → x < r.limit → r.holdsByte x = true :=
    fun x low high => holdsByte_iff.mpr ⟨low, high⟩
  constructor
  · intro x low high
    exact Or.inr ⟨r, member, holds x low high⟩
  · intro x low high
    have outside := layout.apart r member x (holds x low high)
    rw [holderBase, if_neg outside, find_holder layout member (holds x low high)]
    rfl
  · intro x held proper past
    have last := holds (r.limit - 1) (by bv_omega) (by bv_omega)
    by_contra before
    have start : holderBase mc x < r.limit := BitVec.not_le.mp before
    rcases held with inRam | ⟨r', member', holds'⟩
    · rw [holderBase, if_pos inRam] at start
      rcases inRam with ⟨low, high⟩
      apply layout.apart r member _ last
      constructor <;> bv_omega
    · have outside := layout.apart r' member' x holds'
      rw [holderBase, if_neg outside, find_holder layout member' holds'] at start
      have start : r'.base < r.limit := start
      obtain ⟨low, high⟩ := holdsByte_iff.mp holds'
      have shared : r'.holdsByte (r.limit - 1) = true := by
        apply holdsByte_iff.mpr
        constructor <;> bv_omega
      have same := layout.single r' member' r member _ shared last
      rw [same] at high
      bv_omega

/-- The round takes `len` bytes from `addr` on, all of one holder, and the next byte, if
there is one, starts a part of its own. -/
structure RoundTakes (mc : EmuConfig δ) (addr size len : U64) : Prop where
  pos : 0 < len.toNat
  le : len.toNat ≤ size.toNat
  held : ∀ i < len.toNat, Held mc (addr + BitVec.ofNat 64 i)
  here : ∀ i < len.toNat, partPos mc addr i = i
  next : ∀ i < size.toNat - len.toNat, Held mc (addr + len + BitVec.ofNat 64 i) →
    partPos mc addr (len.toNat + i) = partPos mc (addr + len) i

theorem roundTakes_clip {addr size base limit : U64} (interval : HolderInterval mc base limit)
    (low : base ≤ addr) (below : addr < limit) (pos : size ≠ 0)
    (noWrap : addr.toNat + size.toNat < 2 ^ 64) :
    RoundTakes mc addr size (clipPart addr size limit) := by
  obtain ⟨some', le, high⟩ := clipPart_inside noWrap below pos
  have clipped : (clipPart addr size limit).toNat < size.toNat →
      addr + clipPart addr size limit = limit := by
    unfold clipPart
    split
    · intro _
      bv_omega
    · intro less
      exact absurd less (lt_irrefl _)
  generalize clipPart addr size limit = len at some' le high clipped
  have inside : ∀ i < len.toNat,
      base ≤ addr + BitVec.ofNat 64 i ∧ addr + BitVec.ofNat 64 i < limit := by
    intro i before
    constructor <;> bv_omega
  constructor
  · exact some'
  · exact le
  · intro i before
    exact interval.held _ (inside i before).1 (inside i before).2
  · intro i before
    have start := interval.bases _ (inside i before).1 (inside i before).2
    simp only [partPos, start]
    bv_omega
  · intro i after held
    have edge := clipped (by omega)
    have past := interval.past (addr + len + BitVec.ofNat 64 i) held (by bv_omega) (by bv_omega)
    have address : addr + BitVec.ofNat 64 (len.toNat + i) = addr + len + BitVec.ofNat 64 i := by
      bv_omega
    simp only [partPos, address]
    generalize holderBase mc (addr + len + BitVec.ofNat 64 i) = start at past
    bv_omega

end Layout

end Riscmulator
