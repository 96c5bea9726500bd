import Riscmulator.StoreParts
import Riscmulator.DeviceLog

/-! What the parts of a store change: each its own bytes of RAM, or the log of a device. -/

namespace Riscmulator

open Attempts

variable {δ : Type}

/-! ### What a part changes -/

/-- The part stores a byte at this physical address of RAM. -/
def StorePart.Holds : StorePart δ → U64 → Prop
  | .ram addr len _, x => (x - addr).toNat < len.toNat
  | .device _ _ _ _, _ => False
  | .refused, _ => False

/-- The part changes a byte of this RAM, or is a write to a device. -/
def StorePart.Changes (mc : EmuConfig δ) (ram : U64 → U8) : StorePart δ → Prop
  | .ram addr len data => ramStore ram (addr - mc.ramStart) data len.toNat ≠ ram
  | .device _ _ _ _ => True
  | .refused => False

def StorePart.Known (mc : EmuConfig δ) : StorePart δ → Prop
  | .device r _ _ _ => r ∈ mc.mmio
  | _ => True

def StorePart.Apart (first second : StorePart δ) : Prop := ∀ x, first.Holds x → ¬second.Holds x

/-- Writes to devices of the machine, and stores to parts of RAM that do not overlap. -/
structure WellCut (mc : EmuConfig δ) (parts : List (StorePart δ)) : Prop where
  known : ∀ part ∈ parts, part.Known mc
  apart : parts.Pairwise StorePart.Apart

structure CutOf (mc : EmuConfig δ) (addr size : U64) (parts : List (StorePart δ)) : Prop extends
    WellCut mc parts where
  inside : ∀ part ∈ parts, ∀ x, part.Holds x → (x - addr).toNat < size.toNat

section Cuts

variable {mc : EmuConfig δ} {addr size data : U64}

theorem cutOf_nil (mc : EmuConfig δ) (addr size : U64) : CutOf mc addr size [] :=
  ⟨⟨by simp, List.Pairwise.nil⟩, by simp⟩

theorem cutOf_single {part : StorePart δ} (known : part.Known mc)
    (inside : ∀ x, part.Holds x → (x - addr).toNat < size.toNat) : CutOf mc addr size [part] where
  known := by simpa using known
  apart := List.pairwise_singleton _ _
  inside := by simpa using inside

theorem cutOf_refused (mc : EmuConfig δ) (addr size : U64) : CutOf mc addr size [.refused] :=
  cutOf_single trivial fun _ held => held.elim

/-- A first part of `len` bytes, and a cut of the bytes after it. -/
theorem CutOf.cons {part : StorePart δ} {rest : List (StorePart δ)} {len : U64}
    (known : part.Known mc) (first : ∀ x, part.Holds x → (x - addr).toNat < len.toNat)
    (le : len.toNat ≤ size.toNat) (later : CutOf mc (addr + len) (size - len) rest) :
    CutOf mc addr size (part :: rest) := by
  refine ⟨⟨?_, ?_⟩, ?_⟩
  · intro other member
    rcases List.mem_cons.mp member with rfl | member
    · exact known
    · exact later.known other member
  · refine List.pairwise_cons.mpr ⟨?_, later.apart⟩
    intro other member x held heldToo
    have low := first x held
    have high := later.inside other member x heldToo
    bv_omega
  · intro other member x held
    rcases List.mem_cons.mp member with rfl | member
    · have low := first x held
      omega
    · have high := later.inside other member x held
      bv_omega

theorem splitParts_cutOf (fuel : Nat) (addr size : U64) {parts : List (StorePart δ)}
    (cut : splitParts mc data fuel addr size = some parts) : CutOf mc addr size parts := by
  induction fuel generalizing addr size parts with
  | zero =>
      cases cut
      exact cutOf_nil mc addr size
  | succ fuel ih =>
      by_cases done : size = 0
      · rw [splitParts, if_pos done] at cut
        cases cut
        exact cutOf_nil mc addr size
      cases ram : ramHoldsByte mc addr with
      | true =>
          simp only [splitParts, done, ram, if_true, if_false, Option.map_eq_some_iff] at cut
          obtain ⟨rest, cut, rfl⟩ := cut
          have below : addr + 1 ≤ mc.ramEnd := by
            simp only [ramHoldsByte, Bool.and_eq_true, decide_eq_true_eq] at ram
            exact ram.2
          exact CutOf.cons trivial (fun _ held => held) (clipPart_part below done).2 (ih _ _ cut)
      | false =>
          cases region : mc.mmio.find? (·.holdsByte addr) with
          | none =>
              simp only [splitParts, done, ram, region, if_false, Bool.false_eq_true] at cut
              cases cut
          | some r =>
              simp only [splitParts, done, ram, region, if_false, Bool.false_eq_true,
                Option.map_eq_some_iff] at cut
              obtain ⟨rest, cut, rfl⟩ := cut
              have below : addr + 1 ≤ r.limit := by
                have limit := (holdsByte_limit region).2
                bv_omega
              exact CutOf.cons (List.mem_of_find?_eq_some region) (fun _ held => held.elim)
                (clipPart_part below done).2 (ih _ _ cut)

theorem twoPassParts_cutOf (mc : EmuConfig δ) (addr data size : U64) :
    CutOf mc addr size (twoPassParts mc addr data size) := by
  rw [twoPassParts]
  cases cut : splitParts mc data size.toNat addr size with
  | none => exact cutOf_refused mc addr size
  | some parts => exact splitParts_cutOf _ addr size cut

theorem physParts_wellCut (mc : EmuConfig δ) (addr data : U64) (sizeExp : Fin 4) :
    WellCut mc (physParts mc addr data sizeExp) := by
  rw [physParts]
  split
  · have whole : CutOf mc addr (bit sizeExp.val) [.ram addr (bit sizeExp.val) data] :=
      cutOf_single trivial fun _ held => held
    exact whole.toWellCut
  split
  · exact (twoPassParts_cutOf mc addr data _).toWellCut
  · cases region : mc.mmio.find? (·.holdsRange addr (bit sizeExp.val)) with
    | none => exact (cutOf_refused mc addr 0).toWellCut
    | some r =>
        have single : CutOf mc addr 0 [.device r addr ((bit sizeExp.val).setWidth 8) data] :=
          cutOf_single (List.mem_of_find?_eq_some region) fun _ held => held.elim
        exact single.toWellCut

/-- A translation keeps the offset within the page. -/
theorem rvTranslate_offset (entry : RvTlbEntry) (vaddr : U64) :
    (rvTranslate entry vaddr).toNat % 4096 = vaddr.toNat % 4096 := by
  have power : (4096 : Nat) = 2 ^ 12 := by decide
  have exponent : rvCpuPageSizeExp = 12 := rfl
  have page : (vaddr % rvCpuPageSize).toNat = vaddr.toNat % 4096 := BitVec.toNat_umod
  have start : (rvPtePpn entry.pte <<< 12).toNat % 4096 = 0 := by
    rw [BitVec.toNat_shiftLeft, Nat.mod_mod_of_dvd _ (by decide), Nat.shiftLeft_eq, power,
      Nat.mul_mod_left]
  calc
    (rvTranslate entry vaddr).toNat % 4096 =
        ((rvPtePpn entry.pte <<< 12).toNat ||| vaddr.toNat % 4096) % 4096 := by
      rw [rvTranslate, exponent, BitVec.toNat_or, page]
    _ = (rvPtePpn entry.pte <<< 12).toNat % 4096 ||| vaddr.toNat % 4096 % 4096 := by
      rw [power, Nat.or_mod_two_pow]
    _ = vaddr.toNat % 4096 := by
      rw [start, Nat.zero_or, Nat.mod_mod]

theorem rvNextPage_offset (vaddr : U64) : (rvNextPage vaddr).toNat % 4096 = 0 := by
  have page : rvCpuPageSize.toNat = 4096 := rfl
  rw [rvNextPage, BitVec.toNat_mul, Nat.mod_mod_of_dvd _ (by decide), page, Nat.mul_mod_left]

/-- The parts of two pages do not overlap: those of the first are at the end of a
page, and those of the second at the start of one. -/
theorem pageParts_wellCut (vaddr data : U64) {size : U64} (pos : 0 < size.toNat)
    (small : size.toNat ≤ 8)
    (crosses : vaddr / rvCpuPageSize ≠ (vaddr + size - 1) / rvCpuPageSize)
    (result0 result1 : RvTlbEntry) :
    WellCut mc (pageParts mc vaddr data size result0 result1) := by
  have first := twoPassParts_cutOf mc (rvTranslate result0 vaddr) data (rvNextPage vaddr - vaddr)
  have second := twoPassParts_cutOf mc (rvTranslate result1 (rvNextPage vaddr))
    (data >>> (8 * (rvNextPage vaddr - vaddr).toNat)) (vaddr + size - rvNextPage vaddr)
  refine ⟨?_, ?_⟩
  · intro part member
    rcases List.mem_append.mp member with member | member
    · exact first.known part member
    · exact second.known part member
  · refine List.pairwise_append.mpr ⟨first.apart, second.apart, ?_⟩
    intro early earlyIn late lateIn x held heldToo
    have low := first.inside early earlyIn x held
    have high := second.inside late lateIn x heldToo
    have offset0 := rvTranslate_offset result0 vaddr
    have offset1 := rvTranslate_offset result1 (rvNextPage vaddr)
    have start := rvNextPage_offset vaddr
    obtain ⟨small0, small1⟩ := twoPages_small pos small crosses
    generalize rvTranslate result0 vaddr = paddr0 at low offset0
    generalize rvTranslate result1 (rvNextPage vaddr) = paddr1 at high offset1
    generalize rvNextPage vaddr = next at *
    bv_omega

theorem storePlan_wellCut (mc : EmuConfig δ) (m : EmuMachine δ) (h : Nat) (vaddr data : U64)
    (sizeExp : Fin 4) : WellCut mc (storePlan mc m h vaddr data sizeExp).parts := by
  have refused : WellCut mc [StorePart.refused] := (cutOf_refused mc 0 0).toWellCut
  obtain ⟨pos, small⟩ := accessSize_small sizeExp
  simp only [storePlan]
  split
  · split
    · exact refused
    · exact physParts_wellCut mc _ _ _
  split
  · exact refused
  split
  · next crosses =>
      split
      · exact refused
      split
      · exact refused
      split
      · exact refused
      · exact pageParts_wellCut vaddr data pos small crosses _ _
  · split
    · exact refused
    · exact physParts_wellCut mc _ _ _

end Cuts

/-! ### What a run of parts changes -/

section Changes

variable {mc : EmuConfig δ}

/-- A part of RAM replaces the bytes it holds, whatever they were. -/
theorem ramStore_held {addr len data idx : U64}
    (held : (StorePart.ram addr len data : StorePart δ).Holds (mc.ramStart + idx))
    (ram : U64 → U8) :
    ramStore ram (addr - mc.ramStart) data len.toNat idx =
      (data >>> (8 * (mc.ramStart + idx - addr).toNat)).setWidth 8 := by
  have position : idx - (addr - mc.ramStart) = mc.ramStart + idx - addr := by bv_omega
  rw [ramStore, position]
  exact if_pos held

theorem ramStore_free {addr len data idx : U64}
    (free : ¬(StorePart.ram addr len data : StorePart δ).Holds (mc.ramStart + idx))
    (ram : U64 → U8) : ramStore ram (addr - mc.ramStart) data len.toNat idx = ram idx := by
  have position : idx - (addr - mc.ramStart) = mc.ramStart + idx - addr := by bv_omega
  rw [ramStore, position]
  exact if_neg free

/-- Parts that change nothing, and are not refused, leave the machine as it is. -/
theorem runAll_unchanged {parts : List (StorePart δ)} {m : EmuMachine δ}
    (done : (runAll (StorePart.perform mc) parts m).1 = true)
    (unchanged : ∀ part ∈ parts, ¬part.Changes mc m.ram) :
    (runAll (StorePart.perform mc) parts m).2 = m := by
  induction parts with
  | nil => rfl
  | cons first rest ih =>
      have now := unchanged first List.mem_cons_self
      rw [runAll_cons] at done ⊢
      cases first with
      | ram addr len data =>
          have same : ((StorePart.ram addr len data : StorePart δ).perform mc m).2 = m :=
            congrArg (fun ram => { m with ram := ram }) (not_not.mp now)
          rw [same] at done ⊢
          exact ih done fun part member => unchanged part (List.mem_cons_of_mem _ member)
      | device r addr size data => exact absurd trivial now
      | refused => cases done

/-- A byte that no part holds is kept. -/
theorem runAll_ram_kept {parts : List (StorePart δ)} {m : EmuMachine δ} {idx : U64}
    (free : ∀ part ∈ parts, ¬part.Holds (mc.ramStart + idx)) :
    (runAll (StorePart.perform mc) parts m).2.ram idx = m.ram idx := by
  have keeps : ∀ part ∈ parts, ∀ s : EmuMachine δ, s.ram idx = m.ram idx →
      (part.perform mc s).2.ram idx = m.ram idx := by
    intro part member s same
    cases part with
    | ram addr len data =>
        exact (ramStore_free (free _ member) s.ram).trans same
    | device r addr size data => exact same
    | refused => exact same
  exact runAll_keeps keeps rfl

/-- A byte of RAM that some part changes stays changed, as no other part holds it. -/
theorem runAll_ram_changed {parts : List (StorePart δ)} {m : EmuMachine δ}
    (apart : parts.Pairwise StorePart.Apart)
    (done : (runAll (StorePart.perform mc) parts m).1 = true) {addr len data : U64}
    (member : StorePart.ram addr len data ∈ parts) {idx : U64}
    (changes : ramStore m.ram (addr - mc.ramStart) data len.toNat idx ≠ m.ram idx) :
    (runAll (StorePart.perform mc) parts m).2.ram idx ≠ m.ram idx := by
  have held : (StorePart.ram addr len data : StorePart δ).Holds (mc.ramStart + idx) := by
    by_contra free
    exact changes (ramStore_free free m.ram)
  induction parts generalizing m with
  | nil => cases member
  | cons first rest ih =>
      obtain ⟨clear, later⟩ := List.pairwise_cons.mp apart
      rw [runAll_cons] at done ⊢
      split at done
      · next passed =>
          rw [if_pos passed]
          rcases List.mem_cons.mp member with rfl | member
          · have free : ∀ part ∈ rest, ¬part.Holds (mc.ramStart + idx) :=
              fun part inRest => clear part inRest _ held
            rw [runAll_ram_kept free]
            exact changes
          · have mine : ¬first.Holds (mc.ramStart + idx) :=
              fun holds => clear _ member _ holds held
            have same : (first.perform mc m).2.ram idx = m.ram idx := by
              rw [← runAll_single (StorePart.perform mc)]
              exact runAll_ram_kept (by simpa using mine)
            rw [ramStore_held held] at changes
            rw [← same] at changes ⊢
            apply ih later done member
            rw [ramStore_held held]
            exact changes
      · next stuck => exact absurd done stuck

end Changes

/-! ### The log of a run of parts -/

section Logs

variable {mc : EmuConfig δ} {m : EmuMachine (Logged δ)}

/-- What a part adds to the log: nothing, or the write that a device accepts. -/
theorem StorePart.perform_log {part : StorePart (Logged δ)} (known : part.Known mc.logged) :
    (∃ entries, (part.perform mc.logged m).2.device.2 = m.device.2 ++ entries) ∧
      ((part.perform mc.logged m).1 = false → (part.perform mc.logged m).2.ram = m.ram ∧
        (part.perform mc.logged m).2.device.2 = m.device.2) := by
  cases part with
  | ram addr len data => exact ⟨⟨[], (List.append_nil _).symm⟩, fun failed => by cases failed⟩
  | refused => exact ⟨⟨[], (List.append_nil _).symm⟩, fun _ => ⟨rfl, rfl⟩⟩
  | device r addr size data =>
      rcases List.mem_map.mp known with ⟨r, -, rfl⟩
      simp only [StorePart.perform, EmuMmioRegion.logged, EmuMachine.setBus, DeviceBus.keep]
      split
      · next accepted => exact ⟨⟨_, rfl⟩, fun failed => by rw [accepted] at failed; cases failed⟩
      · exact ⟨⟨[], (List.append_nil _).symm⟩, fun _ => ⟨trivial, rfl⟩⟩

/-- A write that a device has accepted stays in the log. -/
theorem runAll_log_kept {parts : List (StorePart (Logged δ))}
    (known : ∀ part ∈ parts, part.Known mc.logged) (logged : m.device.2 ≠ []) :
    (runAll (StorePart.perform mc.logged) parts m).2.device.2 ≠ [] := by
  have keeps : ∀ part ∈ parts, ∀ s : EmuMachine (Logged δ), s.device.2 ≠ [] →
      (part.perform mc.logged s).2.device.2 ≠ [] := by
    intro part member s logged
    obtain ⟨⟨entries, grown⟩, -⟩ := StorePart.perform_log (m := s) (known part member)
    rw [grown]
    exact List.append_ne_nil_of_left_ne_nil logged entries
  exact runAll_keeps keeps logged

theorem StorePart.perform_device {r : EmuMmioRegion (Logged δ)} {addr data : U64} {size : U8}
    (known : r ∈ mc.logged.mmio)
    (accepted : ((StorePart.device r addr size data).perform mc.logged m).1 = true) :
    ((StorePart.device r addr size data).perform mc.logged m).2.device.2 ≠ [] := by
  rcases List.mem_map.mp known with ⟨r, -, rfl⟩
  simp only [StorePart.perform, EmuMmioRegion.logged] at accepted
  simp only [StorePart.perform, EmuMmioRegion.logged, EmuMachine.setBus, DeviceBus.keep, accepted,
    if_true]
  exact List.append_ne_nil_of_right_ne_nil _ (List.cons_ne_nil _ _)

/-- A run that gets past a write to a device has logged it. -/
theorem runAll_logged {parts : List (StorePart (Logged δ))}
    (known : ∀ part ∈ parts, part.Known mc.logged)
    (done : (runAll (StorePart.perform mc.logged) parts m).1 = true)
    {r : EmuMmioRegion (Logged δ)} {addr data : U64} {size : U8}
    (member : StorePart.device r addr size data ∈ parts) :
    (runAll (StorePart.perform mc.logged) parts m).2.device.2 ≠ [] := by
  induction parts generalizing m with
  | nil => cases member
  | cons first rest ih =>
      have later : ∀ part ∈ rest, part.Known mc.logged :=
        fun part inRest => known part (List.mem_cons_of_mem _ inRest)
      rw [runAll_cons] at done ⊢
      split at done
      · next passed =>
          rw [if_pos passed]
          rcases List.mem_cons.mp member with rfl | member
          · exact runAll_log_kept later
              (StorePart.perform_device (known _ List.mem_cons_self) passed)
          · exact ih later done member
      · next stuck => exact absurd done stuck

/-- A part that changes something leaves its trace in RAM or in the log. -/
theorem runAll_trace {parts : List (StorePart (Logged δ))} (cut : WellCut mc.logged parts)
    (done : (runAll (StorePart.perform mc.logged) parts m).1 = true)
    {part : StorePart (Logged δ)} (member : part ∈ parts)
    (changes : part.Changes mc.logged m.ram) :
    (runAll (StorePart.perform mc.logged) parts m).2.device.2 ≠ [] ∨
      (runAll (StorePart.perform mc.logged) parts m).2.ram ≠ m.ram := by
  cases part with
  | ram addr len data =>
      obtain ⟨idx, changed⟩ := Function.ne_iff.mp changes
      exact Or.inr (Function.ne_iff.mpr
        ⟨idx, runAll_ram_changed cut.apart done member changed⟩)
  | device r addr size data => exact Or.inl (runAll_logged cut.known done member)
  | refused => exact changes.elim

end Logs

end Riscmulator
