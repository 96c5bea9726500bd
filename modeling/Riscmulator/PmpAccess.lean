import Riscmulator.PmpGuard

/-! Virtual accesses against PMP: the check the code makes (at the current
privilege on a bare access, on the leaf's first page when a slot is filled)
and the bytes that are transferred. -/

namespace Riscmulator

open Transition

variable {δ : Type}

/-! ### What a slot keeps of its page -/

def SamePmp (cpu cpu' : RvCpu) : Prop :=
  cpu'.csr.pmpcfg = cpu.csr.pmpcfg ∧ cpu'.csr.pmpaddr = cpu.csr.pmpaddr

theorem SamePmp.check {cpu cpu' : RvCpu} (same : SamePmp cpu cpu') (paddr size : U64)
    (mMode : Bool) : rvPmpCheck cpu' paddr size mMode = rvPmpCheck cpu paddr size mMode :=
  rvPmpCheck_congr same.1 same.2 paddr size mMode

theorem CoreFrame.samePmp {cpu cpu' : RvCpu} (frame : CoreFrame cpu cpu') : SamePmp cpu cpu' := by
  rw [SamePmp, frame.csr]
  exact ⟨rfl, rfl⟩

def Leaf.pagePmp (leaf : Leaf) (cpu : RvCpu) : U8 := rvPmpCheck cpu leaf.base rvCpuPageSize false

/-- The entry has the permissions and the page of its fill, and the PMP bits are
those that `cpu` has for the leaf. -/
structure KeepsPage (cpu : RvCpu) (fill : TlbFill) (entry : RvTlbEntry) : Prop where
  perms : KeepsPerms fill entry
  page : rvPtePpn entry.pte = fill.ppn
  pmp : fill.pmp = fill.leaf.pagePmp cpu

theorem KeepsPage.congr {cpu cpu' : RvCpu} (same : SamePmp cpu cpu') {fill : TlbFill}
    {entry : RvTlbEntry} (kept : KeepsPage cpu fill entry) : KeepsPage cpu' fill entry where
  perms := kept.perms
  page := kept.page
  pmp := by
    rw [Leaf.pagePmp, same.check]
    exact kept.pmp

theorem WalkFound.keepsPage {cpu : RvCpu} {vaddr : U64} {mode : RvAccess} {leaf : Leaf}
    {entry : RvTlbEntry} (found : WalkFound cpu vaddr mode leaf entry) (low : leaf.level < 3) :
    KeepsPage cpu (tlbFill cpu vaddr mode leaf) entry := by
  refine ⟨found.keepsPerms, ?_, rfl⟩
  rw [found.ppn low]
  rfl

/-! ### The condition -/

/-- The way the translation of `vaddr` was obtained: the fill of the slot that the
lookup hits, or the walk that it makes. -/
def lookupFill (mc : EmuConfig δ) (h : Nat) (s : TlbRun δ) (vaddr : U64) (mode : RvAccess) :
    Option TlbFill :=
  match rvTlbScan (s.machine.cpus h).tlb (rvTlbRow vaddr) vaddr
      ((rvSatpAsid (s.machine.cpus h)).setWidth 16) (rvSetfl mode) with
  | some (.hit col) => some (s.fills (tlbSlot (rvTlbRow vaddr) col))
  | _ => (lookupLeaf mc h s.machine vaddr mode).map (tlbFill (s.machine.cpus h) vaddr mode)

def TlbFill.paddr (fill : TlbFill) (vaddr : U64) : U64 :=
  (fill.ppn <<< rvCpuPageSizeExp) ||| (vaddr % rvCpuPageSize)

/-- The condition on `len` bytes of one page. The access that filled the slot
needed the same permission, or PMP gives it to the leaf's first page; and PMP
treats the bytes as it treats that page. -/
def PageAgrees (mc : EmuConfig δ) (h : Nat) (s : TlbRun δ) (vaddr len : U64) (mode : RvAccess) :
    Prop :=
  ∀ fill, lookupFill mc h s vaddr mode = some fill →
    (mode.kind = fill.mode.kind ∨
        (fill.leaf.pagePmp (s.machine.cpus h)).getLsbD mode.pmpBit = true) ∧
      (rvPmpCheck (s.machine.cpus h) (fill.paddr vaddr) len false).getLsbD mode.pmpBit =
        (fill.leaf.pagePmp (s.machine.cpus h)).getLsbD mode.pmpBit

/-- The condition on an access. When it is bare, the current privilege and that
of the access get the same answer from PMP; when it is translated, each of its
pages agrees. Nothing is asked of addresses that fault before any lookup. -/
def ChecksAgree (mc : EmuConfig δ) (h : Nat) (s : TlbRun δ) (vaddr : U64) (sizeExp : Fin 4)
    (mode : RvAccess) : Prop :=
  let cpu := s.machine.cpus h
  let size := bit sizeExp.val
  if rvIsBare cpu mode = true then
    (rvPmpCheck cpu vaddr size (rvEffPriv cpu mode == 3)).getLsbD mode.pmpBit =
      (rvPmpCheck cpu vaddr size (cpu.privilege == 3)).getLsbD mode.pmpBit
  else if vaddr / rvCpuPageSize = (vaddr + size - 1) / rvCpuPageSize then
    rvIsCanonVaddr cpu vaddr = true → PageAgrees mc h s vaddr size mode
  else
    rvIsCanonVaddr cpu vaddr = true → rvIsCanonVaddr cpu (rvNextPage vaddr) = true →
      FillsInRange mc h s (.lookup vaddr mode) ∧
      PageAgrees mc h s vaddr (rvNextPage vaddr - vaddr) mode ∧
      PageAgrees mc h (s.lookup mc h vaddr mode) (rvNextPage vaddr)
        (vaddr + size - rvNextPage vaddr) mode

/-- If the access succeeds, PMP grants each transfer it makes the permission that
the mode needs, at the privilege of the access. -/
def AccessGranted (mc : EmuConfig δ) (h : Nat) (m : EmuMachine δ) (vaddr data : U64)
    (sizeExp : Fin 4) (mode : RvAccess) : Prop :=
  (rvAccessVirt mc m h vaddr data sizeExp mode).res = .ok →
    ∀ t ∈ (rvAccessVirt mc m h vaddr data sizeExp mode).touched,
      (rvPmpCheck (m.cpus h) t.addr t.len (rvEffPriv (m.cpus h) mode == 3)).getLsbD mode.pmpBit =
        true

/-! ### Lookups -/

section Lookup

variable {mc : EmuConfig δ} {h : Nat} {s : TlbRun δ} {vaddr : U64} {mode : RvAccess}

theorem rvPagingMiss_ok {m : EmuMachine δ} (ok : (rvPagingMiss mc m h vaddr mode).res = .ok) :
    (rvPagingRawLookup mc m h vaddr mode).res = .ok ∧
      (rvPagingMiss mc m h vaddr mode).entry = (rvPagingRawLookup mc m h vaddr mode).entry := by
  simp only [rvPagingMiss] at ok ⊢
  split at ok
  · next failed => exact absurd ok failed
  next walked =>
  rw [if_neg walked]
  refine ⟨not_not.mp walked, ?_⟩
  split <;> rfl

theorem rvPagingMiss_found {m : EmuMachine δ}
    (ok : (rvPagingRawLookup mc (rvTlbDropped m h vaddr mode) h vaddr mode).res = .ok) :
    ∃ leaf, lookupLeaf mc h m vaddr mode = some leaf ∧ WalkFound (m.cpus h) vaddr mode leaf
      (rvPagingRawLookup mc (rvTlbDropped m h vaddr mode) h vaddr mode).entry := by
  have frame := rvTlbDropped_frame m h vaddr mode
  obtain ⟨leaf, found, entry⟩ := rvWalk_ok ok
  rw [frame.csr] at found
  exact ⟨leaf, found, entry.frame frame⟩

theorem lookupFill_hit {slot : Nat} (hits : TlbHits (s.machine.cpus h) vaddr mode slot) :
    lookupFill mc h s vaddr mode = some (s.fills slot) := by
  rcases hits with ⟨col, scanned, rfl⟩
  simp only [lookupFill, scanned]

/-- A lookup that succeeds returns the page of its fill. -/
theorem lookup_keepsPage (slots : SlotsHold h (KeepsPage (s.machine.cpus h)) s)
    (ok : (rvPagingLookup mc s.machine h vaddr mode).res = .ok) :
    ∃ fill, lookupFill mc h s vaddr mode = some fill ∧
      KeepsPage (s.machine.cpus h) fill (rvPagingLookup mc s.machine h vaddr mode).entry := by
  by_cases hits : ∃ slot, TlbHits (s.machine.cpus h) vaddr mode slot
  · rcases hits with ⟨slot, hits⟩
    rw [rvPagingLookup_hit hits]
    refine ⟨s.fills slot, lookupFill_hit hits, ?_⟩
    rcases hits.isValid with ⟨row, col, rfl, bound, valid⟩
    exact slots row col bound valid
  · rw [rvPagingLookup_miss (not_exists.mp hits)] at ok ⊢
    obtain ⟨walked, returned⟩ := rvPagingMiss_ok ok
    rcases rvPagingMiss_found walked with ⟨leaf, found, entry⟩
    refine ⟨tlbFill (s.machine.cpus h) vaddr mode leaf, ?_, ?_⟩
    · cases scanned : rvTlbScan (s.machine.cpus h).tlb (rvTlbRow vaddr) vaddr
          ((rvSatpAsid (s.machine.cpus h)).setWidth 16) (rvSetfl mode) with
      | none => simp only [lookupFill, scanned, found, Option.map_some]
      | some probe =>
          cases probe with
          | hit col => exact absurd ⟨_, col, scanned, rfl⟩ hits
          | stale col => simp only [lookupFill, scanned, found, Option.map_some]
    · rw [returned]
      exact entry.keepsPage (rvFindLeaf_level found)

/-- On a page that agrees, PMP grants the bytes that the lookup leads to. -/
theorem PageAgrees.granted {len : U64} (agrees : PageAgrees mc h s vaddr len mode)
    (slots : SlotsHold h (KeepsPage (s.machine.cpus h)) s)
    (ok : (rvPagingLookup mc s.machine h vaddr mode).res = .ok) :
    (rvPmpCheck (s.machine.cpus h)
      (rvTranslate (rvPagingLookup mc s.machine h vaddr mode).entry vaddr) len false).getLsbD
        mode.pmpBit = true := by
  obtain ⟨fill, found, kept⟩ := lookup_keepsPage slots ok
  obtain ⟨permitted, same⟩ := agrees fill found
  have page : (fill.leaf.pagePmp (s.machine.cpus h)).getLsbD mode.pmpBit = true := by
    rcases permitted with kind | page
    · rw [(RvAccess.bits_of_kind kind).2, ← kept.pmp]
      exact kept.perms.granted.2
    · exact page
  have address : rvTranslate (rvPagingLookup mc s.machine h vaddr mode).entry vaddr =
      fill.paddr vaddr := by
    rw [rvTranslate, kept.page, TlbFill.paddr]
  rw [address, same, page]

theorem lookup_keepsPages {cpu : RvCpu} (same : SamePmp cpu (s.machine.cpus h))
    (slots : SlotsHold h (KeepsPage cpu) s) :
    SlotsHold h (KeepsPage cpu) (s.lookup mc h vaddr mode) :=
  lookup_slots slots fun _ _ found walked =>
    (walked.keepsPage (rvFindLeaf_level found)).congr ⟨same.1.symm, same.2.symm⟩

end Lookup

/-! ### The boundary of two pages -/

/-- Where an access leaves its page, in lengths: `size0` bytes up to the boundary, and
`size1` after it. -/
structure CrossesAt (vaddr size : U64) (size0 size1 : Nat) : Prop where
  first : (rvNextPage vaddr - vaddr).toNat = size0
  second : (vaddr + size - rvNextPage vaddr).toNat = size1
  total : size0 + size1 = size.toNat
  pos0 : 0 < size0
  pos1 : 0 < size1
  offset : vaddr.toNat % 4096 + size0 = 4096

theorem crossesAt {vaddr size : U64} (pos : 0 < size.toNat) (small : size.toNat ≤ 8)
    (crosses : vaddr / rvCpuPageSize ≠ (vaddr + size - 1) / rvCpuPageSize) :
    ∃ size0 size1, CrossesAt vaddr size size0 size1 := by
  have page : rvCpuPageSize = 4096#64 := rfl
  have number (x : U64) : (x / 4096#64).toNat = x.toNat / 4096 := BitVec.toNat_udiv
  have apart : vaddr.toNat / 4096 ≠ (vaddr + size - 1).toNat / 4096 := by
    intro same
    apply crosses
    apply BitVec.eq_of_toNat_eq
    rw [page, number, number, same]
  have next : rvNextPage vaddr = (vaddr / 4096#64 + 1) * 4096#64 := rfl
  have quotient := number vaddr
  generalize vaddr / 4096#64 = q at quotient next
  have leaves : 4096 < vaddr.toNat % 4096 + size.toNat := by
    bv_omega
  refine ⟨4096 - vaddr.toNat % 4096, vaddr.toNat % 4096 + size.toNat - 4096, ?_⟩
  constructor
  · rw [next]
    bv_omega
  · rw [next]
    bv_omega
  · omega
  · omega
  · omega
  · omega

/-! ### Accesses -/

section Access

variable {mc : EmuConfig δ} {h : Nat} {s : TlbRun δ} {vaddr data : U64} {sizeExp : Fin 4}
  {mode : RvAccess}

/-- What PMP grants to a range of at most eight bytes it grants to each transfer
of some of them. -/
theorem PartOf.granted {cpu : RvCpu} {addr size : U64} {t : PhysTouch} {mMode : Bool} {b : Nat}
    (part : PartOf addr size t) (small : size.toNat ≤ 8)
    (whole : (rvPmpCheck cpu addr size mMode).getLsbD b = true) :
    (rvPmpCheck cpu t.addr t.len mMode).getLsbD b = true := by
  rcases part with ⟨k, start, pos, inside⟩
  rw [start]
  exact rvPmpCheck_part small pos inside whole

/-- The two parts of an access that leaves its page. -/
theorem twoPages_small {size : U64} (pos : 0 < size.toNat) (small : size.toNat ≤ 8)
    (crosses : vaddr / rvCpuPageSize ≠ (vaddr + size - 1) / rvCpuPageSize) :
    (rvNextPage vaddr - vaddr).toNat ≤ 8 ∧ (vaddr + size - rvNextPage vaddr).toNat ≤ 8 := by
  obtain ⟨size0, size1, boundary⟩ := crossesAt pos small crosses
  have total := boundary.total
  rw [boundary.first, boundary.second]
  constructor <;> omega

theorem rvIsBare_false {cpu : RvCpu} (paged : ¬rvIsBare cpu mode = true) :
    (rvEffPriv cpu mode == 3) = false := by
  simp only [rvIsBare, Bool.or_eq_true, not_or, Bool.not_eq_true] at paged
  exact paged.1

/-- On a bare access the privilege of the check is the one thing that can differ. -/
theorem accessGranted_bare {m : EmuMachine δ} (bare : rvIsBare (m.cpus h) mode = true)
    (same : (rvPmpCheck (m.cpus h) vaddr (bit sizeExp.val)
        (rvEffPriv (m.cpus h) mode == 3)).getLsbD mode.pmpBit =
      (rvPmpCheck (m.cpus h) vaddr (bit sizeExp.val)
        ((m.cpus h).privilege == 3)).getLsbD mode.pmpBit) :
    AccessGranted mc h m vaddr data sizeExp mode := by
  intro ok t member
  rw [rvAccessVirt, rvAccessVirtBy, if_pos bare] at ok member
  have small := (accessSize_small sizeExp).2
  apply (rvAccessPhys_parts m h vaddr data sizeExp false t member).granted small
  rw [same]
  by_contra denied
  have fault : doPmpCheck (m.cpus h) vaddr (bit sizeExp.val) mode = .accessFault := by
    rw [doPmpCheck, if_neg denied]
  simp only [rvAccessPhys, fault] at ok
  cases ok

theorem accessGranted_onePage (slots : SlotsHold h (KeepsPage (s.machine.cpus h)) s)
    (paged : ¬rvIsBare (s.machine.cpus h) mode = true)
    (inside : vaddr / rvCpuPageSize = (vaddr + bit sizeExp.val - 1) / rvCpuPageSize)
    (agrees : rvIsCanonVaddr (s.machine.cpus h) vaddr = true →
      PageAgrees mc h s vaddr (bit sizeExp.val) mode) :
    AccessGranted mc h s.machine vaddr data sizeExp mode := by
  intro ok t member
  have small := (accessSize_small sizeExp).2
  rw [rvIsBare_false paged]
  simp only [rvAccessVirt, rvAccessVirtBy, if_neg paged, inside, ne_eq, not_true_eq_false,
    if_false] at ok member
  split at ok
  · cases ok
  next canonical =>
  rw [if_neg canonical] at member
  split at ok
  · next failed => exact absurd ok failed
  next looked =>
  rw [if_neg looked] at member
  apply (rvAccessPhys_parts _ h _ data sizeExp true t member).granted small
  exact (agrees (by simpa using canonical)).granted slots (not_not.mp looked)

theorem rvAccessTwoPages_parts {m : EmuMachine δ} {size : U64} (result0 result1 : RvTlbEntry)
    (small0 : (rvNextPage vaddr - vaddr).toNat ≤ 8)
    (small1 : (vaddr + size - rvNextPage vaddr).toNat ≤ 8) :
    ∀ t ∈ (rvAccessTwoPages mc m h vaddr data size mode result0 result1).touched,
      PartOf (rvTranslate result0 vaddr) (rvNextPage vaddr - vaddr) t ∨
        PartOf (rvTranslate result1 (rvNextPage vaddr)) (vaddr + size - rvNextPage vaddr) t := by
  intro t member
  simp only [rvAccessTwoPages] at member
  split at member
  · exact Or.inl (rvAccessPhysPartial_parts m h _ data _ true small0 t member)
  · rcases List.mem_append.mp member with first | second
    · exact Or.inl (rvAccessPhysPartial_parts m h _ data _ true small0 t first)
    · exact Or.inr (rvAccessPhysPartial_parts _ h _ _ _ true small1 t second)

theorem accessGranted_twoPages (slots : SlotsHold h (KeepsPage (s.machine.cpus h)) s)
    (paged : ¬rvIsBare (s.machine.cpus h) mode = true)
    (crosses : vaddr / rvCpuPageSize ≠ (vaddr + bit sizeExp.val - 1) / rvCpuPageSize)
    (agree : rvIsCanonVaddr (s.machine.cpus h) vaddr = true →
      rvIsCanonVaddr (s.machine.cpus h) (rvNextPage vaddr) = true →
      PageAgrees mc h s vaddr (rvNextPage vaddr - vaddr) mode ∧
        PageAgrees mc h (s.lookup mc h vaddr mode) (rvNextPage vaddr)
          (vaddr + bit sizeExp.val - rvNextPage vaddr) mode) :
    AccessGranted mc h s.machine vaddr data sizeExp mode := by
  intro ok t member
  rcases accessSize_small sizeExp with ⟨pos, small⟩
  obtain ⟨small0, small1⟩ := twoPages_small pos small crosses
  rw [rvIsBare_false paged]
  simp only [rvAccessVirt, rvAccessVirtBy, if_neg paged, if_pos crosses,
    rvAccessVirtPageboundary] at ok member
  split at ok
  · cases ok
  next canonical =>
  rw [if_neg canonical] at member
  split at ok
  · cases ok
  next canonical1 =>
  rw [if_neg canonical1] at member
  split at ok
  · next failed => exact absurd ok failed
  next looked0 =>
  rw [if_neg looked0] at member
  split at ok
  · next failed => exact absurd ok failed
  next looked1 =>
  rw [if_neg looked1] at member
  obtain ⟨agrees0, agrees1⟩ := agree (by simpa using canonical) (by simpa using canonical1)
  have pmp : SamePmp (s.machine.cpus h) ((s.lookup mc h vaddr mode).machine.cpus h) :=
    ((rvPagingLookup_frame mc s.machine h vaddr mode).core h).samePmp
  have slots1 : SlotsHold h (KeepsPage ((s.lookup mc h vaddr mode).machine.cpus h))
      (s.lookup mc h vaddr mode) := by
    intro row col bound valid
    exact (lookup_keepsPages ⟨rfl, rfl⟩ slots row col bound valid).congr pmp
  rcases rvAccessTwoPages_parts _ _ small0 small1 t member with first | second
  · exact first.granted small0 (agrees0.granted slots (not_not.mp looked0))
  · rw [← pmp.check]
    exact second.granted small1 (agrees1.granted slots1 (not_not.mp looked1))

/-- An access whose checks agree is granted by PMP in every state where the slots
have the PMP bits that the registers have now. -/
theorem accessGranted_of_agree (slots : SlotsHold h (KeepsPage (s.machine.cpus h)) s)
    (agree : ChecksAgree mc h s vaddr sizeExp mode) :
    AccessGranted mc h s.machine vaddr data sizeExp mode := by
  simp only [ChecksAgree] at agree
  split at agree
  · next bare => exact accessGranted_bare bare agree
  next paged =>
  split at agree
  · next inside => exact accessGranted_onePage slots paged inside agree
  · next crosses =>
      exact accessGranted_twoPages slots paged crosses fun canonical canonical1 =>
        (agree canonical canonical1).2

end Access

/-! ### Runs -/

/-- The run leaves the PMP registers of hart `h` alone and stores every entry
inside the TLB. -/
def KeepsPmp (mc : EmuConfig δ) (h : Nat) (s : TlbRun δ) (e : TlbEvent δ) : Prop :=
  FillsInRange mc h s e ∧ ∀ next, e = .other next → SamePmp (s.machine.cpus h) (next.cpus h)

theorem keepsPages_step {mc : EmuConfig δ} {h : Nat} {cpu : RvCpu} (s : TlbRun δ) (e : TlbEvent δ)
    (inv : SlotsHold h (KeepsPage cpu) s ∧ SamePmp cpu (s.machine.cpus h))
    (kept : KeepsPmp mc h s e) :
    SlotsHold h (KeepsPage cpu) (tlbStep mc h s e) ∧
      SamePmp cpu ((tlbStep mc h s e).machine.cpus h) := by
  rcases inv with ⟨slots, same⟩
  have back : SamePmp (s.machine.cpus h) cpu := ⟨same.1.symm, same.2.symm⟩
  refine ⟨tlbStep_slots slots ?_, ?_⟩
  · intro vaddr mode leaf entry isLookup leafFound found
    subst isLookup
    exact (found.keepsPage (rvFindLeaf_level leafFound)).congr back
  · cases e with
    | lookup vaddr mode =>
        have pmp := ((rvPagingLookup_frame mc s.machine h vaddr mode).core h).samePmp
        exact ⟨pmp.1.trans same.1, pmp.2.trans same.2⟩
    | fence vaddr asid withVaddr withAsid =>
        have pmp := (rvInvalTlb_frame (s.machine.cpus h) vaddr asid withVaddr withAsid).samePmp
        simp only [tlbStep, EmuMachine.setCpu_same]
        exact ⟨pmp.1.trans same.1, pmp.2.trans same.2⟩
    | other next =>
        have pmp := kept.2 next rfl
        simp only [tlbStep, EmuMachine.setTlb, EmuMachine.setCpu_same]
        exact ⟨pmp.1.trans same.1, pmp.2.trans same.2⟩

/-- From an empty TLB, in every state reached while the PMP registers stay as they
are, an access whose checks agree is granted by PMP. -/
theorem accessGranted_run (mc : EmuConfig δ) (h : Nat) (start : TlbRun δ)
    (empty : (start.machine.cpus h).tlb.Empty) (events : List (TlbEvent δ))
    (kept : StepsMeet (tlbStep mc h) (KeepsPmp mc h) start events)
    (vaddr data : U64) (sizeExp : Fin 4) (mode : RvAccess)
    (agree : ChecksAgree mc h (run (tlbStep mc h) start events) vaddr sizeExp mode) :
    AccessGranted mc h (run (tlbStep mc h) start events).machine vaddr data sizeExp mode := by
  obtain ⟨slots, same⟩ := invariant_run (I := fun s : TlbRun δ =>
      SlotsHold h (KeepsPage (start.machine.cpus h)) s ∧
        SamePmp (start.machine.cpus h) (s.machine.cpus h))
    keepsPages_step ⟨slotsHold_empty empty, rfl, rfl⟩ kept
  apply accessGranted_of_agree _ agree
  intro row col bound valid
  exact (slots row col bound valid).congr same

theorem onePage_keepsPmp (pmp : U64) (flags : U8)
    (first : (rvPagingLookup (EmuConfig.ramOnly 0 0x1000 1) (onePageMachine pmp flags) 0 0
      .load).path = .filled 0) :
    KeepsPmp (EmuConfig.ramOnly 0 0x1000 1) 0
      ⟨onePageMachine pmp flags, fun _ => tlbFill RvCpu.zero 0 .load ⟨0, 0⟩⟩ (.lookup 0 .load) := by
  refine ⟨?_, fun next same => by cases same⟩
  intro slot path
  cases first.symm.trans path
  decide

/-- Loading twice from a page that PMP lets be loaded from. -/
theorem accessGranted_run_again :
    AccessGranted (EmuConfig.ramOnly 0 0x1000 1) 0
      (run (tlbStep (EmuConfig.ramOnly 0 0x1000 1) 0)
        ⟨onePageMachine 0x19 0xc7, fun _ => tlbFill RvCpu.zero 0 .load ⟨0, 0⟩⟩
        [.lookup 0 .load]).machine 0 0 3 .load :=
  accessGranted_run (EmuConfig.ramOnly 0 0x1000 1) 0
    ⟨onePageMachine 0x19 0xc7, fun _ => tlbFill RvCpu.zero 0 .load ⟨0, 0⟩⟩
    (fun _ _ _ => BitVec.getLsbD_zero) [.lookup 0 .load]
    ⟨onePage_keepsPmp 0x19 0xc7 (by decide +kernel), trivial⟩ 0 0 3 .load (by
      simp only [ChecksAgree]
      rw [if_neg (by decide +kernel), if_pos (by decide +kernel)]
      intro _ fill found
      have hit : TlbHits ((run (tlbStep (EmuConfig.ramOnly 0 0x1000 1) 0)
          ⟨onePageMachine 0x19 0xc7, fun _ => tlbFill RvCpu.zero 0 .load ⟨0, 0⟩⟩
          [.lookup 0 .load]).machine.cpus 0) 0 .load 0 := ⟨0, by decide +kernel, rfl⟩
      rw [lookupFill_hit hit] at found
      cases found
      exact ⟨Or.inl (by decide +kernel), by decide +kernel⟩)

/-- PMP lets the page be read only, but after a load from it a store to it is
served from the TLB and succeeds. -/
theorem accessGranted_bypassed :
    ¬∀ (mc : EmuConfig Unit) (h : Nat) (start : TlbRun Unit) (events : List (TlbEvent Unit)),
      (start.machine.cpus h).tlb.Empty →
        StepsMeet (tlbStep mc h) (KeepsPmp mc h) start events →
          ∀ vaddr data sizeExp mode,
            AccessGranted mc h (run (tlbStep mc h) start events).machine vaddr data sizeExp mode := by
  intro always
  have granted := always (EmuConfig.ramOnly 0 0x1000 1) 0
    ⟨onePageMachine 0x19 0xc7, fun _ => tlbFill RvCpu.zero 0 .load ⟨0, 0⟩⟩ [.lookup 0 .load]
    (fun _ _ _ => BitVec.getLsbD_zero) ⟨onePage_keepsPmp 0x19 0xc7 (by decide +kernel), trivial⟩
    0 0 3 .store (by decide +kernel) ⟨0, 8, true⟩ (by decide +kernel)
  exact absurd granted (by decide +kernel)

end Riscmulator
