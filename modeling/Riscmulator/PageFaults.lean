import Riscmulator.RawLookup

/-! The page faults of `rv_paging_raw_lookup` against those of the Sv39 algorithm,
where PMP is out of the way. -/

namespace Riscmulator

variable {δ : Type}

/-- PMP grants every access to the 56-bit physical address space. -/
def PmpOpen (cpu : RvCpu) : Prop :=
  ∀ (paddr size : U64) (mode : RvAccess), 0 < size.toNat → paddr.toNat + size.toNat ≤ 2 ^ 56 →
    (rvPmpCheck cpu paddr size false).getLsbD mode.pmpBit = true

/-! ### Physical addresses -/

theorem ppn_lt (pte : U64) : (Sv39.ppn pte).toNat < 2 ^ 44 := by
  rw [Sv39.ppn, BitVec.toNat_and]
  exact lt_of_le_of_lt Nat.and_le_right (by decide)

theorem satpRoot_lt (cpu : RvCpu) : (satpRoot cpu).toNat < 2 ^ 44 := by
  rw [satpRoot, BitVec.toNat_and]
  exact lt_of_le_of_lt Nat.and_le_right (by decide)

theorem entryAddr_fits {base : U64} (small : base.toNat < 2 ^ 44) (vaddr : U64) (level : Nat) :
    (Sv39.entryAddr base vaddr level).toNat + 8 ≤ 2 ^ 56 := by
  have field : (Sv39.vpn vaddr level).toNat ≤ 511 := by
    rw [Sv39.vpn, BitVec.toNat_and]
    exact Nat.and_le_right
  rw [Sv39.entryAddr]
  generalize Sv39.vpn vaddr level = index at field
  bv_omega

theorem page_fits {base : U64} (small : base.toNat < 2 ^ 44) :
    (base * rvCpuPageSize).toNat + rvCpuPageSize.toNat ≤ 2 ^ 56 := by
  have size : rvCpuPageSize = 4096#64 := rfl
  rw [size]
  bv_omega

/-! ### The code's decision -/

/-- What the code asks of a leaf: alignment, the U bit, and the bit of the mode. -/
structure LeafGranted (cpu : RvCpu) (mode : RvAccess) (pte : U64) (level : Nat) : Prop where
  aligned : Sv39.aligned pte level = true
  level : LevelAllows cpu.isUser cpu.sum (pte.getLsbD rvPteUBit)
  permitted : pte.getLsbD mode.pteBit = true

theorem LeafGranted.isLeaf {cpu : RvCpu} {mode : RvAccess} {pte : U64} {level : Nat}
    (granted : LeafGranted cpu mode pte level) : Sv39.isLeaf pte = true :=
  isLeaf_of_permitted granted.permitted

/-- With its PMP bit set, the check of an entry ends in no access fault. -/
theorem checkAccess_open {cpu : RvCpu} {entry : RvTlbEntry} {mode : RvAccess}
    (pmp : entry.vma.getLsbD mode.pmpBit = true) :
    checkAccess cpu entry mode = .ok ∨ checkAccess cpu entry mode = .pageFault := by
  simp only [checkAccess, pmp]
  split_ifs <;> simp_all

section Walk

variable {mc : EmuConfig δ} {m : EmuMachine δ} {h : Nat} {vaddr base addr pte : U64}
  {mode : RvAccess} {level : Nat} {ptePmp : U8}

theorem rvLeafEntry_open (pmp : PmpOpen (m.cpus h)) :
    (rvLeafEntry (m.cpus h) vaddr pte level).vma.getLsbD mode.pmpBit = true := by
  rw [rvLeafEntry_vma _ _ _ _ (lt_trans mode.pmpBit_lt (by decide)), rvPtePpn_eq]
  exact pmp _ _ mode (by decide) (page_fits (ppn_lt pte))

theorem leafGranted_iff (pmp : PmpOpen (m.cpus h)) (vaddr : U64) :
    LeafGranted (m.cpus h) mode pte level ↔
      (rvPtePpn pte &&& (bit (9 * level) - 1)) = 0 ∧
        checkAccess (m.cpus h) (rvLeafEntry (m.cpus h) vaddr pte level) mode = .ok := by
  rw [checkAccess_ok_iff, rvLeafEntry_pte _ _ _ _ (by decide),
    rvLeafEntry_pte _ _ _ _ (lt_trans mode.pteBit_lt (by decide)), rvPtePpn_eq]
  constructor
  · intro granted
    exact ⟨of_decide_eq_true granted.aligned, granted.level, granted.permitted,
      rvLeafEntry_open pmp⟩
  · intro found
    exact ⟨decide_eq_true found.1, found.2.1, found.2.2.1⟩

/-- Where PMP is open, a walk at its leaf succeeds exactly if the leaf is granted,
and raises a page fault otherwise. -/
theorem rvWalkLeaf_open (pmp : PmpOpen (m.cpus h)) (inRam : ramHoldsRange mc addr 8 = true)
    (writable : ptePmp.getLsbD rvPmpcfgWBit = true) (vaddr pte : U64) (mode : RvAccess)
    (level : Nat) :
    (LeafGranted (m.cpus h) mode pte level ∧
        (rvWalkLeaf mc m h vaddr mode level addr pte ptePmp).res = .ok) ∨
      (¬LeafGranted (m.cpus h) mode pte level ∧
        (rvWalkLeaf mc m h vaddr mode level addr pte ptePmp).res = .pageFault) := by
  rw [leafGranted_iff pmp vaddr]
  simp only [rvWalkLeaf, writable, rvAccessPhys_store_ok inRam]
  split
  · next misaligned => exact Or.inr ⟨fun granted => misaligned granted.1, rfl⟩
  next start =>
  split
  · next denied =>
      refine Or.inr ⟨fun granted => denied granted.2, ?_⟩
      exact (checkAccess_open (rvLeafEntry_open pmp)).resolve_left denied
  next checked =>
  refine Or.inl ⟨⟨not_not.mp start, not_not.mp checked⟩, ?_⟩
  split <;> rfl

/-- Where PMP is open, a walk succeeds exactly if its path ends in a leaf that is
granted, and raises a page fault otherwise. -/
theorem rvWalk_open (pmp : PmpOpen (m.cpus h)) (inRam : EntriesInRam mc m.ram vaddr level base)
    (small : base.toNat < 2 ^ 44) (mode : RvAccess) :
    ((∃ pointers last addr,
          Sv39.LeafPath (ramTable mc m.ram) vaddr level base pointers last addr ∧
            LeafGranted (m.cpus h) mode (ramTable mc m.ram addr) last) ∧
        (rvWalk mc h vaddr mode level m base).res = .ok) ∨
      ((¬∃ pointers last addr,
          Sv39.LeafPath (ramTable mc m.ram) vaddr level base pointers last addr ∧
            LeafGranted (m.cpus h) mode (ramTable mc m.ram addr) last) ∧
        (rvWalk mc h vaddr mode level m base).res = .pageFault) := by
  induction level generalizing base with
  | zero =>
      exact Or.inr ⟨Sv39.exists_leafPath_zero, rfl⟩
  | succ level ih =>
      have fits := entryAddr_fits small vaddr level
      have readable : (rvPmpCheck (m.cpus h) (Sv39.entryAddr base vaddr level) 8 false).getLsbD
          rvPmpcfgRBit = true := pmp _ _ .load (by decide) fits
      have writable : (rvPmpCheck (m.cpus h) (Sv39.entryAddr base vaddr level) 8 false).getLsbD
          rvPmpcfgWBit = true := pmp _ _ .store (by decide) fits
      rw [rvWalk_succ inRam.first]
      simp only [readable, Bool.not_true, Bool.false_eq_true, if_false]
      by_cases points :
          Sv39.isPointer (ramTable mc m.ram (Sv39.entryAddr base vaddr level)) = true
      · obtain ⟨valid, pointer⟩ := (isPointer_iff _).mp points
        rw [Sv39.exists_leafPath_next points, if_neg (by simp [valid]), if_neg pointer]
        exact ih (inRam.next points) (ppn_lt _)
      rw [Bool.not_eq_true] at points
      rw [Sv39.exists_leafPath_stop points]
      split
      · next absent =>
          refine Or.inr ⟨fun found => ?_, rfl⟩
          have valid : (ramTable mc m.ram (Sv39.entryAddr base vaddr level)).getLsbD rvPteVBit =
              true := found.1.1
          rw [valid] at absent
          cases absent
      next present =>
      have valid : (ramTable mc m.ram (Sv39.entryAddr base vaddr level)).getLsbD rvPteVBit =
          true := by
        simpa using present
      split
      · rcases rvWalkLeaf_open pmp inRam.first writable vaddr
          (ramTable mc m.ram (Sv39.entryAddr base vaddr level)) mode level
          with ⟨granted, ok⟩ | ⟨denied, fault⟩
        · exact Or.inl ⟨⟨⟨valid, granted.isLeaf⟩, granted⟩, ok⟩
        · exact Or.inr ⟨fun found => denied found.2, fault⟩
      · next pointer =>
          rw [(isPointer_iff _).mpr ⟨valid, pointer⟩] at points
          cases points

end Walk

/-! ### The decisions compared -/

def RvAccess.sv39Kind : RvAccess → Sv39.AccessKind
  | .insn => .fetch
  | .load => .load
  | .store | .amo => .store

/-- The core as the Sv39 algorithm sees it: its memory privilege, SUM and MXR. -/
def RvCpu.accessor (cpu : RvCpu) : Sv39.Accessor where
  user := cpu.isUser
  sum := cpu.sum
  mxr := cpu.csr.mstatus.getLsbD rvStatusMxrBit

/-- A lookup raises a page fault exactly when the Sv39 algorithm does. -/
def FaultsRight (mc : EmuConfig δ) (m : EmuMachine δ) (h : Nat) (vaddr : U64) (mode : RvAccess) :
    Prop :=
  (rvPagingRawLookup mc m h vaddr mode).res = .pageFault ↔
    Sv39.faults (ramTable mc m.ram) (m.cpus h).accessor mode.sv39Kind vaddr 3
      (satpRoot (m.cpus h)) = true

/-- The condition on a leaf that is aligned and whose U bit the code allows. If it has
the bit of the mode, then nothing reserved is set in it or in the pointers before
it, and no supervisor fetches from a user page. Else it is not made readable by
MXR, or something reserved is set. -/
def LeafAgrees (cpu : RvCpu) (mode : RvAccess) (pointers : List U64) (pte : U64) (level : Nat) :
    Prop :=
  Sv39.aligned pte level = true → LevelAllows cpu.isUser cpu.sum (pte.getLsbD rvPteUBit) →
    if pte.getLsbD mode.pteBit then
      (pointers.all Sv39.plain && !Sv39.reservedEntry pte) = true ∧
        ¬(mode = .insn ∧ cpu.isUser = false ∧ pte.getLsbD rvPteUBit = true)
    else
      mode = .load → cpu.accessor.mxr = true → pte.getLsbD rvPteXBit = true →
        (pointers.all Sv39.plain && !Sv39.reservedEntry pte) = false

theorem levelGrants_iff (cpu : RvCpu) (mode : RvAccess) (pte : U64) :
    Sv39.levelGrants cpu.accessor mode.sv39Kind pte = true ↔
      LevelAllows cpu.isUser cpu.sum (pte.getLsbD rvPteUBit) ∧
        ¬(mode = .insn ∧ cpu.isUser = false ∧ pte.getLsbD rvPteUBit = true) := by
  simp only [Sv39.levelGrants, LevelAllows, RvCpu.accessor, rvPteUBit]
  by_cases user : cpu.isUser = true
  · simp [user]
  · by_cases page : pte.getLsbD 4 = true
    · cases mode <;> simp [user, page, RvAccess.sv39Kind]
    · simp only [user, page]
      simp

theorem kindGrants_iff (cpu : RvCpu) (mode : RvAccess) (pte : U64) :
    Sv39.kindGrants cpu.accessor mode.sv39Kind pte = true ↔
      pte.getLsbD mode.pteBit = true ∨
        (mode = .load ∧ cpu.accessor.mxr = true ∧ pte.getLsbD rvPteXBit = true) := by
  cases mode <;>
    simp [Sv39.kindGrants, RvAccess.sv39Kind, RvAccess.pteBit, rvPteXBit, rvPteRBit, rvPteWBit]

theorem leafAgrees_iff (cpu : RvCpu) (mode : RvAccess) (pointers : List U64) (pte : U64)
    (level : Nat) :
    LeafAgrees cpu mode pointers pte level ↔
      (LeafGranted cpu mode pte level ↔ pointers.all Sv39.plain = true ∧
        Sv39.leafGrants cpu.accessor mode.sv39Kind pte level = true) := by
  have granted : LeafGranted cpu mode pte level ↔ Sv39.aligned pte level = true ∧
      LevelAllows cpu.isUser cpu.sum (pte.getLsbD rvPteUBit) ∧
        pte.getLsbD mode.pteBit = true :=
    ⟨fun found => ⟨found.aligned, found.level, found.permitted⟩,
      fun found => ⟨found.1, found.2.1, found.2.2⟩⟩
  simp only [granted, LeafAgrees, Sv39.leafGrants, Bool.and_eq_true, levelGrants_iff,
    kindGrants_iff, Bool.not_eq_true', ← Bool.not_eq_true]
  by_cases aligned : Sv39.aligned pte level = true
  · by_cases allows : LevelAllows cpu.isUser cpu.sum (pte.getLsbD rvPteUBit)
    · by_cases permitted : pte.getLsbD mode.pteBit = true
      · simp only [aligned, allows, permitted, true_implies, true_and, and_true, if_true, true_or,
          true_iff]
        exact and_assoc
      · simp only [aligned, allows, permitted, true_implies, true_and, and_false, if_false,
          false_or, false_iff, Bool.false_eq_true]
        constructor
        · rintro closed ⟨clean, fresh, _, load, mxr, executable⟩
          exact closed load mxr executable ⟨clean, fresh⟩
        · rintro closed rfl mxr executable ⟨clean, fresh⟩
          have noFetch : ¬(RvAccess.load = .insn ∧ ¬cpu.isUser = true ∧
              pte.getLsbD rvPteUBit = true) := fun fetch => by cases fetch.1
          exact closed ⟨clean, fresh, noFetch, rfl, mxr, executable⟩
    · simp only [allows, false_implies, implies_true, false_and, and_false]
  · simp only [aligned, false_implies, false_and, and_false, Bool.false_eq_true]

/-- With the page tables in RAM and PMP open, a lookup raises a page fault exactly
when the Sv39 algorithm does if and only if the leaf on its path, should there
be one, meets the condition. -/
theorem faultsRight_iff (mc : EmuConfig δ) (m : EmuMachine δ) (h : Nat) (vaddr : U64)
    (mode : RvAccess) (inRam : TablesInRam mc m h vaddr) (pmp : PmpOpen (m.cpus h)) :
    FaultsRight mc m h vaddr mode ↔
      ∀ pointers level addr,
        Sv39.LeafPath (ramTable mc m.ram) vaddr 3 (satpRoot (m.cpus h)) pointers level addr →
          LeafAgrees (m.cpus h) mode pointers (ramTable mc m.ram addr) level := by
  have code : (rvPagingRawLookup mc m h vaddr mode).res ≠ .pageFault ↔
      ∃ pointers level addr,
        Sv39.LeafPath (ramTable mc m.ram) vaddr 3 (satpRoot (m.cpus h)) pointers level addr ∧
          LeafGranted (m.cpus h) mode (ramTable mc m.ram addr) level := by
    rcases rvWalk_open pmp inRam (satpRoot_lt (m.cpus h)) mode with
      ⟨found, ok⟩ | ⟨none, fault⟩
    · have result : (rvPagingRawLookup mc m h vaddr mode).res = .ok := ok
      rw [result]
      exact iff_of_true (by decide) found
    · have result : (rvPagingRawLookup mc m h vaddr mode).res = .pageFault := fault
      rw [result]
      exact iff_of_false (not_not.mpr rfl) none
  calc
    _ ↔ ((rvPagingRawLookup mc m h vaddr mode).res ≠ .pageFault ↔
        Sv39.faults (ramTable mc m.ram) (m.cpus h).accessor mode.sv39Kind vaddr 3
          (satpRoot (m.cpus h)) = false) := by
      rw [FaultsRight, ← Bool.not_eq_true]
      exact not_iff_not.symm
    _ ↔ _ := by
      rw [code, Sv39.faults_false_iff, Sv39.leafPath_agree]
      simp only [leafAgrees_iff]

/-! ### One page -/

theorem pmpaddrMatch_all (paddr : U64) : pmpaddrMatch paddr 0xffffffffffffffff = true := by
  simp [pmpaddrMatch]

theorem onePage_pmpOpen (flags : U8) : PmpOpen ((onePageMachine 0x1f flags).cpus 0) := by
  have core : (onePageMachine 0x1f flags).cpus 0 = (onePageMachine 0x1f 0).cpus 0 := rfl
  rw [core]
  intro paddr size mode _ _
  have covers : ∀ paddr, pmpaddrMatch paddr (((onePageMachine 0x1f 0).cpus 0).csr.pmpaddr 0) =
      true := pmpaddrMatch_all
  have applies : rvPmpApplies ((onePageMachine 0x1f 0).cpus 0) false 0 = true := by decide +kernel
  have first : rvPmpEntry ((onePageMachine 0x1f 0).cpus 0) paddr (paddr + size - 1) false 0 =
      some (((onePageMachine 0x1f 0).cpus 0).csr.pmpcfgUnpacked 0 &&& 7) := by
    simp only [rvPmpEntry, applies, covers]
    rfl
  have check : rvPmpCheck ((onePageMachine 0x1f 0).cpus 0) paddr size false =
      ((onePageMachine 0x1f 0).cpus 0).csr.pmpcfgUnpacked 0 &&& 7 := by
    rw [rvPmpCheck, List.finRange_succ, List.findSome?_cons, first]
    rfl
  rw [check]
  cases mode <;> decide +kernel

/-- A load from a readable page. -/
theorem faultsRight_iff_load :
    FaultsRight (EmuConfig.ramOnly 0 0x1000 1) (onePageMachine 0x1f 0xc3) 0 0 .load :=
  (faultsRight_iff (EmuConfig.ramOnly 0 0x1000 1) (onePageMachine 0x1f 0xc3) 0 0 .load
    (entriesInRam_leaf (by decide +kernel) (by decide +kernel)) (onePage_pmpOpen 0xc3)).mpr (by
      intro pointers level addr path
      obtain ⟨rfl, rfl, rfl⟩ := path.leads.stops (by decide +kernel)
      intro _ _
      rw [if_pos (by decide +kernel)]
      exact ⟨by decide +kernel, fun found => by cases found.1⟩)

/-- A store to a page with W and without R, an encoding that is reserved. -/
theorem faultsRight_writeOnly :
    ¬∀ (mc : EmuConfig Unit) (m : EmuMachine Unit) (h : Nat) (vaddr : U64) (mode : RvAccess),
      rvIsCanonVaddr (m.cpus h) vaddr = true → (m.cpus h).memPrivilege ≤ 1 →
        TablesInRam mc m h vaddr → PmpOpen (m.cpus h) → FaultsRight mc m h vaddr mode := by
  intro always
  have right := always (EmuConfig.ramOnly 0 0x1000 1) (onePageMachine 0x1f 0xc5) 0 0 .store
    (by decide +kernel) (by decide) (entriesInRam_leaf (by decide +kernel) (by decide +kernel))
    (onePage_pmpOpen 0xc5)
  have faults := right.mpr (by decide +kernel)
  exact absurd faults (by decide +kernel)

end Riscmulator
