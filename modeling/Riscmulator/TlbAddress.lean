import Riscmulator.PageTables

/-! The page a TLB hit returns, against the Sv39 walk of the address looked up. -/

namespace Riscmulator

open Transition

variable {δ : Type}

/-! ### The entry a walk builds -/

theorem rvTlbVpnMask_bits : ∀ i < 64, rvTlbVpnMask.getLsbD i = decide (12 ≤ i ∧ i < 38) := by decide

theorem vpnTag_eq_iff (x y : U64) :
    x &&& rvTlbVpnMask = y &&& rvTlbVpnMask ↔
      ∀ i, 12 ≤ i → i < 38 → x.getLsbD i = y.getLsbD i := by
  constructor
  · intro same i above below
    have bits := congrArg (fun tag => tag.getLsbD i) same
    have inside : rvTlbVpnMask.getLsbD i = true := by
      rw [rvTlbVpnMask_bits i (by omega)]
      exact decide_eq_true ⟨above, below⟩
    simpa [BitVec.getLsbD_and, inside] using bits
  · intro same
    apply BitVec.eq_of_getLsbD_eq
    intro i word
    rw [BitVec.getLsbD_and, BitVec.getLsbD_and, rvTlbVpnMask_bits i word]
    by_cases inside : 12 ≤ i ∧ i < 38
    · rw [same i inside.1 inside.2]
    · simp [inside]

theorem rvLeafEntry_tag (cpu : RvCpu) (vaddr pte : U64) (level : Nat) :
    (rvLeafEntry cpu vaddr pte level).vma &&& rvTlbVpnMask = vaddr &&& rvTlbVpnMask := by
  rw [vpnTag_eq_iff]
  intro i above below
  have asid : i < rvTlbAsidBaseBit := lt_trans below (by decide)
  have word : i < 64 := lt_trans below (by decide)
  have page : rvTlbVpnMask.getLsbD i = true := by
    rw [rvTlbVpnMask_bits i word]
    exact decide_eq_true ⟨above, below⟩
  have pmp : ∀ bits : U8, bits.getLsbD i = false := fun bits =>
    BitVec.getLsbD_of_ge bits i (by omega)
  simp only [rvLeafEntry, BitVec.getLsbD_or, BitVec.getLsbD_and, BitVec.getLsbD_shiftLeft, page, asid,
    BitVec.getLsbD_setWidth, pmp, decide_true, Bool.not_true, Bool.and_false, Bool.false_and,
    Bool.and_true, Bool.false_or, Bool.or_false]

theorem getLsbD_ppn (pte : U64) (i : Nat) :
    (Sv39.ppn pte).getLsbD i = (pte.getLsbD (10 + i) && decide (i < 44)) := by
  have mask : (0xfffffffffff : U64) = (1#64 <<< 44) - 1#64 := by decide
  rw [Sv39.ppn, mask, BitVec.getLsbD_and, BitVec.getLsbD_ushiftRight,
    BitField.getLsbD_lowMask (by decide)]

/-- The page number in the entry of a leaf: that of the leaf, and below its level
that of the address. -/
theorem rvLeafEntry_ppn (cpu : RvCpu) (vaddr : U64) (leaf : Leaf) (low : leaf.level < 3) {set : U64}
    (flags : ∀ i, i ≠ 6 → i ≠ 7 → set.getLsbD i = false) :
    rvPtePpn ((rvLeafEntry cpu vaddr leaf.pte leaf.level).pte ||| set) =
      rvPtePpn leaf.pte ||| ((vaddr >>> rvCpuPageSizeExp) &&& leaf.offsetMask) := by
  have small : 9 * leaf.level < 64 := by omega
  rw [rvPtePpn_eq, rvPtePpn_eq]
  apply BitVec.eq_of_getLsbD_eq
  intro i word
  have quiet : set.getLsbD (10 + i) = false := flags _ (by omega) (by omega)
  have mask : leaf.offsetMask.getLsbD i = decide (i < 9 * leaf.level) :=
    BitField.getLsbD_lowMask small i
  have position : 10 + i - rvPtePpnBaseBit = i := Nat.add_sub_cancel_left 10 i
  have field : (rvLeafEntry cpu vaddr leaf.pte leaf.level).pte =
      leaf.pte ||| (((vaddr >>> rvCpuPageSizeExp) &&& leaf.offsetMask) <<< rvPtePpnBaseBit) := rfl
  rw [field, BitVec.getLsbD_or, getLsbD_ppn, getLsbD_ppn, BitVec.getLsbD_or, BitVec.getLsbD_or, quiet,
    BitVec.getLsbD_shiftLeft, position, BitVec.getLsbD_and, mask]
  have above : ¬10 + i < rvPtePpnBaseBit := by simp [rvPtePpnBaseBit]
  by_cases inside : i < 9 * leaf.level
  · have ppn : i < 44 := by omega
    have entry : 10 + i < 64 := by omega
    simp [inside, ppn, entry, above]
  · simp [inside]

/-- The page number in the entry that a successful walk returns. -/
theorem WalkFound.ppn {cpu : RvCpu} {vaddr : U64} {mode : RvAccess} {leaf : Leaf}
    {entry : RvTlbEntry} (found : WalkFound cpu vaddr mode leaf entry) (low : leaf.level < 3) :
    rvPtePpn entry.pte =
      rvPtePpn leaf.pte ||| ((vaddr >>> rvCpuPageSizeExp) &&& leaf.offsetMask) := by
  rcases found.pte with ⟨set, kind, entryPte⟩
  have flags : ∀ i, i ≠ 6 → i ≠ 7 → set.getLsbD i = false := by
    rcases kind with rfl | rfl
    · exact fun _ _ _ => BitVec.getLsbD_zero
    · exact rvSetfl_bits mode
  rw [entryPte, rvLeafEntry_ppn _ _ _ low flags]

/-! ### What a slot keeps of its page -/

/-- The tag of the entry is that of the address it was filled for, and its page
is the one that the table gives to that address. -/
structure MapsRight (table : U64 → U64) (root : U64) (fill : TlbFill) (entry : RvTlbEntry) :
    Prop where
  tag : entry.vma &&& rvTlbVpnMask = fill.vaddr &&& rvTlbVpnMask
  page : Sv39.translate table root fill.vaddr = some (rvPtePpn entry.pte)

def satpRoot (cpu : RvCpu) : U64 := cpu.csr.satp &&& rvSatpPpnMask

section Lookup

variable {mc : EmuConfig δ} {T : TableSet mc} {table : U64 → U64} {h : Nat} {m : EmuMachine δ}
  {vaddr : U64} {mode : RvAccess}

/-- An entry with the bit that a mode needs is a leaf. -/
theorem isLeaf_of_permitted {pte : U64} (permitted : pte.getLsbD mode.pteBit = true) :
    Sv39.isLeaf pte = true := by
  simp only [Sv39.isLeaf, Bool.or_eq_true]
  cases mode with
  | insn => exact Or.inr permitted
  | load => exact Or.inl (Or.inl permitted)
  | amo => exact Or.inl (Or.inr permitted)
  | store => exact Or.inl (Or.inr permitted)

theorem WalkFound.isLeaf {cpu : RvCpu} {leaf : Leaf} {entry : RvTlbEntry}
    (found : WalkFound cpu vaddr mode leaf entry) : Sv39.isLeaf leaf.pte = true := by
  rcases (checkAccess_ok_iff _ _ _).mp found.checked with ⟨_, permitted, _⟩
  rw [rvLeafEntry_pte _ _ _ _ (lt_trans mode.pteBit_lt (by decide))] at permitted
  exact isLeaf_of_permitted permitted

theorem rvTlbDropped_ram : (rvTlbDropped m h vaddr mode).ram = m.ram := by
  unfold rvTlbDropped
  split <;> rfl

/-- On fixed tables a walk that succeeds maps its address right. -/
theorem WalkFound.mapsRight {leaf : Leaf} {entry : RvTlbEntry}
    (found : WalkFound (m.cpus h) vaddr mode leaf entry) (fixed : TablesFixed T table m.ram)
    (within : Sv39.Within T.mem table vaddr 3 (satpRoot (m.cpus h)))
    (leafFound : lookupLeaf mc h m vaddr mode = some leaf) :
    MapsRight table (satpRoot (m.cpus h)) (tlbFill (m.cpus h) vaddr mode leaf) entry := by
  have dropped : TablesFixed T table (rvTlbDropped m h vaddr mode).ram := by
    rw [rvTlbDropped_ram]
    exact fixed
  obtain ⟨pte, walked, same⟩ := rvFindLeaf_walk dropped within leafFound found.isLeaf found.aligned
  have start : Sv39.ppn pte &&& Sv39.offsetMask leaf.level = 0 := by
    rw [← same.ppn, ← rvPtePpn_eq]
    exact found.aligned
  have walk : Sv39.walk table vaddr 3 (satpRoot (m.cpus h)) = some (pte, leaf.level) := walked
  refine ⟨?_, ?_⟩
  · rw [found.vma]
    exact rvLeafEntry_tag _ _ _ _
  · calc
      Sv39.translate table (satpRoot (m.cpus h)) vaddr =
          some (Sv39.target vaddr (pte, leaf.level)) :=
        congrArg (Option.map (Sv39.target vaddr)) walk
      _ = some (Sv39.ppn pte ||| ((vaddr >>> 12) &&& Sv39.offsetMask leaf.level)) := by
        rw [Sv39.target_aligned vaddr start]
      _ = some (rvPtePpn leaf.pte ||| ((vaddr >>> rvCpuPageSizeExp) &&& leaf.offsetMask)) := by
        rw [rvPtePpn_eq, same.ppn]
        rfl
      _ = some (rvPtePpn entry.pte) := by
        rw [found.ppn (rvFindLeaf_level leafFound)]

theorem rvPagingLookup_tables (fixed : TablesFixed T table m.ram)
    (within : Sv39.Within T.mem table vaddr 3 (satpRoot (m.cpus h))) :
    TablesFixed T table (rvPagingLookup mc m h vaddr mode).machine.ram := by
  by_cases hits : ∃ slot, TlbHits (m.cpus h) vaddr mode slot
  · rcases hits with ⟨slot, hits⟩
    rw [rvPagingLookup_hit hits]
    exact fixed
  · have dropped : TablesFixed T table (rvTlbDropped m h vaddr mode).ram := by
      rw [rvTlbDropped_ram]
      exact fixed
    have root : satpRoot ((rvTlbDropped m h vaddr mode).cpus h) = satpRoot (m.cpus h) := by
      rw [satpRoot, satpRoot, (rvTlbDropped_frame m h vaddr mode).csr]
    rw [← root] at within
    have walked : TablesFixed T table
        (rvPagingRawLookup mc (rvTlbDropped m h vaddr mode) h vaddr mode).machine.ram :=
      rvWalk_tables dropped within
    rw [rvPagingLookup_miss (not_exists.mp hits)]
    simp only [rvPagingMiss]
    split_ifs <;> exact walked

end Lookup

/-! ### Runs -/

/-- What a run on fixed page tables and one `satp` is made of: lookups of canonical
addresses whose tables are in `T`, fences, and changes that keep `satp` and the
tables. -/
def OnFixedTables (mc : EmuConfig δ) (T : TableSet mc) (table : U64 → U64) (h : Nat)
    (s : TlbRun δ) : TlbEvent δ → Prop
  | .lookup vaddr mode =>
      rvIsCanonVaddr (s.machine.cpus h) vaddr = true ∧
        Sv39.Within T.mem table vaddr 3 (satpRoot (s.machine.cpus h)) ∧
          FillsInRange mc h s (.lookup vaddr mode)
  | .fence _ _ _ _ => True
  | .other next =>
      (next.cpus h).csr.satp = (s.machine.cpus h).csr.satp ∧ ∀ paddr, T.mem paddr →
        Sv39.SameEntry (ramTable mc next.ram paddr) (ramTable mc s.machine.ram paddr)

structure AddressInv (mc : EmuConfig δ) (T : TableSet mc) (table : U64 → U64) (root : U64) (h : Nat)
    (s : TlbRun δ) : Prop where
  slots : SlotsHold h (MapsRight table root) s
  tables : TablesFixed T table s.machine.ram
  satp : satpRoot (s.machine.cpus h) = root

/-- If the lookup is served from the TLB, the page it returns is the one that the
table gives to the address. -/
def HitMapsRight (mc : EmuConfig δ) (table : U64 → U64) (h : Nat) (s : TlbRun δ) (vaddr : U64)
    (mode : RvAccess) : Prop :=
  ∀ slot, (rvPagingLookup mc s.machine h vaddr mode).path = .hit slot →
    Sv39.translate table (satpRoot (s.machine.cpus h)) vaddr =
      some (rvPtePpn (rvPagingLookup mc s.machine h vaddr mode).entry.pte)

section Runs

variable {mc : EmuConfig δ} {T : TableSet mc} {table : U64 → U64} {root : U64} {h : Nat}

theorem addressInv_step (s : TlbRun δ) (e : TlbEvent δ) (inv : AddressInv mc T table root h s)
    (fixed : OnFixedTables mc T table h s e) : AddressInv mc T table root h (tlbStep mc h s e) := by
  rcases inv with ⟨slots, tables, rfl⟩
  refine ⟨tlbStep_slots slots ?_, ?_, ?_⟩
  · intro vaddr mode leaf entry isLookup leafFound found
    subst isLookup
    exact found.mapsRight tables fixed.2.1 leafFound
  · cases e with
    | lookup vaddr mode => exact rvPagingLookup_tables tables fixed.2.1
    | fence vaddr asid withVaddr withAsid => exact tables
    | other next => exact fun paddr mem => (fixed.2 paddr mem).trans (tables paddr mem)
  · cases e with
    | lookup vaddr mode =>
        have frame := (rvPagingLookup_frame mc s.machine h vaddr mode).core h
        simp only [tlbStep, TlbRun.lookup, satpRoot, frame.csr]
    | fence vaddr asid withVaddr withAsid =>
        have frame := rvInvalTlb_frame (s.machine.cpus h) vaddr asid withVaddr withAsid
        simp only [tlbStep, EmuMachine.setCpu_same, satpRoot, frame.csr]
    | other next =>
        simp only [tlbStep, EmuMachine.setTlb, EmuMachine.setCpu_same, satpRoot]
        rw [fixed.1]

/-- The low and the high half of the address space differ in bit 38, which the
tag leaves out. -/
theorem samePage_of_tag {vaddr vaddr' : U64}
    (tag : vaddr &&& rvTlbVpnMask = vaddr' &&& rvTlbVpnMask)
    (half : vaddr.getLsbD 38 = vaddr'.getLsbD 38) : Sv39.SamePage vaddr vaddr' := by
  intro i above below
  rcases Nat.lt_or_ge i 38 with inside | last
  · exact (vpnTag_eq_iff vaddr vaddr').mp tag i above inside
  · obtain rfl : i = 38 := by omega
    exact half

theorem TlbHits.tag {cpu : RvCpu} {vaddr : U64} {mode : RvAccess} {slot : Nat}
    (hits : TlbHits cpu vaddr mode slot) :
    (cpu.tlb.entries slot).vma &&& rvTlbVpnMask = vaddr &&& rvTlbVpnMask := by
  rcases hits with ⟨col, scanned, rfl⟩
  obtain ⟨_, _, matched⟩ := rvTlbScan_hit scanned
  simp only [rvTlbMatch, Bool.and_eq_true, beq_iff_eq] at matched
  exact matched.1

/-- From an empty TLB, on fixed page tables and one `satp`, a lookup that hits
returns the right page exactly if the slot was filled for an address of the same
half, or for one to which the table gives the same page. -/
theorem hitMapsRight_iff (mc : EmuConfig δ) (T : TableSet mc) (h : Nat) (start : TlbRun δ)
    (empty : (start.machine.cpus h).tlb.Empty) (events : List (TlbEvent δ))
    (fixed : StepsMeet (tlbStep mc h)
      (OnFixedTables mc T (ramTable mc start.machine.ram) h) start events)
    (vaddr : U64) (mode : RvAccess) :
    HitMapsRight mc (ramTable mc start.machine.ram) h (run (tlbStep mc h) start events) vaddr mode ↔
      ∀ slot, TlbHits ((run (tlbStep mc h) start events).machine.cpus h) vaddr mode slot →
        vaddr.getLsbD 38 = ((run (tlbStep mc h) start events).fills slot).vaddr.getLsbD 38 ∨
          Sv39.translate (ramTable mc start.machine.ram) (satpRoot (start.machine.cpus h)) vaddr =
            Sv39.translate (ramTable mc start.machine.ram) (satpRoot (start.machine.cpus h))
              ((run (tlbStep mc h) start events).fills slot).vaddr := by
  have inv : AddressInv mc T (ramTable mc start.machine.ram) (satpRoot (start.machine.cpus h)) h
      (run (tlbStep mc h) start events) :=
    invariant_run addressInv_step
      ⟨slotsHold_empty empty, fun _ _ => Sv39.SameEntry.refl _, rfl⟩ fixed
  generalize run (tlbStep mc h) start events = s at inv ⊢
  have right : ∀ slot, TlbHits (s.machine.cpus h) vaddr mode slot →
      MapsRight (ramTable mc start.machine.ram) (satpRoot (start.machine.cpus h)) (s.fills slot)
        ((s.machine.cpus h).tlb.entries slot) := by
    intro slot hits
    rcases hits.isValid with ⟨row, col, rfl, bound, valid⟩
    exact inv.slots row col bound valid
  constructor
  · intro maps slot hits
    have returned := maps slot (rvPagingLookup_path.mpr hits)
    rw [rvPagingLookup_hit hits, inv.satp] at returned
    apply Or.inr
    calc
      _ = some (rvPtePpn ((s.machine.cpus h).tlb.entries slot).pte) := returned
      _ = _ := (right slot hits).page.symm
  · intro same slot path
    have hits := rvPagingLookup_path.mp path
    rw [rvPagingLookup_hit hits, inv.satp, ← (right slot hits).page]
    rcases same slot hits with half | page
    · have tag : vaddr &&& rvTlbVpnMask = (s.fills slot).vaddr &&& rvTlbVpnMask := by
        calc
          _ = ((s.machine.cpus h).tlb.entries slot).vma &&& rvTlbVpnMask := hits.tag.symm
          _ = _ := (right slot hits).tag
      apply Sv39.SamePage.translate
      exact samePage_of_tag tag half
    · exact page

end Runs

/-! ### Two pages -/

/-- The machine of `onePageMachine` with a second entry in the root table, which
maps the first gigabyte of the high half to page `0x40000`. -/
def twoHalvesMachine : EmuMachine Unit :=
  { onePageMachine 0x1f 0xc3 with
    ram := fun i => if i = 0 ∨ i = 0x800 then 0xc3 else if i = 0x803 then 0x10 else 0 }

def twoHalvesTables : TableSet (EmuConfig.ramOnly 0 0x1000 1) where
  mem := fun paddr => paddr = 0 ∨ paddr = 0x800
  aligned := by
    intro paddr mem
    rcases mem with rfl | rfl <;> decide
  inRam := by
    intro paddr mem
    rcases mem with rfl | rfl <;> decide

theorem twoHalves_low : OnFixedTables (EmuConfig.ramOnly 0 0x1000 1) twoHalvesTables
    (ramTable (EmuConfig.ramOnly 0 0x1000 1) twoHalvesMachine.ram) 0
    ⟨twoHalvesMachine, fun _ => tlbFill RvCpu.zero 0 .load ⟨0, 0⟩⟩ (.lookup 0 .load) := by
  refine ⟨by decide +kernel, ⟨Or.inl (by decide +kernel), ?_⟩, ?_⟩
  · intro _ leaf
    exact absurd leaf (by decide +kernel)
  · intro slot path
    have filled : (rvPagingLookup (EmuConfig.ramOnly 0 0x1000 1) twoHalvesMachine 0 0 .load).path =
        .filled 0 := by decide +kernel
    cases filled.symm.trans path
    decide

/-- Loading twice from the low half. -/
theorem hitMapsRight_iff_again :
    HitMapsRight (EmuConfig.ramOnly 0 0x1000 1)
      (ramTable (EmuConfig.ramOnly 0 0x1000 1) twoHalvesMachine.ram) 0
      (run (tlbStep (EmuConfig.ramOnly 0 0x1000 1) 0)
        ⟨twoHalvesMachine, fun _ => tlbFill RvCpu.zero 0 .load ⟨0, 0⟩⟩ [.lookup 0 .load]) 0 .load :=
  (hitMapsRight_iff (EmuConfig.ramOnly 0 0x1000 1) twoHalvesTables 0
    ⟨twoHalvesMachine, fun _ => tlbFill RvCpu.zero 0 .load ⟨0, 0⟩⟩
    (fun _ _ _ => BitVec.getLsbD_zero) [.lookup 0 .load] ⟨twoHalves_low, trivial⟩ 0 .load).mpr (by
      intro slot hits
      have hit : TlbHits ((run (tlbStep (EmuConfig.ramOnly 0 0x1000 1) 0)
          ⟨twoHalvesMachine, fun _ => tlbFill RvCpu.zero 0 .load ⟨0, 0⟩⟩
          [.lookup 0 .load]).machine.cpus 0) 0 .load 0 := ⟨0, by decide +kernel, rfl⟩
      obtain rfl := hits.unique hit
      exact Or.inl (by decide +kernel))

/-- After a load from the low half, a load from the high half is served with the
page of the low half. -/
theorem hitMapsRight_otherHalf :
    ¬∀ (mc : EmuConfig Unit) (T : TableSet mc) (h : Nat) (start : TlbRun Unit)
      (events : List (TlbEvent Unit)), (start.machine.cpus h).tlb.Empty →
        StepsMeet (tlbStep mc h) (OnFixedTables mc T (ramTable mc start.machine.ram) h) start
          events → ∀ vaddr mode,
            rvIsCanonVaddr ((run (tlbStep mc h) start events).machine.cpus h) vaddr = true →
              HitMapsRight mc (ramTable mc start.machine.ram) h (run (tlbStep mc h) start events)
                vaddr mode := by
  intro always
  have right := always (EmuConfig.ramOnly 0 0x1000 1) twoHalvesTables 0
    ⟨twoHalvesMachine, fun _ => tlbFill RvCpu.zero 0 .load ⟨0, 0⟩⟩ [.lookup 0 .load]
    (fun _ _ _ => BitVec.getLsbD_zero) ⟨twoHalves_low, trivial⟩ 0xffffffc000000000 .load
    (by decide +kernel) 0 (by decide +kernel)
  exact absurd right (by decide +kernel)

end Riscmulator
