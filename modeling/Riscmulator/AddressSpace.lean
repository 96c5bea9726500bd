import Riscmulator.PageCross
import Riscmulator.PmpAccess
import Riscmulator.PmpIntegrity
import Riscmulator.RawLookup

/-! Address spaces whose page tables stay as they are: what the lookups of a hart find and
what they write. -/

namespace Riscmulator

variable {δ : Type}

/-! ### What the tables map -/

/-- Number of the page that holds an address. -/
def pageOf (addr : U64) : U64 := addr >>> 12

/-- A byte of an entry of the tables. -/
def TableSet.Covers {mc : EmuConfig δ} (T : TableSet mc) (addr : U64) : Prop :=
  ∃ paddr, T.mem paddr ∧ (addr - paddr).toNat < 8

/-- The tables at page `root` are in `T`; what they map is among `pages`, and what they map
for writing, or hold to be dirty, is among `writable`. -/
structure AddressSpace {mc : EmuConfig δ} (T : TableSet mc) (table : U64 → U64)
    (pages writable : U64 → Prop) (root : U64) : Prop where
  within : ∀ vaddr, Sv39.Within T.mem table vaddr 3 root
  mapped : ∀ vaddr leaf, Sv39.walk table vaddr 3 root = some leaf → pages (Sv39.target vaddr leaf)
  written : ∀ vaddr leaf, Sv39.walk table vaddr 3 root = some leaf →
    leaf.1.getLsbD rvPteWBit = true ∨ leaf.1.getLsbD rvPteDBit = true →
      writable (Sv39.target vaddr leaf)

/-- RAM holds the tables, up to A bits and the D bits of what may be written. -/
structure TablesHeld {mc : EmuConfig δ} (T : TableSet mc) (table : U64 → U64)
    (ram : U64 → U8) : Prop where
  fixed : TablesFixed T table ram
  dirty : ∀ paddr, T.mem paddr → (ramTable mc ram paddr).getLsbD rvPteDBit = true →
    (table paddr).getLsbD rvPteWBit = true ∨ (table paddr).getLsbD rvPteDBit = true

/-- A translation to one of the pages, and to one that may be written if it is dirty. -/
structure EntryWithin (pages writable : U64 → Prop) (entry : RvTlbEntry) : Prop where
  page : pages (rvPtePpn entry.pte)
  dirty : entry.pte.getLsbD rvPteDBit = true → writable (rvPtePpn entry.pte)

def TlbWithin (pages writable : U64 → Prop) (tlb : RvTlb) : Prop :=
  ∀ row col, tlb.isValid row col = true → EntryWithin pages writable (tlb.entries (tlbSlot row col))

section Tables

variable {mc : EmuConfig δ} {T : TableSet mc} {table : U64 → U64} {pages writable : U64 → Prop}
  {m : EmuMachine δ} {h : Nat} {vaddr base addr : U64} {mode : RvAccess} {ram : U64 → U8}

theorem tablesHeld_self (T : TableSet mc) (ram : U64 → U8) :
    TablesHeld T (ramTable mc ram) ram :=
  ⟨fun _ _ => Sv39.SameEntry.refl _, fun _ _ dirty => Or.inr dirty⟩

/-- The entries that RAM leads `vaddr` to are those of the tables. -/
theorem TablesHeld.leads {level last : Nat} {pointers : List U64} (held : TablesHeld T table ram)
    (within : Sv39.Within T.mem table vaddr level base)
    (leads : Sv39.Leads (ramTable mc ram) vaddr level base pointers last addr) :
    T.mem addr ∧ ∃ pointers', Sv39.Leads table vaddr level base pointers' last addr := by
  induction leads with
  | here => exact ⟨within.1, [], .here⟩
  | @next level last base addr pointers points _ ih =>
      have same := held.fixed _ within.1
      obtain ⟨valid, inner⟩ := Sv39.pointer_inner points
      have points' : Sv39.isPointer (table (Sv39.entryAddr base vaddr level)) = true := by
        rw [Sv39.isPointer, ← same.valid, ← same.isLeaf, ← same 4 (by decide) (by decide)]
        exact points
      rw [same.ppn] at ih
      obtain ⟨mem, pointers', rest⟩ := ih (within.2 (same.valid ▸ valid) (same.isLeaf ▸ inner))
      exact ⟨mem, _, .next points' rest⟩

theorem TablesHeld.entriesInRam {level : Nat} (held : TablesHeld T table ram)
    (within : Sv39.Within T.mem table vaddr level base) :
    EntriesInRam mc ram vaddr level base :=
  fun _ _ _ leads => T.inRam _ (held.leads within leads).1

/-- The leaf that a lookup finds is that of the tables. -/
theorem TablesHeld.leaf {level last : Nat} {pointers : List U64} (held : TablesHeld T table ram)
    (within : Sv39.Within T.mem table vaddr level base)
    (path : Sv39.LeafPath (ramTable mc ram) vaddr level base pointers last addr)
    (aligned : Sv39.ppn (ramTable mc ram addr) &&& Sv39.offsetMask last = 0) :
    T.mem addr ∧ Sv39.walk table vaddr level base = some (table addr, last) := by
  obtain ⟨mem, pointers', leads⟩ := held.leads within path.leads
  have same := held.fixed addr mem
  refine ⟨mem, leads.walk ?_ ?_ ?_⟩
  · rw [← same.valid]
    exact path.valid
  · rw [← same.isLeaf]
    exact path.leaf
  · rw [← same.ppn]
    exact aligned

/-- Marking the leaf of an access that it grants keeps the tables. -/
theorem TablesHeld.mark (held : TablesHeld T table ram) (mem : T.mem addr)
    (grants : mode.writes = true → (ramTable mc ram addr).getLsbD rvPteWBit = true) :
    TablesHeld T table (ramStore ram (addr - mc.ramStart) (ramTable mc ram addr ||| rvSetfl mode) 8) := by
  refine ⟨tablesFixed_store held.fixed mem (Sv39.sameEntry_or (rvSetfl_bits mode)), ?_⟩
  intro paddr mem' dirty
  by_cases mine : paddr = addr
  · subst mine
    rw [ramTable, ramLoad_ramStore, BitVec.getLsbD_or, Bool.or_eq_true, rvSetfl_eq,
      (getLsbD_marks mode).2] at dirty
    rcases dirty with before | writes
    · exact held.dirty paddr mem before
    · have granted := grants writes
      rw [held.fixed paddr mem rvPteWBit (by decide) (by decide)] at granted
      exact Or.inl granted
  · rw [ramTable, ramLoad_ramStore_other ram mc.ramStart _ (T.aligned addr mem)
      (T.aligned paddr mem') mine] at dirty
    exact held.dirty paddr mem' dirty

end Tables

/-! ### Lookups -/

/-- What a lookup of `vaddr` found and left behind: marks in the tables at most, and a
translation within the pages. -/
structure FoundWithin {mc : EmuConfig δ} (T : TableSet mc) (table : U64 → U64)
    (pages writable : U64 → Prop) (mode : RvAccess) (m : EmuMachine δ) (res : RvMemResult)
    (m' : EmuMachine δ) (entry : RvTlbEntry) : Prop where
  held : TablesHeld T table m'.ram
  kept : RamKept mc T.Covers m m'
  found : res = .ok → EntryWithin pages writable entry
  writes : res = .ok → mode.writes = true → writable (rvPtePpn entry.pte)

section Lookup

variable {mc : EmuConfig δ} {T : TableSet mc} {table : U64 → U64} {pages writable : U64 → Prop}
  {m : EmuMachine δ} {h : Nat} {vaddr : U64} {mode : RvAccess}

theorem WalkFound.grants {cpu : RvCpu} {leaf : Leaf} {entry : RvTlbEntry}
    (found : WalkFound cpu vaddr mode leaf entry) (writes : mode.writes = true) :
    leaf.pte.getLsbD rvPteWBit = true := by
  have granted : leaf.pte.getLsbD mode.pteBit = true := found.keepsPerms.granted.1
  cases mode with
  | insn => cases writes
  | load => cases writes
  | amo => exact granted
  | store => exact granted

/-- A walk marks its entry as dirty only if it writes. -/
theorem WalkFound.dirty {cpu : RvCpu} {leaf : Leaf} {entry : RvTlbEntry}
    (found : WalkFound cpu vaddr mode leaf entry) (dirty : entry.pte.getLsbD rvPteDBit = true) :
    leaf.pte.getLsbD rvPteDBit = true ∨ mode.writes = true := by
  obtain ⟨set, kind, pte⟩ := found.pte
  rw [pte, BitVec.getLsbD_or, rvLeafEntry_pte _ _ _ _ (by decide), Bool.or_eq_true] at dirty
  rcases dirty with before | now
  · exact Or.inl before
  · rcases kind with rfl | rfl
    · exact absurd now (by decide)
    · rw [rvSetfl_eq, (getLsbD_marks mode).2] at now
      exact Or.inr now

/-- The translation that a walk of held tables returns is one of theirs. -/
theorem WalkFound.within {last : Nat} {pointers : List U64} {addr : U64} {entry : RvTlbEntry}
    (found : WalkFound (m.cpus h) vaddr mode ⟨ramTable mc m.ram addr, last⟩ entry)
    (space : AddressSpace T table pages writable (satpRoot (m.cpus h)))
    (held : TablesHeld T table m.ram)
    (leads : Sv39.Leads (ramTable mc m.ram) vaddr 3 (satpRoot (m.cpus h)) pointers last addr) :
    T.mem addr ∧ EntryWithin pages writable entry ∧
      (mode.writes = true → writable (rvPtePpn entry.pte)) := by
  have aligned : Sv39.ppn (ramTable mc m.ram addr) &&& Sv39.offsetMask last = 0 := by
    rw [← rvPtePpn_eq]
    exact found.aligned
  obtain ⟨mem, walked⟩ :=
    held.leaf (space.within vaddr) ⟨leads, found.valid, found.isLeaf⟩ aligned
  have same := held.fixed addr mem
  have page : rvPtePpn entry.pte = Sv39.target vaddr (table addr, last) := by
    rw [found.target leads.last_lt, Sv39.target, Sv39.target, same.ppn]
  have writes : mode.writes = true → writable (rvPtePpn entry.pte) := by
    intro writes
    have granted := found.grants writes
    rw [same rvPteWBit (by decide) (by decide)] at granted
    rw [page]
    exact space.written _ _ walked (Or.inl granted)
  refine ⟨mem, ⟨?_, ?_⟩, writes⟩
  · rw [page]
    exact space.mapped _ _ walked
  · intro dirty
    rcases found.dirty dirty with before | now
    · rw [page]
      exact space.written _ _ walked (held.dirty addr mem before)
    · exact writes now

theorem store_covers (mem : T.mem vaddr) (m : EmuMachine δ) (data : U64) :
    RamKept mc T.Covers m { m with ram := ramStore m.ram (vaddr - mc.ramStart) data 8 } := by
  intro a foreign
  refine ramStore_other _ _ _ ?_
  by_contra near
  exact foreign ⟨vaddr, mem, by bv_omega⟩

theorem rvPagingRawLookup_within
    (space : AddressSpace T table pages writable (satpRoot (m.cpus h)))
    (held : TablesHeld T table m.ram) (vaddr : U64) (mode : RvAccess) :
    FoundWithin T table pages writable mode m (rvPagingRawLookup mc m h vaddr mode).res
      (rvPagingRawLookup mc m h vaddr mode).machine
      (rvPagingRawLookup mc m h vaddr mode).entry := by
  rw [rvPagingRawLookup]
  rcases rvWalk_cases (held.entriesInRam (space.within vaddr)) mode with
    ⟨res, fault, walked⟩ | ⟨pointers, last, addr, leads, valid, walked⟩
  · have walked : rvWalk mc h vaddr mode 3 m ((m.cpus h).csr.satp &&& rvSatpPpnMask) = _ := walked
    rw [walked]
    exact ⟨held, .refl, fun ok => absurd ok fault, fun ok => absurd ok fault⟩
  · have walked : rvWalk mc h vaddr mode 3 m ((m.cpus h).csr.satp &&& rvSatpPpnMask) = _ := walked
    have inRam := T.inRam addr (held.leads (space.within vaddr) leads).1
    have found : (rvWalkLeaf mc m h vaddr mode last addr (ramTable mc m.ram addr)
        (rvPmpCheck (m.cpus h) addr 8 false)).res = .ok → _ := fun ok => rvWalkLeaf_ok valid ok
    rw [walked]
    rcases rvWalkLeaf_cases inRam m h vaddr (ramTable mc m.ram addr) mode last
      (rvPmpCheck (m.cpus h) addr 8 false) with ⟨res, fault, ended⟩ | ⟨_, ended⟩ | ended
    · rw [ended]
      exact ⟨held, .refl, fun ok => absurd ok fault, fun ok => absurd ok fault⟩
    · rw [ended] at found ⊢
      obtain ⟨_, entry, writes⟩ := (found rfl).within space held leads
      exact ⟨held, .refl, fun _ => entry, fun _ => writes⟩
    · rw [ended] at found ⊢
      obtain ⟨mem, entry, writes⟩ := (found rfl).within space held leads
      exact ⟨held.mark mem (found rfl).grants, store_covers mem m _, fun _ => entry, fun _ => writes⟩

theorem rvPagingMiss_within
    (space : AddressSpace T table pages writable (satpRoot (m.cpus h)))
    (held : TablesHeld T table m.ram) (tlb : TlbWithin pages writable (m.cpus h).tlb)
    (vaddr : U64) (mode : RvAccess) :
    FoundWithin T table pages writable mode m (rvPagingMiss mc m h vaddr mode).res
        (rvPagingMiss mc m h vaddr mode).machine (rvPagingMiss mc m h vaddr mode).entry ∧
      TlbWithin pages writable ((rvPagingMiss mc m h vaddr mode).machine.cpus h).tlb := by
  have walked := rvPagingRawLookup_within space held vaddr mode
  have same := (rvPagingRawLookup_frame mc m h vaddr mode).tlb h
  simp only [rvPagingMiss]
  split
  · next fault =>
      refine ⟨⟨walked.held, walked.kept, fun ok => absurd ok fault, fun ok => absurd ok fault⟩, ?_⟩
      rwa [same]
  next ok =>
  have found := walked.found (not_not.mp ok)
  have writes := walked.writes (not_not.mp ok)
  split
  · refine ⟨⟨walked.held, walked.kept, fun _ => found, fun _ => writes⟩, ?_⟩
    rwa [same]
  · refine ⟨⟨walked.held, walked.kept, fun _ => found, fun _ => writes⟩, ?_⟩
    intro row col valid
    simp only [EmuMachine.setTlb, EmuMachine.setCpu_same] at valid ⊢
    rcases rvTlbInsert_slots _ _ valid with ⟨_, stored⟩ | ⟨_, before, kept⟩
    · rw [stored]
      exact found
    · rw [kept]
      rw [same] at before ⊢
      exact tlb row col before

/-- A slot that is hit is marked as the access would mark it. -/
theorem rvTlbScan_marked {tlb : RvTlb} {row : Nat} {asid : U16} {col : Nat}
    (hit : rvTlbScan tlb row vaddr asid (rvSetfl mode) = some (.hit col))
    (writes : mode.writes = true) :
    (tlb.entries (tlbSlot row col)).pte.getLsbD rvPteDBit = true := by
  obtain ⟨probed, _, probe⟩ := List.exists_of_findSome?_eq_some hit
  simp only [rvTlbProbe] at probe
  split at probe
  · cases probe
  split at probe
  · cases probe
  split at probe
  · cases probe
  · next marked =>
      cases probe
      rw [not_not, rvSetfl_eq] at marked
      exact marked_bits marked ((getLsbD_marks mode).2.trans writes)

/-- Every lookup translates within the pages, from the TLB or from the tables. -/
theorem rvPagingLookup_within
    (space : AddressSpace T table pages writable (satpRoot (m.cpus h)))
    (held : TablesHeld T table m.ram) (tlb : TlbWithin pages writable (m.cpus h).tlb)
    (vaddr : U64) (mode : RvAccess) :
    FoundWithin T table pages writable mode m (rvPagingLookup mc m h vaddr mode).res
        (rvPagingLookup mc m h vaddr mode).machine (rvPagingLookup mc m h vaddr mode).entry ∧
      TlbWithin pages writable ((rvPagingLookup mc m h vaddr mode).machine.cpus h).tlb := by
  by_cases hits : ∃ slot, TlbHits (m.cpus h) vaddr mode slot
  · obtain ⟨slot, hits⟩ := hits
    rw [rvPagingLookup_hit hits]
    obtain ⟨col, scanned, rfl⟩ := hits
    obtain ⟨_, valid, _⟩ := rvTlbScan_hit scanned
    have entry := tlb _ col valid
    exact ⟨⟨held, .refl, fun _ => entry, fun _ writes => entry.dirty (rvTlbScan_marked scanned writes)⟩,
      tlb⟩
  · obtain ⟨entries, valid⟩ := rvTlbDropped_slots m h vaddr mode
    have root : satpRoot ((rvTlbDropped m h vaddr mode).cpus h) = satpRoot (m.cpus h) := by
      rw [satpRoot, satpRoot, (rvTlbDropped_frame m h vaddr mode).csr]
    have dropped : TlbWithin pages writable ((rvTlbDropped m h vaddr mode).cpus h).tlb := by
      intro row col stays
      rw [entries]
      exact tlb row col (valid row col stays)
    rw [← root] at space
    have tables : TablesHeld T table (rvTlbDropped m h vaddr mode).ram := by
      rwa [rvTlbDropped_ram]
    rw [rvPagingLookup_miss (not_exists.mp hits)]
    obtain ⟨found, after⟩ := rvPagingMiss_within space tables dropped vaddr mode
    refine ⟨⟨found.held, ?_, found.found, found.writes⟩, after⟩
    intro a foreign
    rw [found.kept a foreign, rvTlbDropped_ram]

end Lookup

/-! ### Pages -/

/-- A page that a range starts in holds it to the end of the page. -/
theorem pageOf_translate (entry : RvTlbEntry) {vaddr : U64} {k : Nat}
    (inside : vaddr.toNat % 4096 + k < 4096) :
    pageOf (rvTranslate entry vaddr + BitVec.ofNat 64 k) = rvPtePpn entry.pte := by
  have page : (vaddr % rvCpuPageSize).toNat = vaddr.toNat % 4096 := BitVec.toNat_umod
  have small : (rvPtePpn entry.pte).toNat < 2 ^ 44 := by
    rw [rvPtePpn_eq]
    apply Nat.lt_pow_two_of_testBit
    intro i high
    rw [BitVec.testBit_toNat, getLsbD_ppn, decide_eq_false (by omega), Bool.and_false]
  have exponent : rvCpuPageSizeExp = 12 := rfl
  rw [rvTranslate_eq_add, exponent]
  generalize vaddr % rvCpuPageSize = offset at page
  generalize rvPtePpn entry.pte = ppn at small
  apply BitVec.eq_of_toNat_eq
  have shifted : (ppn <<< 12).toNat = ppn.toNat * 4096 := by
    rw [BitVec.toNat_shiftLeft, Nat.shiftLeft_eq]
    omega
  rw [pageOf, BitVec.toNat_ushiftRight, Nat.shiftRight_eq_div_pow, BitVec.toNat_add,
    BitVec.toNat_add, shifted, page, BitVec.toNat_ofNat]
  omega

/-- A range of a page that translates to one of these pages is within them. -/
theorem translate_range {pages : U64 → Prop} {entry : RvTlbEntry} (mapped : pages (rvPtePpn entry.pte))
    {vaddr : U64} {n : Nat} (inside : vaddr.toNat % 4096 + n ≤ 4096) :
    VisibleRange (fun a => pages (pageOf a)) (rvTranslate entry vaddr) n := by
  intro k below
  rw [pageOf_translate entry (by omega)]
  exact mapped

/-! ### Accesses -/

/-- What a hart in such an address space may change: what is mapped for writing, and the
marks in the tables. -/
def SpaceWritable {mc : EmuConfig δ} (T : TableSet mc) (writable : U64 → Prop) (addr : U64) : Prop :=
  writable (pageOf addr) ∨ T.Covers addr

/-- A change that the address space allows hart `h`. -/
structure SpaceKept {mc : EmuConfig δ} (T : TableSet mc) (table : U64 → U64)
    (pages writable : U64 → Prop) (h : Nat) (m m' : EmuMachine δ) : Prop where
  held : TablesHeld T table m'.ram
  tlb : TlbWithin pages writable (m'.cpus h).tlb
  kept : RamKept mc (SpaceWritable T writable) m m'

section Access

variable {mc : EmuConfig δ} {T : TableSet mc} {table : U64 → U64} {pages writable : U64 → Prop}
  {m m' m'' : EmuMachine δ} {h : Nat} {vaddr : U64} {mode : RvAccess}

theorem RamKept.mono {writable' : U64 → Prop} (kept : RamKept mc writable m m')
    (more : ∀ a, writable a → writable' a) : RamKept mc writable' m m' :=
  fun a foreign => kept a fun mine => foreign (more a mine)

/-- No entry of the tables is on a page that may be written. -/
def TablesApart (T : TableSet mc) (writable : U64 → Prop) : Prop :=
  ∀ paddr, T.mem paddr → ¬writable (pageOf paddr)

theorem pageOf_entry {paddr : U64} (aligned : paddr.toNat % 8 = 0) {k : Nat} (inside : k < 8) :
    pageOf (paddr + BitVec.ofNat 64 k) = pageOf paddr := by
  apply BitVec.eq_of_toNat_eq
  rw [pageOf, pageOf, BitVec.toNat_ushiftRight, BitVec.toNat_ushiftRight,
    Nat.shiftRight_eq_div_pow, Nat.shiftRight_eq_div_pow, BitVec.toNat_add, BitVec.toNat_ofNat]
  omega

/-- Stores to the pages leave the tables alone. -/
theorem TablesHeld.of_kept (held : TablesHeld T table m.ram)
    (kept : RamKept mc (fun a => writable (pageOf a)) m m') (apart : TablesApart T writable) :
    TablesHeld T table m'.ram := by
  have same : ∀ paddr, T.mem paddr → ramTable mc m'.ram paddr = ramTable mc m.ram paddr := by
    intro paddr mem
    apply BitVec.eq_of_getLsbD_eq
    intro i word
    have inside : i / 8 < 8 := by omega
    have foreign : ¬writable (pageOf (paddr + BitVec.ofNat 64 (i / 8))) := by
      rw [pageOf_entry (T.aligned paddr mem) inside]
      exact apart paddr mem
    rw [ramTable, ramTable, getLsbD_ramLoad _ 8 word, getLsbD_ramLoad _ 8 word, ← index_add,
      kept _ foreign]
  constructor
  · intro paddr mem
    rw [same paddr mem]
    exact held.fixed paddr mem
  · intro paddr mem
    rw [same paddr mem]
    exact held.dirty paddr mem

/-- A lookup and then stores to the pages. -/
theorem FoundWithin.kept_phys {res : RvMemResult} {entry : RvTlbEntry}
    (found : FoundWithin T table pages writable mode m res m' entry)
    (tlb : TlbWithin pages writable (m'.cpus h).tlb) (apart : TablesApart T writable)
    (stored : RamKept mc (fun a => writable (pageOf a)) m' m'') (frame : PhysFrame m' m'') :
    SpaceKept T table pages writable h m m'' where
  held := found.held.of_kept stored apart
  tlb := by
    rw [frame.tlb]
    exact tlb
  kept := (found.kept.mono fun _ => Or.inr).trans (stored.mono fun _ => Or.inl)

theorem rvAccessPhysPartial_kept (m : EmuMachine δ) (h : Nat) (data : U64) {addr size : U64}
    {written : U64 → Prop}
    (stores : mode = .store → VisibleRange written addr size.toNat) :
    RamKept mc written m (rvAccessPhysPartial mc m h addr data size mode true).machine := by
  simp only [rvAccessPhysPartial, Bool.not_true, Bool.false_and, Bool.false_eq_true, if_false]
  exact misalignedTwoPass_kept m data stores

theorem rvAccessTwoPages_kept (m : EmuMachine δ) (h : Nat) (data : U64) {size : U64}
    {size0 size1 : Nat} (boundary : CrossesAt vaddr size size0 size1) (small : size.toNat ≤ 8)
    {entry0 entry1 : RvTlbEntry}
    (first : mode = .store → writable (rvPtePpn entry0.pte))
    (second : mode = .store → writable (rvPtePpn entry1.pte)) :
    RamKept mc (fun a => writable (pageOf a)) m
      (rvAccessTwoPages mc m h vaddr data size mode entry0 entry1).machine := by
  have start := rvNextPage_offset vaddr
  have total := boundary.total
  have offset := boundary.offset
  have before : RamKept mc (fun a => writable (pageOf a)) m (rvAccessPhysPartial mc m h
      (rvTranslate entry0 vaddr) data (rvNextPage vaddr - vaddr) mode true).machine := by
    refine rvAccessPhysPartial_kept m h data fun store => translate_range (first store) ?_
    rw [boundary.first]
    omega
  simp only [rvAccessTwoPages]
  split
  · exact before
  · refine before.trans (rvAccessPhysPartial_kept _ h _ fun store => translate_range (second store) ?_)
    rw [boundary.second]
    omega

theorem SpaceKept.trans (left : SpaceKept T table pages writable h m m')
    (right : SpaceKept T table pages writable h m' m'') :
    SpaceKept T table pages writable h m m'' :=
  ⟨right.held, right.tlb, left.kept.trans right.kept⟩

/-- What does not leave its page ends in it. -/
theorem room_of_samePage {size : U64} (pos : 0 < size.toNat) (small : size.toNat ≤ 8)
    (same : vaddr / rvCpuPageSize = (vaddr + size - 1) / rvCpuPageSize) :
    vaddr.toNat % 4096 + size.toNat ≤ 4096 := by
  have number (x : U64) : (x / rvCpuPageSize).toNat = x.toNat / 4096 := BitVec.toNat_udiv
  have pages := congrArg BitVec.toNat same
  rw [number, number] at pages
  bv_omega

/-- An access in the address space changes what it may. -/
theorem rvAccessVirt_spaceKept (paged : rvIsBare (m.cpus h) mode = false)
    (space : AddressSpace T table pages writable (satpRoot (m.cpus h)))
    (apart : TablesApart T writable) (held : TablesHeld T table m.ram)
    (tlb : TlbWithin pages writable (m.cpus h).tlb) (vaddr data : U64) (sizeExp : Fin 4) :
    SpaceKept T table pages writable h m (rvAccessVirt mc m h vaddr data sizeExp mode).machine := by
  have unchanged : SpaceKept T table pages writable h m m := ⟨held, tlb, .refl⟩
  obtain ⟨pos, small⟩ := accessSize_small sizeExp
  have writes : mode = .store → mode.writes = true := fun store => store ▸ rfl
  obtain ⟨found0, tlb0⟩ := rvPagingLookup_within space held tlb vaddr mode
  have looked : SpaceKept T table pages writable h m (rvPagingLookup mc m h vaddr mode).machine :=
    found0.kept_phys tlb0 apart .refl (PhysFrame.refl _)
  have root : satpRoot ((rvPagingLookup mc m h vaddr mode).machine.cpus h) =
      satpRoot (m.cpus h) := by
    rw [satpRoot, satpRoot, ((rvPagingLookup_frame mc m h vaddr mode).core h).csr]
  rw [rvAccessVirt, rvAccessVirtBy, paged, if_neg Bool.false_ne_true]
  split
  · exact unchanged
  split
  · next crosses =>
      obtain ⟨size0, size1, boundary⟩ := crossesAt pos small crosses
      rw [← root] at space
      obtain ⟨found1, tlb1⟩ :=
        rvPagingLookup_within space found0.held tlb0 (rvNextPage vaddr) mode
      simp only [rvAccessVirtPageboundary]
      split
      · exact unchanged
      split
      · exact looked
      next ok0 =>
      split
      · exact looked.trans (found1.kept_phys tlb1 apart .refl (PhysFrame.refl _))
      next ok1 =>
      refine looked.trans (found1.kept_phys tlb1 apart
        (rvAccessTwoPages_kept _ h data boundary small ?_ ?_) (rvAccessTwoPages_frame _ _ _ _ _ _ _ _ _))
      · exact fun store => found0.writes (not_not.mp ok0) (writes store)
      · exact fun store => found1.writes (not_not.mp ok1) (writes store)
  · next same =>
      have room := room_of_samePage pos small (not_not.mp same)
      dsimp only
      split
      · exact looked
      next ok =>
      refine found0.kept_phys tlb0 apart ?_ (rvAccessPhys_frame _ _ _ _ _ _ _ _)
      simp only [rvAccessPhys, Bool.not_true, Bool.false_and, Bool.false_eq_true, if_false]
      exact rvAccessPhysUnchecked_kept _ data fun store =>
        translate_range (found0.writes (not_not.mp ok) (writes store)) room

end Access

end Riscmulator
