import Riscmulator.Privileged

/-! Sv39 paging and the TLB, from `rv_paging.c`. -/

namespace Riscmulator

variable {δ : Type}

def rvPteVBit : Nat := 0
def rvPteRBit : Nat := 1
def rvPteWBit : Nat := 2
def rvPteXBit : Nat := 3
def rvPteUBit : Nat := 4
def rvPteGBit : Nat := 5
def rvPteABit : Nat := 6
def rvPteDBit : Nat := 7
def rvPtePpnBaseBit : Nat := 10

/-- `RV_PTE_RWX_MASK`; the constant covers U as well as R, W and X. -/
def rvPteRwxMask : U64 := 0x000000000000001E
def rvPtePpnMask : U64 := 0x003ffffffffffc00
def rvTlbVpnMask : U64 := 0x0000003ffffff000
def rvTlbAsidMask : U64 := 0xffff000000000000
def rvTlbAsidBaseBit : Nat := 48

def rvPtePpn (pte : U64) : U64 := (pte &&& rvPtePpnMask) >>> rvPtePpnBaseBit

def RvAccess.pteBit : RvAccess → Nat
  | .insn => rvPteXBit
  | .load => rvPteRBit
  | .amo | .store => rvPteWBit

/-- `check_access`: PMP and PTE access bits. -/
def checkAccess (cpu : RvCpu) (entry : RvTlbEntry) (mode : RvAccess) : RvMemResult :=
  let userPte := entry.pte.getLsbD rvPteUBit
  let sum := cpu.csr.mstatus.getLsbD rvStatusSumBit
  if cpu.memPrivilege = 0 ∧ !userPte then .pageFault
  else if cpu.memPrivilege ≠ 0 ∧ (userPte && !sum) then .pageFault
  else if !entry.pte.getLsbD mode.pteBit then .pageFault
  else if !entry.vma.getLsbD mode.pmpBit then .accessFault
  else .ok

def rvSetfl (mode : RvAccess) : U64 :=
  if mode = .amo ∨ mode = .store then bit rvPteABit ||| bit rvPteDBit else bit rvPteABit

def rvSatpAsid (cpu : RvCpu) : U64 := (cpu.csr.satp &&& rvSatpAsidMask) >>> rvSatpAsidBaseBit

structure WalkOutcome (δ : Type) where
  res : RvMemResult
  machine : EmuMachine δ
  entry : RvTlbEntry

def rvLeafEntry (cpu : RvCpu) (vaddr pte : U64) (level : Nat) : RvTlbEntry :=
  let nextPpn := rvPtePpn pte
  let alignMask := bit (9 * level) - 1
  let nextPmp := rvPmpCheck cpu (nextPpn * rvCpuPageSize) rvCpuPageSize false
  let superpageOffset := (vaddr >>> rvCpuPageSizeExp) &&& alignMask
  { vma := (rvSatpAsid cpu <<< rvTlbAsidBaseBit) ||| (vaddr &&& rvTlbVpnMask) |||
      nextPmp.setWidth 64
    pte := pte ||| (superpageOffset <<< rvPtePpnBaseBit) }

def rvWalkLeaf (mc : EmuConfig δ) (m : EmuMachine δ) (h : Nat) (vaddr : U64) (mode : RvAccess)
    (level : Nat) (ptePaddr pte : U64) (ptePmp : U8) : WalkOutcome δ :=
  let fault (res : RvMemResult) : WalkOutcome δ := ⟨res, m, ⟨0, 0⟩⟩
  let setfl := rvSetfl mode
  if (rvPtePpn pte &&& (bit (9 * level) - 1)) ≠ 0 then fault .pageFault
  else
    let entry := rvLeafEntry (m.cpus h) vaddr pte level
    if checkAccess (m.cpus h) entry mode ≠ .ok then fault (checkAccess (m.cpus h) entry mode)
    else if (pte &&& setfl) ≠ setfl then
      -- The entry has to be written back, which PMP may forbid.
      if !ptePmp.getLsbD rvPmpcfgWBit then fault .accessFault
      else
        let out := rvAccessPhys mc m h ptePaddr (pte ||| setfl) 3 .store true
        if out.res ≠ .ok then ⟨out.res, out.machine, ⟨0, 0⟩⟩
        else ⟨.ok, out.machine, { entry with pte := entry.pte ||| setfl }⟩
    else ⟨.ok, m, entry⟩

/-- Physical address of the entry that `vaddr` selects in the table at `ppn`. -/
def rvPtePaddr (ppn vaddr : U64) (level : Nat) : U64 :=
  let vpn := vaddr / rvCpuPageSize
  ppn * rvCpuPageSize + ((vpn >>> (9 * level)) &&& 0x1ff) * 8

/-- The level loop of `rv_paging_raw_lookup`: `level` is the number of levels
left, so the round looks at level `level - 1`. -/
def rvWalk (mc : EmuConfig δ) (h : Nat) (vaddr : U64) (mode : RvAccess) :
    Nat → EmuMachine δ → U64 → WalkOutcome δ
  | 0, m, _ => ⟨.pageFault, m, ⟨0, 0⟩⟩
  | level + 1, m, ppn =>
      let ptePaddr := rvPtePaddr ppn vaddr level
      let ptePmp := rvPmpCheck (m.cpus h) ptePaddr 8 false
      if !ptePmp.getLsbD rvPmpcfgRBit then ⟨.accessFault, m, ⟨0, 0⟩⟩
      else
        let out := rvAccessPhys mc m h ptePaddr 0 3 .load true
        let pte := out.data.getD 0
        if out.res ≠ .ok then ⟨out.res, out.machine, ⟨0, 0⟩⟩
        else if !pte.getLsbD rvPteVBit then ⟨.pageFault, out.machine, ⟨0, 0⟩⟩
        else if (pte &&& rvPteRwxMask) ≠ 0 then
          rvWalkLeaf mc out.machine h vaddr mode level ptePaddr pte ptePmp
        else rvWalk mc h vaddr mode level out.machine (rvPtePpn pte)

def rvPagingRawLookup (mc : EmuConfig δ) (m : EmuMachine δ) (h : Nat) (vaddr : U64)
    (mode : RvAccess) : WalkOutcome δ :=
  rvWalk mc h vaddr mode 3 m ((m.cpus h).csr.satp &&& rvSatpPpnMask)

/-! ### The TLB -/

def rvTlbRow (vaddr : U64) : Nat := (vaddr / rvCpuPageSize % BitVec.ofNat 64 rvTlbRows).toNat

def RvTlb.isValid (tlb : RvTlb) (row col : Nat) : Bool := (tlb.valid row).getLsbD col

def RvTlb.setValid (tlb : RvTlb) (row col : Nat) : RvTlb :=
  { tlb with valid := Function.update tlb.valid row (tlb.valid row ||| (1#16 <<< col)) }

def RvTlb.clearValid (tlb : RvTlb) (row col : Nat) : RvTlb :=
  { tlb with valid := Function.update tlb.valid row (tlb.valid row &&& ~~~(1#16 <<< col)) }

def RvTlb.write (tlb : RvTlb) (index : Nat) (entry : RvTlbEntry) : RvTlb :=
  { tlb with entries := Function.update tlb.entries index entry }

def RvTlbEntry.asid (entry : RvTlbEntry) : U16 :=
  ((entry.vma &&& rvTlbAsidMask) >>> rvTlbAsidBaseBit).setWidth 16

/-- The tag test of the TLB scan: same page, and same ASID unless global. -/
def rvTlbMatch (entry : RvTlbEntry) (vaddr : U64) (satpAsid : U16) : Bool :=
  (entry.vma &&& rvTlbVpnMask) == (vaddr &&& rvTlbVpnMask) &&
    !(!entry.pte.getLsbD rvPteGBit && entry.asid ≠ satpAsid)

/-- How the TLB scan ends: with a hit, or at an entry whose A/D bits are missing. -/
inductive TlbProbe
  | hit (col : Nat)
  | stale (col : Nat)
  deriving DecidableEq, Repr

/-- One column of the TLB scan; `none` continues with the next column. -/
def rvTlbProbe (tlb : RvTlb) (row : Nat) (vaddr : U64) (satpAsid : U16) (setfl : U64)
    (col : Nat) : Option TlbProbe :=
  let entry := tlb.entries (row * rvTlbColumns + col)
  if !tlb.isValid row col then none
  else if !rvTlbMatch entry vaddr satpAsid then none
  else if (entry.pte &&& setfl) ≠ setfl then some (.stale col)
  else some (.hit col)

def rvTlbScan (tlb : RvTlb) (row : Nat) (vaddr : U64) (satpAsid : U16) (setfl : U64) :
    Option TlbProbe :=
  (List.range rvTlbColumns).findSome? (rvTlbProbe tlb row vaddr satpAsid setfl)

/-- Insert a translation: into the first invalid column of the row, else over
the slot `next_column` names. Returns the slot written, which may be past the
last one. -/
def rvTlbInsert (tlb : RvTlb) (row : Nat) (entry : RvTlbEntry) : RvTlb × Nat :=
  match (List.range rvTlbColumns).find? fun col => !tlb.isValid row col with
  | some col =>
      let index := row * rvTlbColumns + col
      ((tlb.write index entry).setValid row col, index)
  | none =>
      let index := row * rvTlbColumns + tlb.nextColumn.toNat
      ({ tlb.write index entry with nextColumn := tlb.nextColumn + 1 }, index)

/-- How a lookup was served: from a slot of the TLB, by a walk that was stored
into a slot, or by a walk that was not stored. -/
inductive LookupPath
  | hit (slot : Nat)
  | filled (slot : Nat)
  | walked
  deriving DecidableEq, Repr

structure LookupOutcome (δ : Type) where
  res : RvMemResult
  machine : EmuMachine δ
  entry : RvTlbEntry
  path : LookupPath

def EmuMachine.setTlb (m : EmuMachine δ) (h : Nat) (tlb : RvTlb) : EmuMachine δ :=
  m.setCpu h { m.cpus h with tlb := tlb }

/-- The part of `rv_paging_lookup` after a miss: walk, then insert. -/
def rvPagingMiss (mc : EmuConfig δ) (m : EmuMachine δ) (h : Nat) (vaddr : U64)
    (mode : RvAccess) : LookupOutcome δ :=
  let walk := rvPagingRawLookup mc m h vaddr mode
  if walk.res ≠ .ok then ⟨walk.res, walk.machine, walk.entry, .walked⟩
  else if !walk.entry.pte.getLsbD rvPteVBit then ⟨.ok, walk.machine, walk.entry, .walked⟩
  else
    let ins := rvTlbInsert (walk.machine.cpus h).tlb (rvTlbRow vaddr) walk.entry
    ⟨.ok, walk.machine.setTlb h ins.1, walk.entry, .filled ins.2⟩

def rvPagingLookup (mc : EmuConfig δ) (m : EmuMachine δ) (h : Nat) (vaddr : U64)
    (mode : RvAccess) : LookupOutcome δ :=
  let cpu := m.cpus h
  let row := rvTlbRow vaddr
  match rvTlbScan cpu.tlb row vaddr ((rvSatpAsid cpu).setWidth 16) (rvSetfl mode) with
  | some (.hit col) =>
      let slot := row * rvTlbColumns + col
      ⟨.ok, m, cpu.tlb.entries slot, .hit slot⟩
  | some (.stale col) =>
      -- The slot is dropped so that the walk sets the bits and may reuse it.
      rvPagingMiss mc (m.setTlb h (cpu.tlb.clearValid row col)) h vaddr mode
  | none => rvPagingMiss mc m h vaddr mode

/-! ### Stores past the last slot

`rv_paging_lookup` evicts `entries[row * RV_TLB_COLUMNS + next_column]` and
`next_column` only grows, so the store can leave the array. `rvPagingLookup` is
the lookup with the 256 slots alone; `hostPagingLookup` has the host's memory
behind them too, and is what the code computes. -/

def rvTlbSlots : Nat := rvTlbColumns * rvTlbRows

/-- Slots of 16 bytes from the end of `entries` to the end of `struct rv_cpu`. -/
def rvCpuTailSlots : Nat := 88

/-- Slots of 16 bytes that the vector registers take at its start. -/
def rvVregSlots : Nat := 128

/-- The store of an evicting lookup of hart `h` at a slot past the last one, where
`rvTlbInsert` left a mark only: it goes to two words of the core, or to a slot
of the next one in `machine->cpus`. -/
def rvTlbOverrun (mc : EmuConfig δ) (m : EmuMachine δ) (h slot : Nat) (entry : RvTlbEntry) :
    EmuMachine δ :=
  let past := slot - rvTlbSlots
  let m := m.setTlb h ((m.cpus h).tlb.write slot ⟨0, 0⟩)
  if past < rvCpuTailSlots then
    m.setCpu h (((m.cpus h).putWord (2 * past) entry.vma).putWord (2 * past + 1) entry.pte)
  else if rvCpuTailSlots + rvVregSlots ≤ past ∧ h + 1 < mc.cpuCount then
    m.setTlb (h + 1) ((m.cpus (h + 1)).tlb.write (past - rvCpuTailSlots - rvVregSlots) entry)
  -- The next core's vector registers, or what follows the last core.
  else m

/-- How an access finds the translation of a page. -/
abbrev PageLookup (δ : Type) := EmuMachine δ → Nat → U64 → RvAccess → LookupOutcome δ

/-- `rv_paging_lookup` in the host's memory. The store is its last action. -/
def hostPagingLookup (mc : EmuConfig δ) : PageLookup δ := fun m h vaddr mode =>
  let look := rvPagingLookup mc m h vaddr mode
  match look.path with
  | .filled slot =>
      if slot < rvTlbSlots then look
      else { look with machine := rvTlbOverrun mc look.machine h slot look.entry }
  | .hit _ | .walked => look

/-! ### Flushes -/

def rvDropColumns (valid : U16) (drop : Nat → Bool) : U16 :=
  (List.range rvTlbColumns).foldl
    (fun valid col => if drop col then valid &&& ~~~(1#16 <<< col) else valid) valid

def RvTlb.dropWhere (tlb : RvTlb) (drop : Nat → Nat → Bool) : RvTlb :=
  { tlb with valid := fun row =>
      if row < rvTlbRows then rvDropColumns (tlb.valid row) (drop row) else tlb.valid row }

def rvInvalTlbAsid (cpu : RvCpu) (asid : U16) : RvCpu :=
  { cpu with tlb := cpu.tlb.dropWhere fun row col =>
      (cpu.tlb.entries (row * rvTlbColumns + col)).asid == asid }

def rvInvalTlbVaddr (cpu : RvCpu) (vaddr : U64) (asid : U16) (withAsid : Bool) : RvCpu :=
  let mask := if withAsid then rvTlbVpnMask ||| rvTlbAsidMask else rvTlbVpnMask
  let matched := if withAsid then (vaddr &&& rvTlbVpnMask) ||| (asid.setWidth 64 <<< rvTlbAsidBaseBit)
    else vaddr &&& rvTlbVpnMask
  { cpu with tlb := cpu.tlb.dropWhere fun row col =>
      row == rvTlbRow vaddr &&
        ((cpu.tlb.entries (row * rvTlbColumns + col)).vma &&& mask) == matched }

def rvIsCanonVaddr (cpu : RvCpu) (vaddr : U64) : Bool :=
  let shift := 64 - 39
  rvSatpMode cpu.csr.satp == 8 && (vaddr <<< shift).sshiftRight shift == vaddr

def rvInvalTlb (cpu : RvCpu) (vaddr : U64) (asid : U16) (withVaddr withAsid : Bool) : RvCpu :=
  if withVaddr && !rvIsCanonVaddr cpu vaddr then cpu
  else if withVaddr then rvInvalTlbVaddr cpu vaddr asid withAsid
  else if withAsid then rvInvalTlbAsid cpu asid
  else rvFlushTlb cpu

/-! ### Virtual accesses -/

def rvEffPriv (cpu : RvCpu) (mode : RvAccess) : U8 :=
  if mode = .insn then cpu.privilege else cpu.memPrivilege

def rvTranslate (entry : RvTlbEntry) (vaddr : U64) : U64 :=
  (rvPtePpn entry.pte <<< rvCpuPageSizeExp) ||| (vaddr % rvCpuPageSize)

def rvNextPage (vaddr : U64) : U64 := (vaddr / rvCpuPageSize + 1) * rvCpuPageSize

/-- The physical part of `rv_access_virt_pageboundary`. -/
def rvAccessTwoPages (mc : EmuConfig δ) (m : EmuMachine δ) (h : Nat) (vaddr data size : U64)
    (mode : RvAccess) (result0 result1 : RvTlbEntry) : MemOutcome δ :=
  let vaddr1 := rvNextPage vaddr
  let size0 := vaddr1 - vaddr
  let size1 := vaddr + size - vaddr1
  let out0 := rvAccessPhysPartial mc m h (rvTranslate result0 vaddr) data size0 mode true
  if out0.res ≠ .ok then out0
  else
    let data := out0.data.getD data
    -- The second part works on the buffer from byte `size0` on.
    let shift := 8 * size0.toNat
    let out1 := rvAccessPhysPartial mc out0.machine h (rvTranslate result1 vaddr1)
      (data >>> shift) size1 mode true
    { out1 with
      data := some (((out1.data.getD 0) <<< shift) ||| lowBytes data size0.toNat)
      touched := out0.touched ++ out1.touched }

def rvAccessVirtPageboundary (mc : EmuConfig δ) (m : EmuMachine δ) (h : Nat) (vaddr data : U64)
    (sizeExp : Fin 4) (mode : RvAccess) (lookup : PageLookup δ := rvPagingLookup mc) :
    MemOutcome δ :=
  let vaddr1 := rvNextPage vaddr
  if !rvIsCanonVaddr (m.cpus h) vaddr1 then ⟨.pageFault, m, some data, []⟩
  else
    let look0 := lookup m h vaddr mode
    if look0.res ≠ .ok then ⟨look0.res, look0.machine, some data, []⟩
    else
      let look1 := lookup look0.machine h vaddr1 mode
      if look1.res ≠ .ok then ⟨look1.res, look1.machine, some data, []⟩
      else rvAccessTwoPages mc look1.machine h vaddr data (bit sizeExp.val) mode
        look0.entry look1.entry

/-- Virtual memory is off for an access at this privilege. -/
def rvIsBare (cpu : RvCpu) (mode : RvAccess) : Bool :=
  rvEffPriv cpu mode == 3 || rvSatpMode cpu.csr.satp == 0

/-- An access to virtual memory by a hart, as the instructions call it. -/
abbrev VirtAccess (δ : Type) :=
  EmuMachine δ → Nat → U64 → U64 → Fin 4 → RvAccess → MemOutcome δ

/-- `rv_access_virt`. The transfers recorded are those of the data, not the
walk's own reads and writes of page-table entries. -/
def rvAccessVirtBy (lookup : PageLookup δ) (mc : EmuConfig δ) (m : EmuMachine δ) (h : Nat)
    (vaddr data : U64) (sizeExp : Fin 4) (mode : RvAccess) : MemOutcome δ :=
  if rvIsBare (m.cpus h) mode then rvAccessPhys mc m h vaddr data sizeExp mode false
  else if !rvIsCanonVaddr (m.cpus h) vaddr then ⟨.pageFault, m, some data, []⟩
  else if vaddr / rvCpuPageSize ≠ (vaddr + bit sizeExp.val - 1) / rvCpuPageSize then
    rvAccessVirtPageboundary mc m h vaddr data sizeExp mode lookup
  else
    let look := lookup m h vaddr mode
    if look.res ≠ .ok then ⟨look.res, look.machine, some data, []⟩
    else rvAccessPhys mc look.machine h (rvTranslate look.entry vaddr) data sizeExp mode true

def rvAccessVirt (mc : EmuConfig δ) : VirtAccess δ := rvAccessVirtBy (rvPagingLookup mc) mc

/-- `rv_access_virt` in the host's memory. -/
def hostAccessVirt (mc : EmuConfig δ) : VirtAccess δ := rvAccessVirtBy (hostPagingLookup mc) mc

end Riscmulator
