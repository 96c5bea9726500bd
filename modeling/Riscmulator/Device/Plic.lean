import Riscmulator.Machine

/-! The platform-level interrupt controller, from `rv_plic.c`. Its functions act
on a device bus: the controller's own state and the harts' interrupt lines. -/

namespace Riscmulator

def rvPlicNumSources : Nat := 64
def rvPlicRegWords : Nat := (rvPlicNumSources + 31) / 32
def rvPlicMeipBit : Nat := 11
def rvPlicSeipBit : Nat := 9

def plicRegionSize : U64 := 0x400000
def plicPendingBase : Nat := 0x001000
def plicEnableBase : Nat := 0x002000
def plicEnableCtxStride : Nat := 0x080
def plicCtxBase : Nat := 0x200000
def plicCtxStride : Nat := 0x1000
def plicCtxOffThreshold : Nat := 0x000
def plicCtxOffClaim : Nat := 0x004

/-- Per-context state. Context `hart * 2 + mode`, with mode 0 for M and 1 for S. -/
structure RvPlicContext where
  threshold : U32
  enable : Nat → U32

structure RvPlic where
  priority : Nat → U32
  pending : Nat → U32
  contexts : Nat → RvPlicContext
  numContexts : Nat

/-- Read one word of a source bitmap. The arrays have `RV_PLIC_REG_WORDS` words. Source 64
has its bit in the word behind: for `pending` that is padding, zero until source 64 is
asserted, for `enable` the threshold of the next context. It is read as zero here. -/
def plicWord (words : Nat → U32) (word : Nat) : U32 :=
  if word < rvPlicRegWords then words word else 0

/-- Write one word of a source bitmap. Only `rv_plic_set_pending(64)` and a claim of
source 64 write the word behind, which is left out here. -/
def plicSetWord (words : Nat → U32) (word : Nat) (value : U32) : Nat → U32 :=
  if word < rvPlicRegWords then Function.update words word value else words

def plicBit (words : Nat → U32) (src : Nat) : Bool := (plicWord words (src / 32)).getLsbD (src % 32)

/-- The condition under which a source interrupts a context. -/
def RvPlic.claimable (plic : RvPlic) (ctx src : Nat) : Bool :=
  plicBit plic.pending src && plicBit (plic.contexts ctx).enable src &&
    plic.priority src > (plic.contexts ctx).threshold

def plicSources : List Nat := List.range' 1 rvPlicNumSources

def RvPlic.hasIrq (plic : RvPlic) (ctx : Nat) : Bool := plicSources.any (plic.claimable ctx)

def plicIrqBit (ctx : Nat) : U64 :=
  if ctx % 2 = 0 then bit rvPlicMeipBit else bit rvPlicSeipBit

def plicUpdateContext (cpuCount : Nat) (plic : RvPlic) (irq : Nat → U64) (ctx : Nat) :
    Nat → U64 :=
  let hart := ctx / 2
  if hart ≥ cpuCount then irq
  else if plic.hasIrq ctx then Function.update irq hart (irq hart ||| plicIrqBit ctx)
  else Function.update irq hart (irq hart &&& ~~~plicIrqBit ctx)

def plicUpdateLines (cpuCount : Nat) (plic : RvPlic) (irq : Nat → U64) : Nat → U64 :=
  (List.range plic.numContexts).foldl (plicUpdateContext cpuCount plic) irq

def plicUpdateHarts (cpuCount : Nat) (bus : DeviceBus RvPlic) : DeviceBus RvPlic :=
  { bus with irqPending := plicUpdateLines cpuCount bus.device bus.irqPending }

/-- One round of the search in `plic_do_claim`: the best source so far and its
priority. -/
def plicClaimRound (plic : RvPlic) (ctx : Nat) (best : Nat × U32) (src : Nat) : Nat × U32 :=
  if !(plicBit plic.pending src && plicBit (plic.contexts ctx).enable src) then best
  else if plic.priority src ≤ (plic.contexts ctx).threshold then best
  else if plic.priority src > best.2 then (src, plic.priority src)
  else best

def plicBestSource (plic : RvPlic) (ctx : Nat) : Nat :=
  (plicSources.foldl (plicClaimRound plic ctx) (0, 0)).1

def RvPlic.clearPending (plic : RvPlic) (src : Nat) : RvPlic :=
  let word := plicWord plic.pending (src / 32) &&& ~~~(1#32 <<< (src % 32))
  { plic with pending := plicSetWord plic.pending (src / 32) word }

def RvPlic.hasContext (plic : RvPlic) (ctx : Nat) : Bool := ctx < plic.numContexts % 2 ^ 32

def plicDoClaim (cpuCount : Nat) (bus : DeviceBus RvPlic) (ctx : Nat) :
    Nat × DeviceBus RvPlic :=
  if !bus.device.hasContext ctx then (0, bus)
  else
    let best := plicBestSource bus.device ctx
    if best ≠ 0 then
      (best, plicUpdateHarts cpuCount { bus with device := bus.device.clearPending best })
    else (0, bus)

inductive PlicReg
  | priority (src : Nat)
  | pending (word : Nat)
  | enable (ctx word : Nat)
  | threshold (ctx : Nat)
  | claim (ctx : Nat)
  | none
  deriving DecidableEq, Repr

/-- The offset decode shared by `plic_read` and `plic_write`; `none` is an
offset that reads as zero and ignores writes. -/
def plicDecode (plic : RvPlic) (offset : U64) : PlicReg :=
  let offset := offset.toNat
  if offset < plicPendingBase then
    let src := offset / 4
    if 1 ≤ src ∧ src ≤ rvPlicNumSources then .priority src else .none
  else if offset < plicEnableBase then
    let word := (offset - plicPendingBase) / 4
    if word < rvPlicRegWords then .pending word else .none
  else if offset < plicCtxBase then
    let rel := offset - plicEnableBase
    let ctx := rel / plicEnableCtxStride
    let word := rel % plicEnableCtxStride / 4
    if plic.hasContext ctx ∧ word < rvPlicRegWords then .enable ctx word else .none
  else
    let rel := offset - plicCtxBase
    let ctx := rel / plicCtxStride % 2 ^ 32
    let reg := rel % plicCtxStride
    if !plic.hasContext ctx then .none
    else if reg = plicCtxOffThreshold then .threshold ctx
    else if reg = plicCtxOffClaim then .claim ctx
    else .none

def plicRead (cpuCount : Nat) (bus : DeviceBus RvPlic) (offset : U64) (size : U8) :
    (Bool × U64) × DeviceBus RvPlic :=
  let plic := bus.device
  if size ≠ 4 then ((false, 0), bus)
  else
    match plicDecode plic offset with
    | .priority src => ((true, (plic.priority src).setWidth 64), bus)
    | .pending word => ((true, (plic.pending word).setWidth 64), bus)
    | .enable ctx word => ((true, ((plic.contexts ctx).enable word).setWidth 64), bus)
    | .threshold ctx => ((true, (plic.contexts ctx).threshold.setWidth 64), bus)
    | .claim ctx =>
        let out := plicDoClaim cpuCount bus ctx
        ((true, BitVec.ofNat 64 out.1), out.2)
    | .none => ((true, 0), bus)

def RvPlic.setContext (plic : RvPlic) (ctx : Nat) (c : RvPlicContext) : RvPlic :=
  { plic with contexts := Function.update plic.contexts ctx c }

/-- `plic_write`. A completion changes nothing. -/
def plicWrite (cpuCount : Nat) (bus : DeviceBus RvPlic) (offset : U64) (size : U8) (value : U64) :
    Bool × DeviceBus RvPlic :=
  let plic := bus.device
  let v32 : U32 := value.setWidth 32
  let update (plic : RvPlic) : Bool × DeviceBus RvPlic :=
    (true, plicUpdateHarts cpuCount { bus with device := plic })
  if size ≠ 4 then (false, bus)
  else
    match plicDecode plic offset with
    | .priority src => update { plic with priority := Function.update plic.priority src v32 }
    | .pending _ => (true, bus)
    | .enable ctx word =>
        let c := plic.contexts ctx
        update (plic.setContext ctx { c with enable := Function.update c.enable word v32 })
    | .threshold ctx => update (plic.setContext ctx { plic.contexts ctx with threshold := v32 })
    | .claim _ => (true, bus)
    | .none => (true, bus)

def RvPlic.setPending (plic : RvPlic) (src : Nat) : RvPlic :=
  let word := plicWord plic.pending (src / 32) ||| (1#32 <<< (src % 32))
  { plic with pending := plicSetWord plic.pending (src / 32) word }

def rvPlicSetPending (cpuCount : Nat) (bus : DeviceBus RvPlic) (source : U32) :
    DeviceBus RvPlic :=
  if source = 0 ∨ source.toNat > rvPlicNumSources then bus
  else plicUpdateHarts cpuCount { bus with device := bus.device.setPending source.toNat }

/-- `rv_plic_init`: everything zero, two contexts per hart. -/
def rvPlicInit (cpuCount : Nat) : RvPlic where
  priority := fun _ => 0
  pending := fun _ => 0
  contexts := fun _ => ⟨0, fun _ => 0⟩
  numContexts := cpuCount * 2

end Riscmulator
