import Riscmulator.Device.Board
import Riscmulator.InterruptRouting
import Riscmulator.MemPrivilege
import Riscmulator.Outcomes

/-! An external interrupt from the source to its handler: the hart that may take it enters
M-mode at the end of its step, and the load that claims it gets the best source. -/

namespace Riscmulator

open Transition

section

variable {mc : EmuConfig BoardDevices} {m : EmuMachine BoardDevices} {h : Nat}

/-! ### Reached boards -/

/-- A step of the board is one of the machine. -/
theorem boardStep_machine (mc : EmuConfig BoardDevices) (m : EmuMachine BoardDevices)
    (e : BoardEvent) : ∃ e', boardStep mc m e = machineStep mc m e' := by
  cases e with
  | step h => exact ⟨.step h, rfl⟩
  | timer h => exact ⟨.devices _, rfl⟩
  | clock now => exact ⟨.devices ⟨{ m.device with now := now }, m.bus.irqPending,
      m.bus.clintTimerArmed⟩, rfl⟩
  | raise source => exact ⟨.devices _, rfl⟩
  | load ram => exact ⟨.load ram, rfl⟩

theorem board_synced (board : IsBoard mc) (now : U64) (events : List BoardEvent) (h : Nat) :
    MemSynced ((run (boardStep mc) (boardInit mc now) events).cpus h) := by
  refine invariant_run_always (I := fun m : EmuMachine BoardDevices => MemSynced (m.cpus h)) ?_
    events (emuMachineInit_synced _ h)
  intro m e before
  obtain ⟨e', same⟩ := boardStep_machine mc m e
  rw [same]
  exact (memSynced_invariant (board.hooks.keeps _)).run before [e']

/-! ### Entry -/

/-- No interrupt comes before the external one of M-mode. -/
theorem rvInterruptCause_meip {cpu : RvCpu} (ready : IrqReady cpu .machine rvMipMeipBit) :
    rvInterruptCause cpu = some rvMipMeipBit := by
  have taken := (machinePending_getLsbD ready.globally rvMipMeipBit).mpr ready
  rw [rvInterruptCause, irqPriority, rvInterruptTake_ready ready, List.find?_cons, taken]

theorem rvTrapEnter_meip {cpu : RvCpu} (synced : MemSynced cpu)
    (direct : cpu.csr.mideleg.getLsbD rvMipMeipBit = false) :
    IrqEntered cpu (rvTrapEnter cpu (rvInterruptTrap cpu.pc rvMipMeipBit)) .machine rvMipMeipBit ∧
      (rvTrapEnter cpu (rvInterruptTrap cpu.pc rvMipMeipBit)).csr.mepc = cpu.pc := by
  have known : rvMipMeipBit ∈ irqPriority := List.mem_cons_self
  rw [rvTrapEnter, rvInterruptTrap_direct known fun _ => direct]
  exact ⟨⟨rfl, synced.bounded, rfl, rvTrapPc_interrupt known cpu.csr.mtvec cpu.pc⟩, rfl⟩

theorem rvCheckInterrupts_meip (ready : IrqReady (m.cpus h) .machine rvMipMeipBit) :
    rvCheckInterrupts mc m h =
      m.setCpu h (rvTrapEnter (m.cpus h) (rvInterruptTrap (m.cpus h).pc rvMipMeipBit)) := by
  rw [rvCheckInterrupts, rvInterruptCause_meip ready]
  exact rvDoTrap_interrupt mc m h (rvInterruptTrap_cause _ List.mem_cons_self).1

/-- What a step that executes a word leaves between the word and the check. -/
theorem executed_synced (board : IsBoard mc) (synced : MemSynced (m.cpus h))
    {fetched : EmuMachine BoardDevices} {insn : U32}
    (word : rvFetchInsn mc m h = .word fetched insn) :
    MemSynced ((rvForcefeedInsn mc fetched h insn).cpus h) := by
  have inv := memSynced_invariant (board.hooks.keeps _)
  have data := (rvFetchInsn_step mc m h).core h
  rw [word] at data
  exact inv.effect (inv.data data synced) rvForcefeedInsn_effect

end

/-- Whatever a board has done since its reset inside its arrays: when a hart has executed a
word, a source interrupts its M context, and the hart takes external interrupts in M-mode,
then the step ends in the handler of that interrupt, whatever else is pending; the other
harts stay. -/
theorem external_taken (past : DeviceBus RvPlic → DeviceBus RvPlic) (mc : EmuConfig BoardDevices)
    (board : IsBoard mc) (now : U64) (events : List BoardEvent)
    {m executed fetched : EmuMachine BoardDevices} {h : Nat} {insn : U32}
    (reached : m = run (hostBoardStep past mc) (boardInit mc now) events)
    (stores : StepsMeet (hostBoardStep past mc) (InsideArrays mc) (boardInit mc now)
      (events ++ [.step h])) (inside : h < mc.cpuCount)
    (word : rvFetchInsn mc m h (hostAccessVirt mc) = .word fetched insn)
    (executes : executed = rvForcefeedInsn mc fetched h insn (hostAccessVirt mc))
    (serves : executed.device.irq.plic.Interrupts (2 * h))
    (enabled : (executed.cpus h).csr.mie.getLsbD rvMipMeipBit = true)
    (direct : (executed.cpus h).csr.mideleg.getLsbD rvMipMeipBit = false)
    (globally : GloballyEnabled (executed.cpus h) .machine) :
    IrqEntered (executed.cpus h) ((hostStepInsn mc m h).cpus h) .machine rvMipMeipBit ∧
      ((hostStepInsn mc m h).cpus h).csr.mepc = (executed.cpus h).pc ∧
      ∀ i, i ≠ h → (hostStepInsn mc m h).cpus i = executed.cpus i := by
  obtain ⟨earlier, last, _⟩ := (stepsMeet_append _ _ _).mp stores
  rw [← reached] at last
  rw [hostBoardRun_eq earlier] at reached
  rw [hostFetchInsn_eq (fetched_inArray last)] at word
  rw [hostForcefeedInsn_eq (executed_inArray last word)] at executes
  rw [hostStepInsn_eq last]
  have stepped : rvStepInsn mc m h = rvCheckInterrupts mc executed h := by
    rw [rvStepInsn, rvStepInsnBy, word, executes]
  have lines : executed.bus = (rvStepInsn mc m h).bus := by
    rw [stepped, rvCheckInterrupts_bus board.hooks]
  have follows := board_meip board now (events ++ [.step h])
  rw [run_append, ← reached] at follows
  have pending : (executed.cpus h).irqPending.getLsbD rvMipMeipBit = true := by
    have device := congrArg DeviceBus.device lines
    have irq := congrFun (congrArg DeviceBus.irqPending lines) h
    change executed.device = (rvStepInsn mc m h).device at device
    change (executed.cpus h).irqPending = ((rvStepInsn mc m h).cpus h).irqPending at irq
    rw [device] at serves
    rw [irq]
    exact (follows h inside).mpr serves
  have ready : IrqReady (executed.cpus h) .machine rvMipMeipBit :=
    ⟨pending, enabled, irqTarget_machine.mpr direct, globally⟩
  have synced : MemSynced (executed.cpus h) := by
    rw [executes]
    refine executed_synced board ?_ word
    rw [reached]
    exact board_synced board now events h
  have entered := rvTrapEnter_meip synced direct
  rw [stepped, rvCheckInterrupts_meip ready, EmuMachine.setCpu_same]
  exact ⟨entered.1, entered.2, fun i other => EmuMachine.setCpu_other _ _ other⟩

/-- The word of a fetch that got one. -/
def FetchOutcome.insn? {δ : Type} : FetchOutcome δ → Option U32
  | .word _ insn => some insn
  | _ => none

theorem FetchOutcome.eq_word {δ : Type} {out : FetchOutcome δ} {insn : U32}
    (fetched : out.insn? = some insn) : out = .word out.machine insn := by
  cases out with
  | fault m trap => cases fetched
  | illegal m hw => cases fetched
  | word m word =>
      cases fetched
      rfl

/-- The hart of `enableEvents` before `csrsi mstatus, 8`. -/
def enabledHart : EmuMachine BoardDevices :=
  run (hostBoardStep (fun bus => bus) soloBoard) (boardInit soloBoard 0)
    (enableEvents [0x30046073])

/-- The machine that has fetched it. -/
def openingHart : EmuMachine BoardDevices :=
  (rvFetchInsn soloBoard enabledHart 0 (hostAccessVirt soloBoard)).machine

/-- The machine before its check for interrupts. -/
def openedHart : EmuMachine BoardDevices :=
  rvForcefeedInsn soloBoard openingHart 0 0x30046073 (hostAccessVirt soloBoard)

theorem openEvents_inside :
    StepsMeet (hostBoardStep (fun bus => bus) soloBoard) (InsideArrays soloBoard)
      (boardInit soloBoard 0) (enableEvents [0x30046073] ++ [.step 0]) :=
  insideArrays_run (fun _ => rfl) (emuMachineInit_inArray _) (by decide +kernel)

theorem external_taken_opened :
    IrqEntered (openedHart.cpus 0) ((hostStepInsn soloBoard enabledHart 0).cpus 0) .machine
        rvMipMeipBit ∧
      ((hostStepInsn soloBoard enabledHart 0).cpus 0).csr.mepc = (openedHart.cpus 0).pc ∧
      ∀ i, i ≠ 0 → (hostStepInsn soloBoard enabledHart 0).cpus i = openedHart.cpus i :=
  external_taken (fun bus => bus) soloBoard soloBoard_isBoard 0 (enableEvents [0x30046073]) rfl
    openEvents_inside (by decide) (FetchOutcome.eq_word (by decide +kernel)) rfl
    ⟨1, by decide, by decide, by decide +kernel⟩ (by decide +kernel) (by decide +kernel)
    (Or.inr (by decide +kernel))

/-! ### Claims -/

/-- An access that `rv_access_virt` hands to a region: without translation, granted by PMP,
aligned and not in RAM. -/
structure ToRegion {δ : Type} (mc : EmuConfig δ) (m : EmuMachine δ) (h : Nat) (addr : U64)
    (sizeExp : Fin 4) (mode : RvAccess) (r : EmuMmioRegion δ) : Prop where
  bare : rvIsBare (m.cpus h) mode = true
  granted : doPmpCheck (m.cpus h) addr (bit sizeExp.val) mode = .ok
  outside : ramHoldsRange mc addr (bit sizeExp.val) = false
  aligned : addr % bit sizeExp.val = 0
  found : mc.mmio.find? (·.holdsRange addr (bit sizeExp.val)) = some r

/-- It is one call of the region's device. -/
theorem ToRegion.access {δ : Type} {mc : EmuConfig δ} {m : EmuMachine δ} {h : Nat} {addr : U64}
    {sizeExp : Fin 4} {mode : RvAccess} {r : EmuMmioRegion δ} (hands : ToRegion mc m h addr sizeExp mode r)
    (data : U64) : rvAccessVirt mc m h addr data sizeExp mode =
      mmioDispatch m r addr (some data) ((bit sizeExp.val).setWidth 8) mode := by
  have granted : ¬doPmpCheck (m.cpus h) addr (bit sizeExp.val) mode ≠ .ok := not_not.mpr hands.granted
  have outside : ¬ramHoldsRange mc addr (bit sizeExp.val) = true := by
    rw [hands.outside]
    exact Bool.false_ne_true
  simp only [rvAccessVirt, rvAccessVirtBy, hands.bare, if_true, rvAccessPhys, Bool.not_false,
    Bool.true_and, decide_eq_true_eq, if_neg granted, rvAccessPhysUnchecked, if_neg outside,
    if_neg (not_not.mpr hands.aligned), hands.found]

section

variable {mc : EmuConfig BoardDevices} {m : EmuMachine BoardDevices} {h : Nat} {insn : U32}

/-- `lw` from a claim register claims for its context. -/
theorem rvBaseLoad_claim {base : U64} {ctx : Nat} (form : rvOpMajOf insn = some .load)
    (width : rvInsnFunct3 insn = 2)
    (hands : ToRegion mc m h (m.xreg h (rvInsnRs1 insn) + rvInsnImm12 insn) 2 .load
      (boardPlic mc.cpuCount base))
    (claim : m.xreg h (rvInsnRs1 insn) + rvInsnImm12 insn =
      base + BitVec.ofNat 64 (plicClaimOffset ctx))
    (context : m.device.irq.plic.hasContext ctx = true) :
    rvForcefeedInsn mc m h insn =
      (m.setBus (m.bus.putPlic (plicDoClaim mc.cpuCount m.bus.plicPart ctx).2)).writeXreg h
        (rvInsnRd insn) (BitVec.ofNat 64 (plicBestSource m.device.irq.plic ctx)) := by
  have integer : (rvInsnOpMaj insn).getLsbD 0 = false := (opMaj_float form).1 (Or.inl rfl)
  have small : ∀ v : Fin 64, rvLoadExtend 2
      (spliceLow 0 (lowBytes (BitVec.ofNat 64 v.val) (4 : U8).toNat) (4 : U8).toNat) =
        BitVec.ofNat 64 v.val := by decide
  have extended : rvLoadExtend 2 (spliceLow 0 (lowBytes (BitVec.ofNat 64
      (plicBestSource m.device.irq.plic ctx)) (4 : U8).toNat) (4 : U8).toNat) =
        BitVec.ofNat 64 (plicBestSource m.device.irq.plic ctx) :=
    small ⟨_, plicBestSource_lt m.device.irq.plic ctx⟩
  have offset : m.xreg h (rvInsnRs1 insn) + rvInsnImm12 insn - base =
      BitVec.ofNat 64 (plicClaimOffset ctx) := by
    rw [claim]
    bv_omega
  have read : (boardPlic mc.cpuCount base).read m.bus (BitVec.ofNat 64 (plicClaimOffset ctx)) 4 =
      ((true, BitVec.ofNat 64 (plicBestSource m.device.irq.plic ctx)),
        m.bus.putPlic (plicDoClaim mc.cpuCount m.bus.plicPart ctx).2) := by
    have decoded : plicDecode m.bus.plicPart.device (BitVec.ofNat 64 (plicClaimOffset ctx)) =
        .claim ctx := plicDecode_claimOffset context
    have source : (plicDoClaim mc.cpuCount m.bus.plicPart ctx).1 =
        plicBestSource m.device.irq.plic ctx := (plicDoClaim_eq context mc.cpuCount).1
    simp only [boardPlic, rvPlicMmioRegion, plicRead, decoded, source]
    rfl
  have size : (bit (2 : Fin 4).val).setWidth 8 = (4 : U8) := rfl
  have dispatched : mmioDispatch m (boardPlic mc.cpuCount base)
      (m.xreg h (rvInsnRs1 insn) + rvInsnImm12 insn) (some 0) 4 .load =
      ⟨.ok, m.setBus (m.bus.putPlic (plicDoClaim mc.cpuCount m.bus.plicPart ctx).2),
        some (spliceLow 0 (lowBytes (BitVec.ofNat 64 (plicBestSource m.device.irq.plic ctx))
          (4 : U8).toNat) (4 : U8).toNat),
        [⟨m.xreg h (rvInsnRs1 insn) + rvInsnImm12 insn, (4 : U8).setWidth 64, false⟩]⟩ := by
    have base' : (boardPlic mc.cpuCount base).base = base := rfl
    simp only [mmioDispatch, base', offset, read]
    rfl
  have legal : rvFpAccessIllegal (m.cpus h) insn = false := by
    rw [rvFpAccessIllegal, integer, Bool.false_and]
  have sized : rvLoadSizeExp 2 = some 2 := rfl
  simp only [rvForcefeedInsn, form, rvBaseLoad, legal, Bool.false_eq_true, if_false, sized,
    hands.access 0, size, dispatched, integer, width, Option.getD_some, extended]
  rfl

theorem rvCheckInterrupts_xreg (hooks : mc.NoHooks) (m : EmuMachine BoardDevices) (h : Nat)
    (index : BitVec 5) : (rvCheckInterrupts mc m h).xreg h index = m.xreg h index := by
  unfold rvCheckInterrupts
  split
  · rfl
  · rw [rvDoTrap_noHooks hooks, EmuMachine.xreg, EmuMachine.setCpu_same, rvTrapEnter]
    split <;> rfl

theorem rvCheckInterrupts_ram (hooks : mc.NoHooks) (m : EmuMachine BoardDevices) (h : Nat) :
    (rvCheckInterrupts mc m h).ram = m.ram := by
  unfold rvCheckInterrupts
  split
  · rfl
  · rw [rvDoTrap_noHooks hooks]
    rfl

/-- A fetch does not change the number of contexts. -/
theorem fetched_contexts (board : IsBoard mc) {fetched : EmuMachine BoardDevices}
    (contexts : m.device.irq.plic.numContexts = mc.cpuCount * 2)
    (word : rvFetchInsn mc m h = .word fetched insn) :
    fetched.device.irq.plic.numContexts = mc.cpuCount * 2 := by
  have reach := (rvFetchInsn_work mc m h).bus
  rw [word] at reach
  obtain ⟨s', run, same⟩ := busReach_irq (s := m.irqView) (C := fun _ _ => True) board
    (fun _ _ => trivial) (fun _ _ _ _ _ => trivial) reach rfl
  have kept := run.invariant (I := fun s => s.device.plic.numContexts = mc.cpuCount * 2)
    (fun s e before _ => (irqStep_numContexts mc.cpuCount s e).trans before) contexts
  have device : s'.device = fetched.device.irq := congrArg DeviceBus.device same
  rw [← device]
  exact kept

end

/-- On a board that has done anything since its reset inside its arrays, a step whose word is
`lw` from the claim register of a context leaves in `rd` what a claim owes the context, and
clears its pending bit; MEIP of every hart then tells whether a source still interrupts its M
context. RAM, the CLINT and the other registers stay. -/
theorem claim_serves (past : DeviceBus RvPlic → DeviceBus RvPlic) (mc : EmuConfig BoardDevices)
    (board : IsBoard mc) (few : mc.cpuCount * 2 < 2 ^ 32) (now : U64) (events : List BoardEvent)
    {m fetched : EmuMachine BoardDevices} {h ctx : Nat} {insn : U32} {base : U64}
    (reached : m = run (hostBoardStep past mc) (boardInit mc now) events)
    (stores : StepsMeet (hostBoardStep past mc) (InsideArrays mc) (boardInit mc now)
      (events ++ [.step h]))
    (word : rvFetchInsn mc m h (hostAccessVirt mc) = .word fetched insn)
    (form : rvOpMajOf insn = some .load) (width : rvInsnFunct3 insn = 2)
    (kept : rvInsnRd insn ≠ 0) (context : ctx < mc.cpuCount * 2)
    (hands : ToRegion mc fetched h (fetched.xreg h (rvInsnRs1 insn) + rvInsnImm12 insn) 2 .load
      (boardPlic mc.cpuCount base))
    (claim : fetched.xreg h (rvInsnRs1 insn) + rvInsnImm12 insn =
      base + BitVec.ofNat 64 (plicClaimOffset ctx)) :
    ClaimMeets fetched.device.irq.plic ctx ((hostStepInsn mc m h).xreg h (rvInsnRd insn)).toNat
        (hostStepInsn mc m h).device.irq.plic ∧
      (∀ g < mc.cpuCount,
        (((hostStepInsn mc m h).cpus g).irqPending.getLsbD rvMipMeipBit = true ↔
          (hostStepInsn mc m h).device.irq.plic.Interrupts (2 * g))) ∧
      (hostStepInsn mc m h).ram = fetched.ram ∧
      (hostStepInsn mc m h).device.irq.clint = fetched.device.irq.clint ∧
      ∀ j, j ≠ rvInsnRd insn → (hostStepInsn mc m h).xreg h j = fetched.xreg h j := by
  obtain ⟨earlier, last, _⟩ := (stepsMeet_append _ _ _).mp stores
  rw [← reached] at last
  rw [hostBoardRun_eq earlier] at reached
  rw [hostFetchInsn_eq (fetched_inArray last)] at word
  rw [hostStepInsn_eq last]
  have contexts : fetched.device.irq.plic.numContexts = mc.cpuCount * 2 := by
    refine fetched_contexts board ?_ word
    rw [reached]
    exact board_contexts board now events
  have present : fetched.device.irq.plic.hasContext ctx = true := by
    rw [RvPlic.hasContext, contexts, decide_eq_true_eq, Nat.mod_eq_of_lt few]
    exact context
  have executed := rvBaseLoad_claim form width hands claim present
  have stepped : rvStepInsn mc m h =
      rvCheckInterrupts mc (rvForcefeedInsn mc fetched h insn) h := by
    rw [rvStepInsn, rvStepInsnBy, word]
  have device : (rvStepInsn mc m h).device =
      (fetched.bus.putPlic (plicDoClaim mc.cpuCount fetched.bus.plicPart ctx).2).device := by
    have same := congrArg DeviceBus.device (rvCheckInterrupts_bus board.hooks
      (rvForcefeedInsn mc fetched h insn) h)
    rw [← stepped] at same
    rw [executed] at same
    exact same
  have registers : ∀ j, (rvStepInsn mc m h).xreg h j =
      if j = rvInsnRd insn then
        BitVec.ofNat 64 (plicBestSource fetched.device.irq.plic ctx) else fetched.xreg h j := by
    intro j
    rw [stepped, rvCheckInterrupts_xreg board.hooks, executed]
    simp only [EmuMachine.xreg, EmuMachine.writeXreg, EmuMachine.setCpu_same, rvXregRead,
      rvXregWrite, if_pos kept, Function.update_apply]
    rfl
  refine ⟨?_, ?_, ?_, ?_, ?_⟩
  · have small := plicBestSource_lt fetched.device.irq.plic ctx
    have after := (@plicDoClaim_eq fetched.bus.plicPart ctx present mc.cpuCount).2
    have source : ((rvStepInsn mc m h).xreg h (rvInsnRd insn)).toNat =
        plicBestSource fetched.device.irq.plic ctx := by
      rw [registers, if_pos rfl, BitVec.toNat_ofNat, Nat.mod_eq_of_lt (by omega)]
    have plic : (rvStepInsn mc m h).device.irq.plic =
        (plicDoClaim mc.cpuCount fetched.bus.plicPart ctx).2.device := by
      rw [device]
      rfl
    rw [source, plic, after]
    exact claimMeets_bestSource fetched.device.irq.plic ctx
  · have follows := board_meip board now (events ++ [.step h])
    rw [run_append, ← reached] at follows
    exact follows
  · rw [stepped, rvCheckInterrupts_ram board.hooks, executed]
    rfl
  · rw [device]
    rfl
  · intro j other
    rw [registers, if_neg other]

/-- `lui x6, 0xc200; lw x5, 4(x6)` in place of the last two words. -/
def claimWords : List U32 :=
  [0x0c0000b7, 0x00200113, 0x0020a223, 0x0c0021b7, 0x0021a023, 0x0c200337, 0x00432283]

def claimEvents : List BoardEvent :=
  [.load (programRam claimWords), .raise 1] ++ List.replicate 6 (.step 0)

/-- The hart before the load. -/
def claimHart : EmuMachine BoardDevices :=
  run (hostBoardStep (fun bus => bus) soloBoard) (boardInit soloBoard 0) claimEvents

/-- The hart that has fetched it. -/
def claimingHart : EmuMachine BoardDevices :=
  (rvFetchInsn soloBoard claimHart 0 (hostAccessVirt soloBoard)).machine

theorem claimEvents_inside :
    StepsMeet (hostBoardStep (fun bus => bus) soloBoard) (InsideArrays soloBoard)
      (boardInit soloBoard 0) (claimEvents ++ [.step 0]) :=
  insideArrays_run (fun _ => rfl) (emuMachineInit_inArray _) (by decide +kernel)

theorem claim_serves_one :
    ClaimMeets claimingHart.device.irq.plic 0
        ((hostStepInsn soloBoard claimHart 0).xreg 0 (rvInsnRd 0x00432283)).toNat
        (hostStepInsn soloBoard claimHart 0).device.irq.plic ∧
      (∀ g < soloBoard.cpuCount,
        (((hostStepInsn soloBoard claimHart 0).cpus g).irqPending.getLsbD rvMipMeipBit = true ↔
          (hostStepInsn soloBoard claimHart 0).device.irq.plic.Interrupts (2 * g))) ∧
      (hostStepInsn soloBoard claimHart 0).ram = claimingHart.ram ∧
      (hostStepInsn soloBoard claimHart 0).device.irq.clint = claimingHart.device.irq.clint ∧
      ∀ j, j ≠ rvInsnRd 0x00432283 → (hostStepInsn soloBoard claimHart 0).xreg 0 j =
        claimingHart.xreg 0 j := by
  have word : rvFetchInsn soloBoard claimHart 0 (hostAccessVirt soloBoard) =
      .word claimingHart 0x00432283 := FetchOutcome.eq_word (by decide +kernel)
  have address : claimingHart.xreg 0 (rvInsnRs1 0x00432283) + rvInsnImm12 0x00432283 =
      0xc200004 := by decide +kernel
  have region : ToRegion soloBoard claimingHart 0 0xc200004 2 .load
      (boardPlic soloBoard.cpuCount 0xc000000) :=
    ⟨by decide +kernel, by decide +kernel, by decide, by decide, rfl⟩
  have claim : (0xc200004 : U64) = 0xc000000 + BitVec.ofNat 64 (plicClaimOffset 0) := by decide
  rw [← address] at region claim
  exact claim_serves (fun bus => bus) soloBoard soloBoard_isBoard (by decide) 0 claimEvents rfl
    claimEvents_inside word (by decide) (by decide) (by decide) (by decide) region claim

end Riscmulator
