import Riscmulator.Runs

/-! Two machines in lockstep: where memory accesses come to the same in both, so do
instructions and steps. The relation between the machines is left open. -/

namespace Riscmulator

variable {δ δ' : Type}

/-- Two set-ups that differ in memory and hooks at most. -/
structure SameHost (mc : EmuConfig δ) (mc' : EmuConfig δ') : Prop where
  cpuCount : mc'.cpuCount = mc.cpuCount
  exactMath : mc'.rvFloatExactMath = mc.rvFloatExactMath
  fpu : mc'.fpu = mc.fpu
  softfloat : mc'.softfloat = mc.softfloat

/-- An access that came to the same in both machines. -/
structure AlikeOut (R : EmuMachine δ → EmuMachine δ' → Prop) (out : MemOutcome δ)
    (out' : MemOutcome δ') : Prop where
  res : out'.res = out.res
  data : out'.data = out.data
  machine : R out.machine out'.machine

/-- A relation of machines that agree in all but memory. -/
structure AlikeHarts (R : EmuMachine δ → EmuMachine δ' → Prop) : Prop where
  cpus : ∀ {m m'}, R m m' → m'.cpus = m.cpus
  reservations : ∀ {m m'}, R m m' → m'.reservations = m.reservations
  feround : ∀ {m m'}, R m m' → m'.feround = m.feround
  setCpu : ∀ {m m'}, R m m' → ∀ h cpu, R (m.setCpu h cpu) (m'.setCpu h cpu)
  setReservations : ∀ {m m'}, R m m' → ∀ reservations,
    R { m with reservations := reservations } { m' with reservations := reservations }
  setFeround : ∀ {m m'}, R m m' → ∀ h round, R (m.setFeround h round) (m'.setFeround h round)
  abort : ∀ {m m'}, R m m' → R { m with aborted := true } { m' with aborted := true }

/-- What such a relation needs for instructions to keep it. `P` is what a hart must meet for
its accesses to come to the same. -/
structure Lockstep (mc : EmuConfig δ) (mc' : EmuConfig δ')
    (R : EmuMachine δ → EmuMachine δ' → Prop) (P : EmuMachine δ → Nat → Prop) : Prop
    extends AlikeHarts R where
  hooks : mc.NoHooks
  hooks' : mc'.NoHooks
  host : SameHost mc mc'
  steps : ∀ {m last h}, P m h → MicroSteps mc h m last → P last h
  access : ∀ {m m' h}, R m m' → P m h → ∀ vaddr data sizeExp mode,
    AlikeOut R (rvAccessVirt mc m h vaddr data sizeExp mode)
      (rvAccessVirt mc' m' h vaddr data sizeExp mode)

/-! ### What does not depend on memory -/

section Host

variable {mc : EmuConfig δ} {mc' : EmuConfig δ'}

theorem SameHost.inval (same : SameHost mc mc') :
    rvInvalReservations mc' = rvInvalReservations mc := by
  funext reservations addr i
  simp only [rvInvalReservations, same.cpuCount]

theorem SameHost.compare (same : SameHost mc mc') : rvFloatCompare mc' = rvFloatCompare mc := by
  funext cpu insn f64
  simp only [rvFloatCompare, same.fpu]

theorem SameHost.minMax (same : SameHost mc mc') : rvFloatMinMax mc' = rvFloatMinMax mc := by
  funext cpu round insn f64
  simp only [rvFloatMinMax, rvFloatMinMaxResult, same.fpu]

theorem SameHost.env (same : SameHost mc mc') : rvFloatEnv mc' = rvFloatEnv mc := by
  funext cpu insn current
  simp only [rvFloatEnv, same.exactMath]

theorem SameHost.binop (same : SameHost mc mc') : rvFloatBinop mc' = rvFloatBinop mc := by
  funext op cpu insn env f64
  simp only [rvFloatBinop, same.fpu, same.softfloat]

theorem SameHost.rounded (same : SameHost mc mc') : rvFloatRounded mc' = rvFloatRounded mc := by
  funext cpu insn env f64
  simp only [rvFloatRounded, rvFloatAdd, rvFloatSub, rvFloatMul, rvFloatDiv, rvFloatSqrt,
    rvFloatFtof, rvFloatXtof, rvFloatFtox, ftoxHelper, rvFloatMvxfFclass, same.binop, same.fpu,
    same.softfloat]

theorem SameHost.fused (same : SameHost mc mc') : rvFloatFused mc' = rvFloatFused mc := by
  funext cpu insn env f64
  simp only [rvFloatFused, same.fpu, same.softfloat]

end Host

section Handlers

variable {mc : EmuConfig δ} {mc' : EmuConfig δ'} {R : EmuMachine δ → EmuMachine δ' → Prop}
  {P : EmuMachine δ → Nat → Prop} {m : EmuMachine δ} {m' : EmuMachine δ'} {h : Nat} {insn : U32}

/-! ### Cores -/

theorem Lockstep.xreg (lock : Lockstep mc mc' R P) (alike : R m m') (h : Nat) :
    m'.xreg h = m.xreg h := by
  funext index
  rw [EmuMachine.xreg, EmuMachine.xreg, lock.cpus alike]

theorem Lockstep.writeXreg (lock : Lockstep mc mc' R P) (alike : R m m') (h : Nat)
    (index : BitVec 5) (value : U64) :
    R (m.writeXreg h index value) (m'.writeXreg h index value) := by
  rw [EmuMachine.writeXreg, EmuMachine.writeXreg, lock.cpus alike]
  exact lock.setCpu alike h _

theorem Lockstep.setPc (lock : Lockstep mc mc' R P) (alike : R m m') (h : Nat) (pc : U64) :
    R (m.setPc h pc) (m'.setPc h pc) := by
  rw [EmuMachine.setPc, EmuMachine.setPc, lock.cpus alike]
  exact lock.setCpu alike h _

/-! ### Traps -/

theorem Lockstep.doTrap (lock : Lockstep mc mc' R P) (alike : R m m') (h : Nat)
    (trap : RvTrap) : R (rvDoTrap mc m h trap) (rvDoTrap mc' m' h trap) := by
  rw [rvDoTrap_noHooks lock.hooks, rvDoTrap_noHooks lock.hooks', lock.cpus alike]
  exact lock.setCpu alike h _

theorem Lockstep.doIillegal (lock : Lockstep mc mc' R P) (alike : R m m') (h : Nat)
    (insn : U32) : R (rvDoIillegal mc m h insn) (rvDoIillegal mc' m' h insn) := by
  rw [rvDoIillegal, rvDoIillegal, lock.cpus alike]
  exact lock.doTrap alike h _

theorem Lockstep.memTrap (lock : Lockstep mc mc' R P) (alike : R m m') (h : Nat)
    (r : RvMemResult) (mode : RvAccess) (addr : U64) :
    R (rvMemTrap mc m h r mode addr) (rvMemTrap mc' m' h r mode addr) := by
  rw [rvMemTrap, rvMemTrap, lock.cpus alike]
  exact lock.doTrap alike h _

theorem Lockstep.checkInterrupts (lock : Lockstep mc mc' R P) (alike : R m m') (h : Nat) :
    R (rvCheckInterrupts mc m h) (rvCheckInterrupts mc' m' h) := by
  simp only [rvCheckInterrupts, lock.cpus alike]
  split
  · exact alike
  · exact lock.doTrap alike h _

/-! ### Integer instructions -/

theorem Lockstep.baseOp (lock : Lockstep mc mc' R P) (alike : R m m') :
    R (rvBaseOp mc m h insn) (rvBaseOp mc' m' h insn) := by
  simp only [rvBaseOp, rvMuldivOp, lock.xreg alike]
  split
  · split
    · exact lock.doIillegal alike h insn
    · exact lock.writeXreg alike h _ _
  · exact lock.writeXreg alike h _ _

theorem Lockstep.baseLoad (lock : Lockstep mc mc' R P) (alike : R m m') (ready : P m h) :
    R (rvBaseLoad mc m h insn) (rvBaseLoad mc' m' h insn) := by
  simp only [rvBaseLoad, lock.cpus alike, lock.xreg alike]
  split
  · exact lock.doIillegal alike h insn
  split
  · exact lock.doIillegal alike h insn
  · next sizeExp _ =>
      have out := lock.access alike ready (m.xreg h (rvInsnRs1 insn) + rvInsnImm12 insn) 0 sizeExp
        .load
      rw [out.res, out.data]
      split
      · exact lock.memTrap out.machine h _ _ _
      split
      · rw [lock.cpus out.machine]
        exact lock.setCpu out.machine h _
      · exact lock.writeXreg out.machine h _ _

theorem Lockstep.baseStore (lock : Lockstep mc mc' R P) (alike : R m m') (ready : P m h) :
    R (rvBaseStore mc m h insn) (rvBaseStore mc' m' h insn) := by
  simp only [rvBaseStore, lock.cpus alike, lock.xreg alike]
  split
  · exact lock.doIillegal alike h insn
  · generalize (if (rvInsnOpMaj insn).getLsbD 0 = true then rvFregRead (m.cpus h) (rvInsnRs2 insn)
      else m.xreg h (rvInsnRs2 insn)) = data
    have out := lock.access alike ready (m.xreg h (rvInsnRs1 insn) + rvInsnSImm12 insn) data
      (rvStoreSizeExp (rvInsnFunct3 insn)) .store
    rw [out.res]
    split
    · exact lock.memTrap out.machine h _ _ _
    · exact out.machine

theorem Lockstep.baseBranch (lock : Lockstep mc mc' R P) (alike : R m m') :
    R (rvBaseBranch mc m h insn) (rvBaseBranch mc' m' h insn) := by
  simp only [rvBaseBranch, lock.cpus alike, lock.xreg alike]
  split
  · exact lock.doIillegal alike h insn
  · exact lock.setPc alike h _
  · exact alike

theorem Lockstep.baseJal (lock : Lockstep mc mc' R P) (alike : R m m') :
    R (rvBaseJal m h insn) (rvBaseJal m' h insn) := by
  simp only [rvBaseJal, lock.cpus alike]
  exact lock.setPc (lock.writeXreg alike h _ _) h _

theorem Lockstep.baseJalr (lock : Lockstep mc mc' R P) (alike : R m m') :
    R (rvBaseJalr m h insn) (rvBaseJalr m' h insn) := by
  simp only [rvBaseJalr, lock.cpus alike, lock.xreg alike]
  exact lock.setPc (lock.writeXreg alike h _ _) h _

theorem Lockstep.baseLui (lock : Lockstep mc mc' R P) (alike : R m m') :
    R (rvBaseLui m h insn) (rvBaseLui m' h insn) := by
  simp only [rvBaseLui, lock.cpus alike]
  exact lock.writeXreg alike h _ _

theorem Lockstep.doCsr (lock : Lockstep mc mc' R P) (alike : R m m') :
    R (doCsr mc m h insn) (Riscmulator.doCsr mc' m' h insn) := by
  simp only [Riscmulator.doCsr, lock.cpus alike]
  split
  · exact lock.doIillegal alike h insn
  split
  · exact lock.doIillegal alike h insn
  split
  · exact lock.doIillegal alike h insn
  · exact lock.setCpu alike h _

theorem Lockstep.baseSystem (lock : Lockstep mc mc' R P) (alike : R m m') :
    R (rvBaseSystem mc m h insn) (rvBaseSystem mc' m' h insn) := by
  have illegal := lock.doIillegal alike h insn
  simp only [rvBaseSystem, lock.cpus alike]
  split
  · exact lock.doCsr alike
  split
  · exact lock.setCpu alike h _
  split
  · split
    · exact illegal
    · exact lock.setCpu alike h _
  split
  · split
    · exact illegal
    · exact alike
  split
  · split
    · exact illegal
    · exact lock.setCpu alike h _
  split
  · split
    · have aborted := lock.abort alike
      rwa [lock.cpus alike] at aborted
    · exact lock.doTrap alike h _
  split
  · exact lock.doTrap alike h _
  · exact illegal

/-! ### Atomics -/

/-- An outcome of an atomic instruction that came to the same in both machines. -/
inductive AlikeAtomic (R : EmuMachine δ → EmuMachine δ' → Prop) :
    AtomicOutcome δ → AtomicOutcome δ' → Prop
  | iillegal {m : EmuMachine δ} {m' : EmuMachine δ'} (alike : R m m') :
      AlikeAtomic R (.iillegal m) (.iillegal m')
  | trap {m : EmuMachine δ} {m' : EmuMachine δ'} (alike : R m m') (trap : RvTrap) :
      AlikeAtomic R (.trap m trap) (.trap m' trap)
  | lr {m : EmuMachine δ} {m' : EmuMachine δ'} (alike : R m m') (addr val : U64) :
      AlikeAtomic R (.lr m addr val) (.lr m' addr val)
  | sc {m : EmuMachine δ} {m' : EmuMachine δ'} (alike : R m m') (addr : U64) (success : Bool) :
      AlikeAtomic R (.sc m addr success) (.sc m' addr success)
  | amo {m : EmuMachine δ} {m' : EmuMachine δ'} (alike : R m m') (addr old : U64) :
      AlikeAtomic R (.amo m addr old) (.amo m' addr old)

theorem Lockstep.atomicFault (lock : Lockstep mc mc' R P) (alike : R m m') (h : Nat)
    (r : RvMemResult) (mode : RvAccess) (addr : U64) :
    AlikeAtomic R (rvAtomicFault m h r mode addr) (rvAtomicFault m' h r mode addr) := by
  rw [rvAtomicFault, rvAtomicFault, lock.cpus alike]
  exact .trap alike _

theorem Lockstep.atomicLr (lock : Lockstep mc mc' R P) (alike : R m m') (ready : P m h)
    (addr : U64) : AlikeAtomic R (rvAtomicLr mc m h insn addr) (rvAtomicLr mc' m' h insn addr) := by
  have out := lock.access alike ready addr 0 (rvAtomicSizeExp insn) .load
  simp only [rvAtomicLr, out.res, out.data, lock.cpus alike, lock.reservations out.machine]
  split
  · exact .iillegal alike
  split
  · exact lock.atomicFault out.machine h _ _ _
  · exact .lr (lock.setReservations out.machine _) _ _

theorem Lockstep.atomicSc (lock : Lockstep mc mc' R P) (alike : R m m') (ready : P m h)
    (addr : U64) : AlikeAtomic R (rvAtomicSc mc m h insn addr) (rvAtomicSc mc' m' h insn addr) := by
  have out := lock.access alike ready addr (m.xreg h (rvInsnRs2 insn)) (rvAtomicSizeExp insn) .store
  simp only [rvAtomicSc, lock.cpus alike, lock.reservations alike, lock.xreg alike, out.res,
    lock.reservations out.machine]
  split
  · split
    · exact lock.atomicFault out.machine h _ _ _
    · exact .sc (lock.setReservations out.machine _) _ _
  · exact .sc alike _ _

theorem Lockstep.atomicAmo (lock : Lockstep mc mc' R P) (alike : R m m') (ready : P m h)
    (addr : U64) :
    AlikeAtomic R (rvAtomicAmo mc m h insn addr) (rvAtomicAmo mc' m' h insn addr) := by
  have out := lock.access alike ready addr 0 (rvAtomicSizeExp insn) .amo
  have after := lock.steps ready (rvAccessVirt_steps mc m h addr 0 (rvAtomicSizeExp insn) .amo)
  simp only [rvAtomicAmo, lock.xreg alike, out.res, out.data]
  split
  · exact lock.atomicFault out.machine h _ _ _
  split
  · exact .iillegal out.machine
  · next newval _ =>
      have stored := lock.access out.machine after addr newval (rvAtomicSizeExp insn) .store
      rw [stored.res, lock.reservations stored.machine, lock.host.inval]
      split
      · exact lock.atomicFault stored.machine h _ _ _
      · exact .amo (lock.setReservations stored.machine _) _ _

theorem Lockstep.atomicOp (lock : Lockstep mc mc' R P) (alike : R m m') (ready : P m h) :
    R (rvAtomicOp mc m h insn) (rvAtomicOp mc' m' h insn) := by
  have executed : AlikeAtomic R (rvAtomicExec mc m h insn) (rvAtomicExec mc' m' h insn) := by
    simp only [rvAtomicExec, lock.xreg alike, lock.cpus alike]
    generalize (if rvInsnFunct3 insn = 2 then (3 : U64) else 7) = mask
    split
    · exact .iillegal alike
    split
    · exact .trap alike _
    split
    · exact lock.atomicLr alike ready _
    split
    · exact lock.atomicSc alike ready _
    · exact lock.atomicAmo alike ready _
  rw [rvAtomicOp, rvAtomicOp]
  revert executed
  generalize rvAtomicExec mc m h insn = outcome
  generalize rvAtomicExec mc' m' h insn = outcome'
  intro executed
  cases executed with
  | iillegal alike => exact lock.doIillegal alike h insn
  | trap alike trap => exact lock.doTrap alike h trap
  | lr alike addr val => exact lock.writeXreg alike h _ _
  | sc alike addr success => exact lock.writeXreg alike h _ _
  | amo alike addr old => exact lock.writeXreg alike h _ _

/-! ### Floating point -/

theorem Lockstep.floatOpFp (lock : Lockstep mc mc' R P) (alike : R m m') :
    R (rvFloatOpFp mc m h insn) (rvFloatOpFp mc' m' h insn) := by
  have illegal := lock.doIillegal alike h insn
  simp only [rvFloatOpFp, lock.cpus alike, lock.feround alike, lock.host.compare,
    lock.host.minMax, lock.host.env, lock.host.rounded]
  split
  · exact illegal
  split
  · exact illegal
  split
  · split
    · exact illegal
    · exact lock.setCpu alike h _
  split
  · split
    · exact illegal
    · exact lock.setCpu alike h _
  split
  · split
    · exact lock.doIillegal (lock.setCpu alike h _) h insn
    · exact lock.setCpu alike h _
  split
  · exact lock.doIillegal (lock.setFeround alike h _) h insn
  · exact lock.setCpu (lock.setFeround alike h _) h _

theorem Lockstep.floatFmadd (lock : Lockstep mc mc' R P) (alike : R m m') :
    R (rvFloatFmadd mc m h insn) (rvFloatFmadd mc' m' h insn) := by
  simp only [rvFloatFmadd, lock.cpus alike, lock.feround alike, lock.host.env, lock.host.fused]
  split
  · exact lock.doIillegal alike h insn
  split
  · exact lock.doIillegal alike h insn
  · exact lock.setCpu (lock.setFeround alike h _) h _

/-! ### Steps -/

theorem Lockstep.forcefeedInsn (lock : Lockstep mc mc' R P) (alike : R m m')
    (ready : P m h) : R (rvForcefeedInsn mc m h insn) (rvForcefeedInsn mc' m' h insn) := by
  unfold rvForcefeedInsn
  split
  · exact lock.baseOp alike
  · exact lock.baseOp alike
  · exact lock.baseOp alike
  · exact lock.baseOp alike
  · exact lock.baseLoad alike ready
  · exact lock.baseLoad alike ready
  · exact lock.baseStore alike ready
  · exact lock.baseStore alike ready
  · exact lock.baseJal alike
  · exact lock.baseJalr alike
  · exact lock.baseLui alike
  · exact lock.baseLui alike
  · exact lock.baseSystem alike
  · exact lock.baseBranch alike
  · exact alike
  · exact lock.atomicOp alike ready
  · exact lock.floatOpFp alike
  · exact lock.floatFmadd alike
  · exact lock.floatFmadd alike
  · exact lock.floatFmadd alike
  · exact lock.floatFmadd alike
  · exact lock.doIillegal alike h insn

/-- A fetch that came to the same in both machines. -/
inductive AlikeFetch (R : EmuMachine δ → EmuMachine δ' → Prop) :
    FetchOutcome δ → FetchOutcome δ' → Prop
  | fault {m : EmuMachine δ} {m' : EmuMachine δ'} (alike : R m m') (trap : RvTrap) :
      AlikeFetch R (.fault m trap) (.fault m' trap)
  | illegal {m : EmuMachine δ} {m' : EmuMachine δ'} (alike : R m m') (hw : U16) :
      AlikeFetch R (.illegal m hw) (.illegal m' hw)
  | word {m : EmuMachine δ} {m' : EmuMachine δ'} (alike : R m m') (insn : U32) :
      AlikeFetch R (.word m insn) (.word m' insn)

theorem Lockstep.fetched (lock : Lockstep mc mc' R P) (alike : R m m') (insn : U32) (len : U64) :
    AlikeFetch R (rvFetched m h insn len) (rvFetched m' h insn len) := by
  rw [rvFetched, rvFetched, lock.cpus alike]
  exact .word (lock.setCpu alike h _) insn

theorem Lockstep.fetchInsn (lock : Lockstep mc mc' R P) (alike : R m m') (ready : P m h) :
    AlikeFetch R (rvFetchInsn mc m h) (rvFetchInsn mc' m' h) := by
  have first := lock.access alike ready (m.cpus h).pc 0 1 .insn
  have after := lock.steps ready (rvAccessVirt_steps mc m h (m.cpus h).pc 0 1 .insn)
  have second := lock.access first.machine after ((m.cpus h).pc + 2) 0 1 .insn
  simp only [rvFetchInsn, rvAccessVirt_pc, lock.cpus alike, first.res, first.data,
    lock.cpus first.machine]
  split
  · exact .fault first.machine _
  split
  · split
    · exact .illegal (lock.setCpu first.machine h _) _
    · exact lock.fetched first.machine _ _
  · rw [second.res, second.data]
    split
    · exact .fault second.machine _
    · exact lock.fetched second.machine _ _

/-- A step of a hart keeps the relation. -/
theorem Lockstep.stepInsn (lock : Lockstep mc mc' R P) (alike : R m m') (ready : P m h) :
    R (rvStepInsn mc m h) (rvStepInsn mc' m' h) := by
  have fetched := lock.fetchInsn alike ready
  have after := lock.steps ready (rvFetchInsn_steps mc m h)
  unfold rvStepInsn rvStepInsnBy
  revert fetched after
  generalize rvFetchInsn mc m h = outcome
  generalize rvFetchInsn mc' m' h = outcome'
  intro fetched after
  cases fetched with
  | fault alike trap => exact lock.doTrap alike h trap
  | illegal alike hw => exact lock.doIillegal alike h _
  | word alike insn => exact lock.checkInterrupts (lock.forcefeedInsn alike after) h

end Handlers

end Riscmulator
