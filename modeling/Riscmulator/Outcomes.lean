import Riscmulator.Compressed

/-! What executing one instruction word comes to, with its effect on every
register: a next machine, or a trap taken on a machine. -/

namespace Riscmulator

variable {δ : Type}

/-! ### Outcomes -/

/-- The machine after a word, or the machine that a trap is taken on. -/
inductive ExecOutcome (δ : Type)
  | next (m : EmuMachine δ)
  | trap (m : EmuMachine δ) (trap : RvTrap)

def ExecOutcome.finish (mc : EmuConfig δ) (h : Nat) : ExecOutcome δ → EmuMachine δ
  | .next m => m
  | .trap m raised => rvDoTrap mc m h raised

/-- Memory, devices, TLBs and interrupt lines may differ, nothing else of any core. -/
def CoresKept (m m' : EmuMachine δ) : Prop := ∀ i, CoreFrame (m.cpus i) (m'.cpus i)

theorem CoresKept.refl (m : EmuMachine δ) : CoresKept m m := fun _ => CoreFrame.refl _

theorem CoresKept.trans {first second third : EmuMachine δ} (left : CoresKept first second)
    (right : CoresKept second third) : CoresKept first third := fun i => (left i).trans (right i)

theorem coresKept_setCpu (m : EmuMachine δ) {h : Nat} {cpu : RvCpu}
    (frame : CoreFrame (m.cpus h) cpu) : CoresKept m (m.setCpu h cpu) := by
  intro i
  by_cases mine : i = h
  · subst mine
    rw [EmuMachine.setCpu_same]
    exact frame
  · rw [EmuMachine.setCpu_other _ _ mine]
    exact CoreFrame.refl _

/-- Floating point is on, and this is the format of the operands. -/
structure FpFormat (cpu : RvCpu) (insn : U32) (f64 : Bool) : Prop where
  on : rvCheckXs cpu.csr.mstatus rvStatusFsBaseBit = true
  format : rvFloatFormat insn = some f64

/-- The computations under the OP-FP major opcode. -/
inductive FpComputes (mc : EmuConfig δ) (m : EmuMachine δ) (h : Nat) (insn : U32) (f64 : Bool) :
    EmuMachine δ → Prop
  | compare {cpu : RvCpu} (op : rvInsnFunct5 insn = 0b10100)
      (computed : rvFloatCompare mc (m.cpus h) insn f64 = some cpu) :
      FpComputes mc m h insn f64 (m.setCpu h cpu)
  | sgnj {cpu : RvCpu} (op : rvInsnFunct5 insn = 0b00100)
      (computed : rvFloatSgnj (m.cpus h) insn f64 = some cpu) :
      FpComputes mc m h insn f64 (m.setCpu h cpu)
  | minMax (op : rvInsnFunct5 insn = 0b00101)
      (legal : (rvFloatMinMax mc (m.cpus h) (m.feround h) insn f64).2 = false) :
      FpComputes mc m h insn f64 (m.setCpu h (rvFloatMinMax mc (m.cpus h) (m.feround h) insn f64).1)
  | rounded {env : FpEnv} {out : RvCpu × FpFlags}
      (chosen : rvFloatEnv mc (m.cpus h) insn (m.feround h) = env)
      (computed : rvFloatRounded mc (m.cpus h) insn env f64 = some out) :
      FpComputes mc m h insn f64 (rvFloatFinish (m.setFeround h env.round) h env out)

/-- What executing a word on hart `h` comes to. No outcome depends on a trap hook. -/
inductive Executes (mc : EmuConfig δ) (m : EmuMachine δ) (h : Nat) (insn : U32) :
    ExecOutcome δ → Prop
  | kept {m' : EmuMachine δ} (kept : CoresKept m m') : Executes mc m h insn (.next m')
  | xreg {m' : EmuMachine δ} (kept : CoresKept m m') (value : U64) :
      Executes mc m h insn (.next (m'.writeXreg h (rvInsnRd insn) value))
  | jump (value target : U64)
      (even : (m.cpus h).epc.getLsbD 0 = false → target.getLsbD 0 = false) :
      Executes mc m h insn (.next ((m.writeXreg h (rvInsnRd insn) value).setPc h target))
  | branch (target : U64)
      (even : (m.cpus h).epc.getLsbD 0 = false → target.getLsbD 0 = false) :
      Executes mc m h insn (.next (m.setPc h target))
  | fpLoad {m' : EmuMachine δ} (kept : CoresKept m m') (form : rvOpMajOf insn = some .loadFp)
      (legal : rvFpAccessIllegal (m.cpus h) insn = false) (value : U64) :
      Executes mc m h insn
        (.next (m'.setCpu h (rvFregWrite (m'.cpus h) (rvInsnRd insn) value)))
  | opFp {f64 : Bool} {m' : EmuMachine δ} (form : rvOpMajOf insn = some .opFp)
      (format : FpFormat (m.cpus h) insn f64) (computes : FpComputes mc m h insn f64 m') :
      Executes mc m h insn (.next m')
  | fused {f64 : Bool} {env : FpEnv}
      (form : rvOpMajOf insn ∈ [some .madd, some .nmadd, some .msub, some .nmsub])
      (format : FpFormat (m.cpus h) insn f64)
      (chosen : rvFloatEnv mc (m.cpus h) insn (m.feround h) = env) :
      Executes mc m h insn (.next (rvFloatFinish (m.setFeround h env.round) h env
        (rvFloatFused mc (m.cpus h) insn env f64)))
  | csr {rdata : U64} {cpu : RvCpu} (form : IsCsrInsn insn)
      (read : doCsrRead (m.cpus h) insn = some rdata)
      (written : doCsrWrite (m.cpus h) insn rdata = some cpu) :
      Executes mc m h insn (.next (m.setCpu h (rvXregWrite cpu (rvInsnRd insn) rdata)))
  | mret (word : insn = 0x30200073) (machine : (m.cpus h).privilege = 3) :
      Executes mc m h insn (.next (m.setCpu h (rvMret (m.cpus h))))
  | sret (word : insn = 0x10200073)
      (legal : rvSupervisorIllegal (m.cpus h) rvStatusTsrBit = false) :
      Executes mc m h insn (.next (m.setCpu h (rvSret (m.cpus h))))
  | abort (level : rvEcallCause (m.cpus h).privilege = none) :
      Executes mc m h insn (.next { m with aborted := true })
  | trap {m' : EmuMachine δ} {trap : RvTrap} (kept : CoresKept m m')
      (epc : trap.epc = (m.cpus h).epc) (exception : trap.isInterrupt = false) :
      Executes mc m h insn (.trap m' trap)
  /-- FMIN and FMAX with a reserved `funct3`: a flag may have been set before. -/
  | minMax {f64 : Bool} (form : rvOpMajOf insn = some .opFp)
      (format : FpFormat (m.cpus h) insn f64) (op : rvInsnFunct5 insn = 0b00101)
      (illegal : (rvFloatMinMax mc (m.cpus h) (m.feround h) insn f64).2 = true) :
      Executes mc m h insn
        (.trap (m.setCpu h (rvFloatMinMax mc (m.cpus h) (m.feround h) insn f64).1)
          ⟨(m.cpus h).epc, insn.setWidth 64, RvCause.iillegal.code⟩)

/-- Under every set of hooks, a computation comes to the same outcome. -/
def ComesTo (mc : EmuConfig δ) (m : EmuMachine δ) (h : Nat) (insn : U32)
    (compute : EmuConfig δ → EmuMachine δ) : Prop :=
  ∃ out, Executes mc m h insn out ∧
    ∀ hooks, compute (mc.hooked hooks) = out.finish (mc.hooked hooks) h

section Handlers

variable {mc : EmuConfig δ} {m m' : EmuMachine δ} {h : Nat} {insn : U32}
  {compute compute' : EmuConfig δ → EmuMachine δ}

theorem ComesTo.next (executes : Executes mc m h insn (.next m'))
    (same : ∀ hooks, compute (mc.hooked hooks) = m') : ComesTo mc m h insn compute :=
  ⟨.next m', executes, same⟩

theorem ComesTo.congr (comes : ComesTo mc m h insn compute')
    (same : ∀ hooks, compute (mc.hooked hooks) = compute' (mc.hooked hooks)) :
    ComesTo mc m h insn compute := by
  rcases comes with ⟨out, executes, finished⟩
  exact ⟨out, executes, fun hooks => (same hooks).trans (finished hooks)⟩

theorem RvCause.isInterrupt (cause : RvCause) (epc tval : U64) :
    (RvTrap.mk epc tval cause.code).isInterrupt = false := by
  have low : ¬cause.code >>> 63 ≠ 0 := by cases cause <;> decide
  exact decide_eq_false low

theorem comesTo_trap (kept : CoresKept m m') (cause : RvCause) (tval : U64) :
    ComesTo mc m h insn fun mc => rvDoTrap mc m' h ⟨(m'.cpus h).epc, tval, cause.code⟩ :=
  ⟨.trap m' _, .trap kept (kept h).epc (cause.isInterrupt _ _), fun _ => rfl⟩

theorem comesTo_illegal (kept : CoresKept m m') :
    ComesTo mc m h insn fun mc => rvDoIillegal mc m' h insn :=
  comesTo_trap kept .iillegal _

theorem comesTo_memTrap (kept : CoresKept m m') (r : RvMemResult) (mode : RvAccess) (addr : U64) :
    ComesTo mc m h insn fun mc => rvMemTrap mc m' h r mode addr :=
  comesTo_trap kept (rvMemCause r mode) addr

theorem coresKept_access (mc : EmuConfig δ) (m : EmuMachine δ) (h : Nat) (vaddr data : U64)
    (sizeExp : Fin 4) (mode : RvAccess) :
    CoresKept m (rvAccessVirt mc m h vaddr data sizeExp mode).machine :=
  (rvAccessVirt_frame mc m h vaddr data sizeExp mode).core

/-- A load or a store traps when its access fails. -/
theorem comesTo_access (vaddr data : U64) (sizeExp : Fin 4) (mode : RvAccess)
    (done : MemOutcome δ → EmuMachine δ)
    (executes : Executes mc m h insn (.next (done (rvAccessVirt mc m h vaddr data sizeExp mode)))) :
    ComesTo mc m h insn fun mc =>
      let out := rvAccessVirt mc m h vaddr data sizeExp mode
      if out.res ≠ .ok then rvMemTrap mc out.machine h out.res mode vaddr else done out := by
  have kept := coresKept_access mc m h vaddr data sizeExp mode
  by_cases failed : (rvAccessVirt mc m h vaddr data sizeExp mode).res ≠ .ok
  · have trapped : ComesTo mc m h insn _ := comesTo_memTrap kept
      (rvAccessVirt mc m h vaddr data sizeExp mode).res mode vaddr
    refine trapped.congr fun hooks => ?_
    simp only [rvAccessVirt_hooked]
    rw [if_pos failed]
  · refine .next executes fun hooks => ?_
    simp only [rvAccessVirt_hooked]
    rw [if_neg failed]

/-! ### Integer instructions -/

theorem rvMuldivOp_comesTo : ComesTo mc m h insn fun mc => rvMuldivOp mc m h insn := by
  cases result : rvMuldivResult insn (m.xreg h (rvInsnRs1 insn)) (m.xreg h (rvInsnRs2 insn)) with
  | none => exact (comesTo_illegal (CoresKept.refl m)).congr fun _ => by rw [rvMuldivOp, result]
  | some res => exact .next (.xreg (CoresKept.refl m) res) fun _ => by rw [rvMuldivOp, result]

theorem rvBaseOp_comesTo : ComesTo mc m h insn fun mc => rvBaseOp mc m h insn := by
  by_cases muldiv : (rvInsnOpMaj insn).getLsbD 3 ∧ rvInsnFunct7 insn = 1
  · exact rvMuldivOp_comesTo.congr fun _ => by rw [rvBaseOp, if_pos muldiv]
  · exact .next (.xreg (CoresKept.refl m) _) fun _ => by rw [rvBaseOp, if_neg muldiv]

/-- The major opcodes of loads and stores tell by bit 0 which register file is used. -/
theorem opMaj_float {major : RvOpMaj} (form : rvOpMajOf insn = some major) :
    (major = .load ∨ major = .store → (rvInsnOpMaj insn).getLsbD 0 = false) ∧
      (major = .loadFp ∨ major = .storeFp → (rvInsnOpMaj insn).getLsbD 0 = true) := by
  have fields : ∀ entry ∈ rvOpMajDefs,
      (entry.2 = .load ∨ entry.2 = .store → entry.1.getLsbD 0 = false) ∧
        (entry.2 = .loadFp ∨ entry.2 = .storeFp → entry.1.getLsbD 0 = true) := by decide
  apply fields (rvInsnOpMaj insn, major)
  rcases List.lookup_eq_some_iff.mp form with ⟨before, after, split, _⟩
  rw [split]
  simp

theorem rvBaseLoad_comesTo {major : RvOpMaj} (form : rvOpMajOf insn = some major)
    (isLoad : major = .load ∨ major = .loadFp) :
    ComesTo mc m h insn fun mc => rvBaseLoad mc m h insn := by
  by_cases illegal : rvFpAccessIllegal (m.cpus h) insn = true
  · exact (comesTo_illegal (CoresKept.refl m)).congr fun _ => by rw [rvBaseLoad, if_pos illegal]
  cases sized : rvLoadSizeExp (rvInsnFunct3 insn) with
  | none =>
      refine (comesTo_illegal (CoresKept.refl m)).congr fun _ => ?_
      simp only [rvBaseLoad, illegal, if_false, sized, Bool.false_eq_true]
  | some sizeExp =>
      have kept := coresKept_access mc m h (m.xreg h (rvInsnRs1 insn) + rvInsnImm12 insn) 0 sizeExp
        .load
      rcases isLoad with rfl | rfl
      · have integer := (opMaj_float form).1 (Or.inl rfl)
        have loaded : ComesTo mc m h insn _ := comesTo_access _ 0 sizeExp .load
          (fun out => out.machine.writeXreg h (rvInsnRd insn)
            (rvLoadExtend (rvInsnFunct3 insn) (out.data.getD 0))) (.xreg kept _)
        refine loaded.congr fun hooks => ?_
        simp only [rvBaseLoad, illegal, if_false, sized, integer, Bool.false_eq_true]
      · have float := (opMaj_float form).2 (Or.inl rfl)
        have loaded : ComesTo mc m h insn _ := comesTo_access _ 0 sizeExp .load
          (fun out => out.machine.setCpu h (rvFregWrite (out.machine.cpus h) (rvInsnRd insn)
            (if rvInsnFunct3 insn = 2 then
                rvLoadExtend (rvInsnFunct3 insn) (out.data.getD 0) ||| 0xffffffff00000000
              else rvLoadExtend (rvInsnFunct3 insn) (out.data.getD 0))))
          (.fpLoad kept form (Bool.not_eq_true _ ▸ illegal) _)
        refine loaded.congr fun hooks => ?_
        simp only [rvBaseLoad, illegal, if_false, sized, float, if_true, Bool.false_eq_true]

theorem rvBaseStore_comesTo : ComesTo mc m h insn fun mc => rvBaseStore mc m h insn := by
  by_cases illegal : rvFpAccessIllegal (m.cpus h) insn = true
  · exact (comesTo_illegal (CoresKept.refl m)).congr fun _ => by
      simp only [rvBaseStore, illegal, if_true]
  · have stored : ComesTo mc m h insn _ := comesTo_access
      (m.xreg h (rvInsnRs1 insn) + rvInsnSImm12 insn)
      (if (rvInsnOpMaj insn).getLsbD 0 then rvFregRead (m.cpus h) (rvInsnRs2 insn)
        else m.xreg h (rvInsnRs2 insn))
      (rvStoreSizeExp (rvInsnFunct3 insn)) .store MemOutcome.machine
      (.kept (coresKept_access mc m h _ _ _ .store))
    refine stored.congr fun hooks => ?_
    simp only [rvBaseStore, illegal, if_false, Bool.false_eq_true]

theorem rvJalImm_even (insn : U32) : ((rvJalImm insn).signExtend 64).getLsbD 0 = false := by
  rw [BitVec.getLsbD_signExtend]
  simp [rvJalImm]

theorem rvBranchImm_even (insn : U32) : ((rvBranchImm insn).signExtend 64).getLsbD 0 = false := by
  rw [BitVec.getLsbD_signExtend]
  simp [rvBranchImm]

theorem rvBaseJal_comesTo : ComesTo mc m h insn fun _ => rvBaseJal m h insn := by
  refine .next (.jump (m.cpus h).pc ((m.cpus h).epc + (rvJalImm insn).signExtend 64) ?_) fun _ => rfl
  intro even
  rw [BitField.getLsbD_zero_add, even, rvJalImm_even]
  rfl

theorem rvBaseJalr_comesTo : ComesTo mc m h insn fun _ => rvBaseJalr m h insn := by
  refine .next (.jump (m.cpus h).pc _ fun _ => ?_) fun _ => rfl
  rw [BitField.getLsbD_and_not]
  simp

theorem rvBaseBranch_comesTo : ComesTo mc m h insn fun mc => rvBaseBranch mc m h insn := by
  cases cond : rvBranchCond (rvInsnFunct3 insn) (m.xreg h (rvInsnRs1 insn))
      (m.xreg h (rvInsnRs2 insn)) with
  | none => exact (comesTo_illegal (CoresKept.refl m)).congr fun _ => by rw [rvBaseBranch, cond]
  | some taken =>
      cases taken with
      | true =>
          refine .next (.branch ((rvBranchImm insn).signExtend 64 + (m.cpus h).epc) ?_) fun _ => by
            rw [rvBaseBranch, cond]
          intro even
          rw [BitField.getLsbD_zero_add, even, rvBranchImm_even]
          rfl
      | false => exact .next (.kept (CoresKept.refl m)) fun _ => by rw [rvBaseBranch, cond]

/-! ### SYSTEM -/

theorem doCsr_comesTo (system : rvOpMajOf insn = some .system) :
    ComesTo mc m h insn fun mc => doCsr mc m h insn := by
  have illegal : ComesTo mc m h insn _ := comesTo_illegal (CoresKept.refl m)
  cases read : doCsrRead (m.cpus h) insn with
  | none => exact illegal.congr fun _ => by simp only [doCsr, read]
  | some rdata =>
      by_cases reserved : (rvInsnFunct3 insn &&& 3) = 0
      · exact illegal.congr fun _ => by simp only [doCsr, read, reserved, if_true]
      · cases written : doCsrWrite (m.cpus h) insn rdata with
        | none => exact illegal.congr fun _ => by simp only [doCsr, read, reserved, if_false, written]
        | some cpu =>
            exact .next (.csr ⟨system, reserved⟩ read written) fun _ => by
              simp only [doCsr, read, reserved, if_false, written]

theorem rvBaseSystem_comesTo (system : rvOpMajOf insn = some .system) :
    ComesTo mc m h insn fun mc => rvBaseSystem mc m h insn := by
  have illegal : ComesTo mc m h insn _ := comesTo_illegal (CoresKept.refl m)
  simp only [rvBaseSystem]
  split
  · exact doCsr_comesTo system
  split
  · next mret => exact .next (.mret mret.1 mret.2) fun _ => rfl
  split
  · next word =>
      split
      · exact illegal
      · next legal => exact .next (.sret word (Bool.not_eq_true _ ▸ legal)) fun _ => rfl
  split
  · split
    · exact illegal
    · exact .next (.kept (CoresKept.refl m)) fun _ => rfl
  split
  · split
    · exact illegal
    · exact .next (.kept (coresKept_setCpu m (rvInvalTlb_frame _ _ _ _ _))) fun _ => rfl
  split
  · split
    · next level => exact .next (.abort level) fun _ => rfl
    · next cause _ => exact comesTo_trap (CoresKept.refl m) cause 0
  split
  · exact comesTo_trap (CoresKept.refl m) .ebreak 0
  · exact illegal

/-! ### Atomics -/

theorem rvAtomicExec_hooked (mc : EmuConfig δ) (hooks) (m : EmuMachine δ) (h : Nat) (insn : U32) :
    rvAtomicExec (mc.hooked hooks) m h insn = rvAtomicExec mc m h insn := by
  simp only [rvAtomicExec, rvAtomicLr, rvAtomicSc, rvAtomicAmo, rvAccessVirt_hooked]
  rfl

/-- What an atomic operation comes to leaves the cores alone, and its trap returns
to the instruction. -/
structure AtomicKept (m : EmuMachine δ) (h : Nat) (out : AtomicOutcome δ) : Prop where
  kept : CoresKept m out.machine
  trap : ∀ m' trap, out = .trap m' trap →
    ∃ cause tval, trap = ⟨(m'.cpus h).epc, tval, RvCause.code cause⟩

theorem atomicKept_fault (kept : CoresKept m m') (r : RvMemResult) (mode : RvAccess) (addr : U64) :
    AtomicKept m h (rvAtomicFault m' h r mode addr) := by
  refine ⟨kept, ?_⟩
  intro m'' trap same
  cases same
  exact ⟨rvMemCause r mode, addr, rfl⟩

theorem rvAtomicLr_kept (addr : U64) : AtomicKept m h (rvAtomicLr mc m h insn addr) := by
  have loaded := coresKept_access mc m h addr 0 (rvAtomicSizeExp insn) .load
  simp only [rvAtomicLr]
  split
  · exact ⟨CoresKept.refl m, fun _ _ same => by cases same⟩
  split
  · exact atomicKept_fault loaded _ _ _
  · exact ⟨loaded, fun _ _ same => by cases same⟩

theorem rvAtomicSc_kept (addr : U64) : AtomicKept m h (rvAtomicSc mc m h insn addr) := by
  have stored := coresKept_access mc m h addr (m.xreg h (rvInsnRs2 insn)) (rvAtomicSizeExp insn)
    .store
  simp only [rvAtomicSc]
  split
  · split
    · exact atomicKept_fault stored _ _ _
    · exact ⟨stored, fun _ _ same => by cases same⟩
  · exact ⟨CoresKept.refl m, fun _ _ same => by cases same⟩

theorem rvAtomicAmo_kept (addr : U64) : AtomicKept m h (rvAtomicAmo mc m h insn addr) := by
  have loaded := coresKept_access mc m h addr 0 (rvAtomicSizeExp insn) .amo
  simp only [rvAtomicAmo]
  split
  · exact atomicKept_fault loaded _ _ _
  split
  · exact ⟨loaded, fun _ _ same => by cases same⟩
  · next newval _ =>
      have stored := loaded.trans (coresKept_access mc _ h addr newval (rvAtomicSizeExp insn) .store)
      split
      · exact atomicKept_fault stored _ _ _
      · exact ⟨stored, fun _ _ same => by cases same⟩

theorem rvAtomicExec_kept : AtomicKept m h (rvAtomicExec mc m h insn) := by
  simp only [rvAtomicExec]
  generalize (if rvInsnFunct3 insn = 2 then (3 : U64) else 7) = alignMask
  split
  · exact ⟨CoresKept.refl m, fun _ _ same => by cases same⟩
  split
  · refine ⟨CoresKept.refl m, fun m' trap same => ?_⟩
    cases same
    exact ⟨if rvInsnFunct5 insn = amoLr then .lalign else .salign, _, by split_ifs <;> rfl⟩
  split
  · exact rvAtomicLr_kept _
  split
  · exact rvAtomicSc_kept _
  · exact rvAtomicAmo_kept _

theorem rvAtomicOp_comesTo : ComesTo mc m h insn fun mc => rvAtomicOp mc m h insn := by
  have executed : AtomicKept m h (rvAtomicExec mc m h insn) := rvAtomicExec_kept
  cases outcome : rvAtomicExec mc m h insn with
  | iillegal m' =>
      rw [outcome] at executed
      exact (comesTo_illegal executed.kept).congr fun _ => by
        rw [rvAtomicOp, rvAtomicExec_hooked, outcome]
        rfl
  | trap m' trap =>
      rw [outcome] at executed
      rcases executed.trap m' trap rfl with ⟨cause, tval, rfl⟩
      exact (comesTo_trap executed.kept cause tval).congr fun _ => by
        rw [rvAtomicOp, rvAtomicExec_hooked, outcome]
        rfl
  | lr m' addr val =>
      rw [outcome] at executed
      exact .next (.xreg executed.kept val) fun _ => by
        rw [rvAtomicOp, rvAtomicExec_hooked, outcome]
        rfl
  | sc m' addr success =>
      rw [outcome] at executed
      exact .next (.xreg executed.kept (if success then 0 else 1)) fun _ => by
        rw [rvAtomicOp, rvAtomicExec_hooked, outcome]
        rfl
  | amo m' addr old =>
      rw [outcome] at executed
      exact .next (.xreg executed.kept old) fun _ => by
        rw [rvAtomicOp, rvAtomicExec_hooked, outcome]
        rfl

/-! ### Floating point -/

/-- A computation that may reject the word. -/
theorem comesTo_computed {result : Option RvCpu}
    (executes : ∀ cpu, result = some cpu → Executes mc m h insn (.next (m.setCpu h cpu))) :
    ComesTo mc m h insn fun mc => result.elim (rvDoIillegal mc m h insn) (m.setCpu h) := by
  cases result with
  | none => exact comesTo_illegal (CoresKept.refl m)
  | some cpu => exact .next (executes cpu rfl) fun _ => rfl

theorem rvFloatMinMax_epc (cpu : RvCpu) (round : FeRound) (f64 : Bool) :
    (rvFloatMinMax mc cpu round insn f64).1.epc = cpu.epc := by
  rcases rvFloatMinMax_regs cpu round f64 with ⟨_, _, _, same⟩
  rw [same]

theorem rvFloatOpFp_minMax {f64 : Bool} (format : FpFormat (m.cpus h) insn f64)
    (op : rvInsnFunct5 insn = 0b00101) :
    rvFloatOpFp mc m h insn =
      let out := rvFloatMinMax mc (m.cpus h) (m.feround h) insn f64
      if out.2 then rvDoIillegal mc (m.setCpu h out.1) h insn else m.setCpu h out.1 := by
  have compare : rvInsnFunct5 insn ≠ 0b10100 := by rw [op]; decide
  have sgnj : rvInsnFunct5 insn ≠ 0b00100 := by rw [op]; decide
  rw [rvFloatOpFp]
  simp only [format.on, format.format, if_neg compare, if_neg sgnj, if_pos op, Bool.not_true,
    Bool.false_eq_true, if_false]

theorem opFpMinMax_comesTo {f64 : Bool} (form : rvOpMajOf insn = some .opFp)
    (format : FpFormat (m.cpus h) insn f64) (op : rvInsnFunct5 insn = 0b00101) :
    ComesTo mc m h insn fun mc => rvFloatOpFp mc m h insn := by
  by_cases illegal : (rvFloatMinMax mc (m.cpus h) (m.feround h) insn f64).2 = true
  · refine ⟨_, .minMax form format op illegal, fun hooks => ?_⟩
    have hooked : (rvFloatMinMax (mc.hooked hooks) (m.cpus h) (m.feround h) insn f64) =
        rvFloatMinMax mc (m.cpus h) (m.feround h) insn f64 := rfl
    have epc : (rvFloatMinMax mc (m.cpus h) (m.feround h) insn f64).1.epc = (m.cpus h).epc :=
      rvFloatMinMax_epc _ _ _
    simp only [rvFloatOpFp_minMax format op, hooked, illegal, if_true, rvDoIillegal,
      EmuMachine.setCpu_same, ExecOutcome.finish, epc]
  · refine .next (.opFp form format (.minMax op (Bool.not_eq_true _ ▸ illegal))) fun hooks => ?_
    have hooked : (rvFloatMinMax (mc.hooked hooks) (m.cpus h) (m.feround h) insn f64) =
        rvFloatMinMax mc (m.cpus h) (m.feround h) insn f64 := rfl
    simp only [rvFloatOpFp_minMax format op, hooked, illegal, Bool.false_eq_true, if_false]

theorem rvFloatOpFp_rounded (mc : EmuConfig δ) {f64 : Bool} (format : FpFormat (m.cpus h) insn f64)
    (compare : rvInsnFunct5 insn ≠ 0b10100) (sgnj : rvInsnFunct5 insn ≠ 0b00100)
    (minMax : rvInsnFunct5 insn ≠ 0b00101) {env : FpEnv}
    (chosen : rvFloatEnv mc (m.cpus h) insn (m.feround h) = env) :
    rvFloatOpFp mc m h insn = (rvFloatRounded mc (m.cpus h) insn env f64).elim
      (rvDoIillegal mc (m.setFeround h env.round) h insn)
      (rvFloatFinish (m.setFeround h env.round) h env) := by
  simp only [rvFloatOpFp, format.on, format.format, compare, sgnj, minMax, chosen, Bool.not_true,
    Bool.false_eq_true, if_false]
  cases rvFloatRounded mc (m.cpus h) insn env f64 <;> rfl

theorem opFpRounded_comesTo {f64 : Bool} (form : rvOpMajOf insn = some .opFp)
    (format : FpFormat (m.cpus h) insn f64)
    (compare : rvInsnFunct5 insn ≠ 0b10100) (sgnj : rvInsnFunct5 insn ≠ 0b00100)
    (minMax : rvInsnFunct5 insn ≠ 0b00101) :
    ComesTo mc m h insn fun mc => rvFloatOpFp mc m h insn := by
  generalize chosen : rvFloatEnv mc (m.cpus h) insn (m.feround h) = env
  have kept : CoresKept m (m.setFeround h env.round) := CoresKept.refl m
  have handler : ∀ hooks, rvFloatOpFp (mc.hooked hooks) m h insn =
      (rvFloatRounded mc (m.cpus h) insn env f64).elim
        (rvDoIillegal (mc.hooked hooks) (m.setFeround h env.round) h insn)
        (rvFloatFinish (m.setFeround h env.round) h env) :=
    fun hooks => rvFloatOpFp_rounded (mc.hooked hooks) format compare sgnj minMax chosen
  cases computed : rvFloatRounded mc (m.cpus h) insn env f64 with
  | none =>
      exact (comesTo_illegal kept).congr fun hooks => by
        rw [handler hooks, computed, Option.elim_none]
  | some out =>
      exact .next (.opFp form format (.rounded chosen computed)) fun hooks => by
        rw [handler hooks, computed, Option.elim_some]

theorem rvFloatOpFp_comesTo (form : rvOpMajOf insn = some .opFp) :
    ComesTo mc m h insn fun mc => rvFloatOpFp mc m h insn := by
  have illegal : ComesTo mc m h insn _ := comesTo_illegal (CoresKept.refl m)
  by_cases on : rvCheckXs (m.cpus h).csr.mstatus rvStatusFsBaseBit = true
  · cases found : rvFloatFormat insn with
    | none => exact illegal.congr fun _ => by simp only [rvFloatOpFp, found, ite_self]
    | some f64 =>
        have format : FpFormat (m.cpus h) insn f64 := ⟨on, found⟩
        by_cases compare : rvInsnFunct5 insn = 0b10100
        · have computed : ComesTo mc m h insn _ :=
            comesTo_computed fun _ computed => .opFp form format (.compare compare computed)
          refine computed.congr fun hooks => ?_
          have hooked : rvFloatCompare (mc.hooked hooks) (m.cpus h) insn f64 =
              rvFloatCompare mc (m.cpus h) insn f64 := rfl
          simp only [rvFloatOpFp, on, found, compare, hooked, Bool.not_true, Bool.false_eq_true,
            if_false, if_true]
          cases rvFloatCompare mc (m.cpus h) insn f64 <;> rfl
        by_cases sgnj : rvInsnFunct5 insn = 0b00100
        · have computed : ComesTo mc m h insn _ :=
            comesTo_computed fun _ computed => .opFp form format (.sgnj sgnj computed)
          refine computed.congr fun _ => ?_
          rw [rvFloatOpFp]
          simp only [on, found, if_neg compare, if_pos sgnj, Bool.not_true, Bool.false_eq_true,
            if_false]
          cases rvFloatSgnj (m.cpus h) insn f64 <;> rfl
        by_cases minMax : rvInsnFunct5 insn = 0b00101
        · exact opFpMinMax_comesTo form format minMax
        · exact opFpRounded_comesTo form format compare sgnj minMax
  · exact illegal.congr fun _ => by simp only [rvFloatOpFp, on, Bool.not_false, if_true]

theorem rvFloatFmadd_comesTo
    (form : rvOpMajOf insn ∈ [some .madd, some .nmadd, some .msub, some .nmsub]) :
    ComesTo mc m h insn fun mc => rvFloatFmadd mc m h insn := by
  have illegal : ComesTo mc m h insn _ := comesTo_illegal (CoresKept.refl m)
  by_cases on : rvCheckXs (m.cpus h).csr.mstatus rvStatusFsBaseBit = true
  · cases found : rvFloatFormat insn with
    | none => exact illegal.congr fun _ => by simp only [rvFloatFmadd, found, ite_self]
    | some f64 =>
        refine .next (.fused form ⟨on, found⟩ rfl) fun _ => ?_
        simp only [rvFloatFmadd, on, found, Bool.not_true, Bool.false_eq_true, if_false]
        rfl
  · exact illegal.congr fun _ => by simp only [rvFloatFmadd, on, Bool.not_false, if_true]

/-! ### Words -/

/-- Executing a word comes to one outcome, the same under all hooks. -/
theorem rvForcefeedInsn_comesTo : ComesTo mc m h insn fun mc => rvForcefeedInsn mc m h insn := by
  unfold rvForcefeedInsn
  cases form : rvOpMajOf insn with
  | none => exact comesTo_illegal (CoresKept.refl m)
  | some major =>
      cases major with
      | load => exact rvBaseLoad_comesTo form (Or.inl rfl)
      | loadFp => exact rvBaseLoad_comesTo form (Or.inr rfl)
      | miscMem => exact .next (.kept (CoresKept.refl m)) fun _ => rfl
      | opImm => exact rvBaseOp_comesTo
      | auipc => exact .next (.xreg (CoresKept.refl m) _) fun _ => rfl
      | opImm32 => exact rvBaseOp_comesTo
      | store => exact rvBaseStore_comesTo
      | storeFp => exact rvBaseStore_comesTo
      | amo => exact rvAtomicOp_comesTo
      | op => exact rvBaseOp_comesTo
      | lui => exact .next (.xreg (CoresKept.refl m) _) fun _ => rfl
      | op32 => exact rvBaseOp_comesTo
      | madd => exact rvFloatFmadd_comesTo (by rw [form]; decide)
      | msub => exact rvFloatFmadd_comesTo (by rw [form]; decide)
      | nmsub => exact rvFloatFmadd_comesTo (by rw [form]; decide)
      | nmadd => exact rvFloatFmadd_comesTo (by rw [form]; decide)
      | opFp => exact rvFloatOpFp_comesTo form
      | branch => exact rvBaseBranch_comesTo
      | jalr => exact rvBaseJalr_comesTo
      | jal => exact rvBaseJal_comesTo
      | system => exact rvBaseSystem_comesTo form

end Handlers

/-- An OP-FP computation changes the hart's registers and `fcsr`. -/
theorem FpComputes.regs {mc : EmuConfig δ} {m m' : EmuMachine δ} {h : Nat} {insn : U32}
    {f64 : Bool} (computes : FpComputes mc m h insn f64 m') : RegsOnly (m.cpus h) (m'.cpus h) := by
  cases computes with
  | compare op computed =>
      rw [EmuMachine.setCpu_same]
      exact rvFloatCompare_regs computed
  | sgnj op computed =>
      rw [EmuMachine.setCpu_same]
      exact rvFloatSgnj_regs computed
  | minMax op legal =>
      rw [EmuMachine.setCpu_same]
      exact rvFloatMinMax_regs _ _ _
  | rounded chosen computed =>
      rw [rvFloatFinish, EmuMachine.setCpu_same]
      exact (rvFloatRounded_regs computed).trans (regsOnly_accrue _ _)

theorem rvAccrue_raises (cpu : RvCpu) {flags : U64} (raised : flags.getLsbD rvFflagsNvBit = true) :
    (rvAccrue cpu flags).csr.fcsr.getLsbD rvFflagsNvBit = true := by
  have inside : rvFflagsMask.getLsbD rvFflagsNvBit = true := by decide
  change (cpu.csr.fcsr ||| (flags &&& rvFflagsMask)).getLsbD _ = true
  rw [BitVec.getLsbD_or, BitVec.getLsbD_and, raised, inside, Bool.and_self, Bool.or_true]

/-- The outcome of a word under the machine's own hooks. -/
theorem rvForcefeedInsn_executes (mc : EmuConfig δ) (m : EmuMachine δ) (h : Nat) (insn : U32) :
    ∃ out, Executes mc m h insn out ∧ rvForcefeedInsn mc m h insn = out.finish mc h := by
  rcases rvForcefeedInsn_comesTo with ⟨out, executes, finished⟩
  exact ⟨out, executes, finished mc.trapHook⟩

/-! ### Fetches -/

/-- What fetching on hart `h` comes to. -/
inductive Fetched (m : EmuMachine δ) (h : Nat) : FetchOutcome δ → Prop
  | fault {m' : EmuMachine δ} {trap : RvTrap} (kept : CoresKept m m')
      (epc : trap.epc = (m.cpus h).pc) (exception : trap.isInterrupt = false) :
      Fetched m h (.fault m' trap)
  | illegal {m' : EmuMachine δ} (kept : CoresKept m m') (hw : U16) :
      Fetched m h (.illegal (m'.setCpu h { m'.cpus h with epc := (m.cpus h).pc }) hw)
  | word {m' : EmuMachine δ} (kept : CoresKept m m') (insn : U32) (len : U64)
      (even : len.getLsbD 0 = false) :
      Fetched m h (.word
        (m'.setCpu h { m'.cpus h with epc := (m.cpus h).pc, pc := (m.cpus h).pc + len }) insn)

theorem rvFetched_word {m m' : EmuMachine δ} {h : Nat} (kept : CoresKept m m') (insn : U32)
    {len : U64} (even : len.getLsbD 0 = false) : Fetched m h (rvFetched m' h insn len) := by
  have word : Fetched m h _ := .word kept insn len even
  rw [← (kept h).pc] at word
  exact word

theorem rvFetchInsn_fetched (mc : EmuConfig δ) (m : EmuMachine δ) (h : Nat) :
    Fetched m h (rvFetchInsn mc m h) := by
  simp only [rvFetchInsn, rvAccessVirt_pc]
  generalize first : rvAccessVirt mc m h (m.cpus h).pc 0 1 .insn = low
  have kept : CoresKept m low.machine := by
    rw [← first]
    exact coresKept_access mc m h _ _ _ _
  generalize second : rvAccessVirt mc low.machine h ((m.cpus h).pc + 2) 0 1 .insn = high
  have kept' : CoresKept m high.machine := by
    rw [← second]
    exact kept.trans (coresKept_access mc low.machine h _ _ _ _)
  split
  · exact .fault kept rfl (RvCause.isInterrupt _ _ _)
  split
  · split
    · have rejected : Fetched m h _ := .illegal kept ((low.data.getD 0).setWidth 16)
      simpa only [(kept h).pc] using rejected
    · exact rvFetched_word kept _ (by decide)
  · split
    · exact .fault kept' rfl (RvCause.isInterrupt _ _ _)
    · exact rvFetched_word kept' _ (by decide)

/-- The fetch of a word of 32 bits whose halves can both be read. -/
theorem rvFetchInsn_long (mc : EmuConfig δ) (m : EmuMachine δ) (h : Nat) (word : U32)
    {low high : MemOutcome δ} (first : rvAccessVirt mc m h (m.cpus h).pc 0 1 .insn = low)
    (lowOk : low.res = .ok) (long : ((low.data.getD 0).setWidth 16).extractLsb' 0 2 = 3)
    (second : rvAccessVirt mc low.machine h ((m.cpus h).pc + 2) 0 1 .insn = high)
    (highOk : high.res = .ok)
    (whole : ((low.data.getD 0).setWidth 16).setWidth 32 |||
      (((high.data.getD 0).setWidth 16).setWidth 32 <<< 16) = word) :
    rvFetchInsn mc m h = rvFetched high.machine h word 4 := by
  have pc : (low.machine.cpus h).pc = (m.cpus h).pc := by rw [← first, rvAccessVirt_pc]
  simp only [rvFetchInsn, first, pc, lowOk, long, second, highOk, whole, ne_eq, not_true,
    if_false]

end Riscmulator
