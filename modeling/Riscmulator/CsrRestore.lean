import Riscmulator.BareTlb
import Riscmulator.FpFlags
import Riscmulator.Isolation
import Riscmulator.PmpLocks
import Riscmulator.RamBytes

/-! Reading a control register and writing the value back, in every state that the machine
reaches. -/

namespace Riscmulator

open Transition BitField

variable {δ : Type}

/-! ### `mstatus` -/

/-- No bit of `mstatus` outside its fields is set. -/
def StatusBounded (cpu : RvCpu) : Prop :=
  ∀ i, cpu.csr.mstatus.getLsbD i = true → rvMstatusMask.getLsbD i = true

theorem StatusBounded.of_eq {cpu cpu' : RvCpu} (bounded : StatusBounded cpu)
    (same : cpu'.csr.mstatus = cpu.csr.mstatus) : StatusBounded cpu' := by
  intro i set
  rw [same] at set
  exact bounded i set

theorem statusBounded_trap {cpu : RvCpu} (synced : MemSynced cpu) (bounded : StatusBounded cpu)
    (trap : RvTrap) : StatusBounded (rvTrapEnter cpu trap) := by
  intro i set
  unfold rvTrapEnter at set
  split at set
  · next delegated =>
      simp only [rvTrapDelegated, Bool.and_eq_true, decide_eq_true_eq] at delegated
      have status : (rvTrapEnterS cpu trap).csr.mstatus =
          rvTrapMstatusS cpu.csr.mstatus cpu.privilege := rfl
      rw [status, rvTrapMstatusS_getLsbD _ delegated.1] at set
      split_ifs at set with spie sie spp
      · subst spie
        decide
      · subst spp
        decide
      · exact bounded i set
  · have status : (rvTrapEnterM cpu trap).csr.mstatus =
        rvTrapMstatusM cpu.csr.mstatus cpu.privilege := rfl
    rw [status, rvTrapMstatusM_getLsbD _ synced.bounded] at set
    split_ifs at set with mpie mie low high
    · subst mpie
      decide
    · subst low
      decide
    · subst high
      decide
    · exact bounded i set

theorem statusBounded_mret {cpu : RvCpu} (bounded : StatusBounded cpu) :
    StatusBounded (rvMret cpu) := by
  intro i set
  rw [rvMret_getLsbD] at set
  split_ifs at set with mie mpie low high mprv
  · subst mie
    decide
  · subst mpie
    decide
  · subst mprv
    decide
  · exact bounded i set

theorem statusBounded_sret {cpu : RvCpu} (bounded : StatusBounded cpu) :
    StatusBounded (rvSret cpu) := by
  intro i set
  rw [rvSret_getLsbD] at set
  split_ifs at set with sie spie spp mprv
  · subst sie
    decide
  · subst spie
    decide
  · exact bounded i set

theorem statusBounded_write {cpu cpu' : RvCpu} {reg : RvCsr} {wdata : U64}
    (written : rvCsrWriteReg cpu reg wdata = some cpu') (bounded : StatusBounded cpu) :
    StatusBounded cpu' := by
  intro i set
  rw [rvCsrWriteReg_mstatus written] at set
  split_ifs at set with status supervisor
  · rw [rvMstatusWdata, BitVec.getLsbD_and, Bool.and_eq_true] at set
    exact set.2
  · have fields : ∀ i < 64, rvSstatusMask.getLsbD i = true → rvMstatusMask.getLsbD i = true := by
      decide
    rw [getLsbD_replace] at set
    split at set
    · next inside => exact fields i (BitVec.lt_of_getLsbD inside) inside
    · exact bounded i set
  · exact bounded i set

theorem statusBounded_invariant {mc : EmuConfig δ} (hooks : mc.NoHooks) :
    CoreInvariant mc fun cpu => MemSynced cpu ∧ StatusBounded cpu where
  data := by
    rintro cpu cpu' same ⟨synced, bounded⟩
    rcases same.csr with ⟨fcsr, csr⟩
    exact ⟨same.synced synced, bounded.of_eq (by rw [csr])⟩
  enter := fun trap before =>
    ⟨rvTrapEnter_synced before.1 trap, statusBounded_trap before.1 before.2 trap⟩
  write := fun grants written before =>
    ⟨rvCsrWriteReg_synced grants written before.1, statusBounded_write written before.2⟩
  mret := fun _ before => ⟨rvMret_synced _, statusBounded_mret before.2⟩
  sret := fun before => ⟨rvSret_synced _, statusBounded_sret before.2⟩
  hook := by
    intro cause hook found
    rw [hooks cause] at found
    cases found

/-! ### Legal registers -/

/-- What the registers of a core satisfy in every state that the machine reaches. -/
structure CsrLegal (cpu : RvCpu) : Prop where
  synced : MemSynced cpu
  status : StatusBounded cpu
  fcsr : FcsrBounded cpu
  bare : BareEmpty cpu
  pmp : PmpLegal cpu

theorem csrLegal_run {mc : EmuConfig δ} (hooks : mc.NoHooks) (device : δ) (h : Nat)
    (events : List (MachineEvent δ)) :
    CsrLegal ((run (machineStep mc) (emuMachineInit device) events).cpus h) := by
  have start : StatusBounded ((emuMachineInit device).cpus h) := by
    intro i set
    have clear : ((emuMachineInit device).cpus h).csr.mstatus = 0 := rfl
    rw [clear] at set
    cases set.symm.trans BitVec.getLsbD_zero
  have status := (statusBounded_invariant hooks).run
    ⟨emuMachineInit_synced device h, start⟩ events
  exact ⟨status.1, status.2, fcsrBounded_run (hooks.keeps _) device h events,
    bareEmpty_run hooks.keepVm device h events,
    (pmpLegal_invariant (hooks.keeps _)).run (emuMachineInit_pmpLegal device h) events⟩

/-! ### Writing back -/

section Restore

variable {cpu : RvCpu}

theorem rvSyncMemPrivilege_own (synced : MemSynced cpu) : rvSyncMemPrivilege cpu = cpu := by
  have cached : (rvSyncMemPrivilege cpu).memPrivilege = cpu.memPrivilege := synced.cached.symm
  calc
    rvSyncMemPrivilege cpu =
        { cpu with memPrivilege := (rvSyncMemPrivilege cpu).memPrivilege } := rfl
    _ = cpu := by rw [cached]

/-- The fields that read as constants are not written, and neither is a bit next to one that
a write of MPP shifts. -/
theorem rvMstatusWdata_own (bounded : StatusBounded cpu) :
    rvMstatusWdata (cpu.csr.mstatus ||| rvMstatusHardwired) = cpu.csr.mstatus := by
  have fixed : ∀ i < 64, rvMstatusMask.getLsbD i = true →
      rvMstatusHardwired.getLsbD i = false ∧
        ((BitVec.ofNat 64 rvStatusMppBaseBit).getLsbD i = true →
          rvMstatusMask.getLsbD (1 + i) = false ∧ rvMstatusHardwired.getLsbD (1 + i) = false) := by
    decide
  apply BitVec.eq_of_getLsbD_eq
  intro i inside
  rw [rvMstatusWdata, BitVec.getLsbD_and, BitVec.getLsbD_or, BitVec.getLsbD_or,
    BitVec.getLsbD_and, BitVec.getLsbD_ushiftRight, BitVec.getLsbD_or]
  cases field : rvMstatusMask.getLsbD i with
  | false =>
      cases set : cpu.csr.mstatus.getLsbD i with
      | false => rw [Bool.and_false]
      | true => cases field.symm.trans (bounded i set)
  | true =>
      obtain ⟨clear, shifted⟩ := fixed i inside field
      rw [clear, Bool.or_false, Bool.and_true]
      cases position : (BitVec.ofNat 64 rvStatusMppBaseBit).getLsbD i with
      | false => rw [Bool.and_false, Bool.or_false]
      | true =>
          obtain ⟨outside, clear'⟩ := shifted position
          have low : cpu.csr.mstatus.getLsbD (1 + i) = false := by
            cases set : cpu.csr.mstatus.getLsbD (1 + i) with
            | false => rfl
            | true => cases outside.symm.trans (bounded _ set)
          rw [low, clear', Bool.or_false, Bool.false_and, Bool.or_false]

theorem rvFlushTlb_own (empty : cpu.tlb.Empty) : rvFlushTlb cpu = cpu := by
  have valid : (rvFlushTlb cpu).tlb.valid = cpu.tlb.valid := by
    funext row
    simp only [rvFlushTlb]
    split
    · next inside =>
        apply BitVec.eq_of_getLsbD_eq
        intro col _
        exact BitVec.getLsbD_zero.trans (empty row col inside).symm
    · rfl
  calc
    rvFlushTlb cpu = { cpu with tlb := { cpu.tlb with valid := (rvFlushTlb cpu).tlb.valid } } := rfl
    _ = cpu := by rw [valid]

theorem rvPmpcfgWriteWord_own (legal : PmpLegal cpu) (word : Fin 8) :
    rvPmpcfgWriteWord (cpu.csr.pmpcfg word) (cpu.csr.pmpcfg word) = cpu.csr.pmpcfg word := by
  have same : ∀ cfg : U8, PmpByteLegal cfg → rvPmpcfgWriteByte cfg cfg = cfg := by decide
  apply Bytes.eq_of_byte (by decide : 64 ≤ 8 * 8)
  intro b inside
  have entry := legal ⟨8 * word.val + b, by omega⟩
  have wordOf : (8 * word.val + b) / 8 = word.val := by omega
  have byteOf : (8 * word.val + b) % 8 = b := by omega
  simp only [RvCsrState.pmpcfgUnpacked, wordOf, byteOf] at entry
  exact (rvPmpcfgWriteWord_byte _ _ inside).trans (same _ entry)

/-- Every register but a PMP address takes its own value back. -/
theorem rvCsrWriteReg_own (legal : CsrLegal cpu) {reg : RvCsr} {value : U64}
    (read : rvCsrReadReg cpu reg = some value) (other : ∀ entry, reg ≠ .pmpaddr entry) :
    rvCsrWriteReg cpu reg value = some cpu := by
  cases reg with
  | mstatus =>
      cases read
      rw [rvCsrWriteReg, rvMstatusWdata_own legal.status]
      exact congrArg some (rvSyncMemPrivilege_own legal.synced)
  | mip =>
      cases read
      have own := replace_own cpu.irqPending rvSipWmask
      rw [BitVec.and_assoc, BitVec.and_self] at own
      rw [rvCsrWriteReg, own]
  | sstatus =>
      cases read
      have fixed : rvSstatusHardwired &&& rvSstatusMask = 0#64 := by decide
      have own := replace_own cpu.csr.mstatus rvSstatusMask
      rw [rvCsrWriteReg, BitVec.and_or_distrib_right, fixed, BitVec.or_zero, own]
      rfl
  | sip =>
      cases read
      have own := replace_own cpu.irqPending (cpu.csr.mideleg &&& rvSipWmask)
      have value : cpu.irqPending &&& cpu.csr.mideleg &&& (cpu.csr.mideleg &&& rvSipWmask) =
          cpu.irqPending &&& (cpu.csr.mideleg &&& rvSipWmask) := by
        rw [BitVec.and_assoc, ← BitVec.and_assoc cpu.csr.mideleg, BitVec.and_self]
      rw [BitVec.and_assoc, BitVec.and_self] at own
      simp only [rvCsrWriteReg, value, own]
  | satp =>
      simp only [rvCsrReadReg] at read
      split at read
      · cases read
      next free =>
      cases read
      simp only [rvCsrWriteReg, if_neg free]
      rcases legal.bare.mode with off | sv39
      · rw [if_neg (fun both => both.2 off), if_pos (by rw [off]; decide),
          rvFlushTlb_own (legal.bare.empty off)]
        rfl
      · rw [if_neg (fun both => both.1 sv39), if_neg (not_not.mpr sv39)]
        rfl
  | fcsr =>
      simp only [rvCsrReadReg] at read
      split at read
      · next on =>
          cases read
          have bounded : cpu.csr.fcsr &&& rvFcsrMask = cpu.csr.fcsr := legal.fcsr
          rw [rvCsrWriteReg, if_pos on, bounded]
          rfl
      · cases read
  | fflags =>
      simp only [rvCsrReadReg] at read
      split at read
      · next on =>
          cases read
          rw [rvCsrWriteReg, if_pos on, replace_own]
          rfl
      · cases read
  | frm =>
      simp only [rvCsrReadReg] at read
      split at read
      · next on =>
          cases read
          rw [rvCsrWriteReg, if_pos on, frm_own]
          rfl
      · cases read
  | pmpcfg word =>
      cases read
      rw [rvCsrWriteReg, rvPmpcfgWriteWord_own legal.pmp, Function.update_eq_self]
      rfl
  | pmpaddr entry => exact absurd rfl (other entry)
  | _ =>
      cases read
      rfl

/-- A PMP address reads the same after it was written back, and nothing else is written. -/
theorem rvCsrWriteReg_pmpaddr_own {entry : Fin 64} {value : U64}
    (read : rvCsrReadReg cpu (.pmpaddr entry) = some value) :
    ∃ pmpaddr, rvCsrWriteReg cpu (.pmpaddr entry) value =
        some (cpu.withCsr { cpu.csr with pmpaddr := pmpaddr }) ∧
      ∀ reg, rvCsrReadReg (cpu.withCsr { cpu.csr with pmpaddr := pmpaddr }) reg =
        rvCsrReadReg cpu reg := by
  by_cases locked : (cpu.csr.pmpcfgUnpacked entry).getLsbD rvPmpcfgLBit = true
  · refine ⟨cpu.csr.pmpaddr, ?_, fun _ => rfl⟩
    rw [rvCsrWriteReg, if_pos locked]
    rfl
  · refine ⟨Function.update cpu.csr.pmpaddr entry value, ?_, ?_⟩
    · rw [rvCsrWriteReg, if_neg locked]
    · have config : ∀ pmpaddr i, ({ cpu.csr with pmpaddr := pmpaddr } : RvCsrState).pmpcfgUnpacked i =
          cpu.csr.pmpcfgUnpacked i := fun _ _ => rfl
      intro reg
      cases reg with
      | pmpaddr other =>
          simp only [rvCsrReadReg, RvCpu.withCsr, config] at read ⊢
          by_cases mine : other = entry
          · subst mine
            rw [Function.update_self]
            split at read
            · next napot =>
                cases read
                rw [if_pos napot, if_pos napot, BitVec.or_assoc, BitVec.or_self]
            · next off =>
                cases read
                rw [if_neg off, if_neg off, BitVec.and_assoc, BitVec.and_self]
          · rw [Function.update_of_ne mine]
      | _ => rfl

end Restore

/-- In every state that the machine reaches inside its arrays, writing back a register that
can be read is accepted, changes what no register reads and, unless it is a PMP address,
nothing at all. -/
theorem csr_restore (mc : EmuConfig δ) (hooks : mc.NoHooks) (device : δ) (h : Nat)
    (events : List (MachineEvent δ)) {cpu : RvCpu}
    (reached : cpu = (run (hostStep mc) (emuMachineInit device) events).cpus h)
    (inside : StepsMeet (hostStep mc) (StoresInArray mc) (emuMachineInit device) events)
    {index : Nat} {value : U64} (read : rvCsrRead cpu index = some value) :
    ∃ cpu', rvCsrWrite cpu index value = some cpu' ∧
      (∀ other, rvCsrRead cpu' other = rvCsrRead cpu other) ∧
      ((∀ entry, rvCsrOfIndex index ≠ some (.pmpaddr entry)) → cpu' = cpu) := by
  rw [hostRun_eq inside] at reached
  have legal : CsrLegal cpu := by
    rw [reached]
    exact csrLegal_run hooks device h events
  simp only [rvCsrRead] at read
  split at read
  · cases read
  next granted =>
  obtain ⟨reg, selected, read⟩ := Option.bind_eq_some_iff.mp read
  have accepted : ∀ cpu', rvCsrWriteReg cpu reg value = some cpu' →
      rvCsrWrite cpu index value = some cpu' :=
    fun cpu' written => rvCsrWrite_eq_some.mpr ⟨reg, ⟨Nat.not_lt.mp granted, selected⟩, written⟩
  by_cases address : ∃ entry, reg = .pmpaddr entry
  · obtain ⟨entry, rfl⟩ := address
    obtain ⟨pmpaddr, written, same⟩ := rvCsrWriteReg_pmpaddr_own read
    refine ⟨_, accepted _ written, ?_, fun other => absurd selected (other entry)⟩
    intro other
    have same' : rvCsrReadReg (cpu.withCsr { cpu.csr with pmpaddr := pmpaddr }) = rvCsrReadReg cpu :=
      funext same
    rw [rvCsrRead, same']
    rfl
  · have written := rvCsrWriteReg_own legal read fun entry same => address ⟨entry, same⟩
    exact ⟨cpu, accepted cpu written, fun _ => rfl, fun _ => rfl⟩

/-- A hart whose `csrw` has set some fields of `mstatus`. -/
def statusCpu : RvCpu :=
  (run (hostStep (EmuConfig.ramOnly 0 0x1000 1)) (emuMachineInit ())
    [.insn 0 0xfff00093, .insn 0 0x30009073]).cpus 0

theorem csr_restore_mstatus :
    ∃ cpu', rvCsrWrite statusCpu 0x300 0xa007fffea = some cpu' ∧
      (∀ other, rvCsrRead cpu' other = rvCsrRead statusCpu other) ∧
      ((∀ entry, rvCsrOfIndex 0x300 ≠ some (.pmpaddr entry)) → cpu' = statusCpu) :=
  csr_restore (EmuConfig.ramOnly 0 0x1000 1) (fun _ => rfl) () 0
    [.insn 0 0xfff00093, .insn 0 0x30009073] rfl
    (storesInArray_run (fun _ => rfl) (emuMachineInit_inArray _) (by decide +kernel))
    (by decide +kernel)

/-! ### Contexts -/

/-- The registers of S-mode that no write of another one of them touches. -/
def supervisorContext : List RvCsr :=
  [.sstatus, .sie, .stvec, .sscratch, .sepc, .scause, .stval, .satp]

/-- Write the registers of a context one after the other. -/
def restoreContext (saved : RvCsr → U64) : List RvCsr → RvCpu → Option RvCpu
  | [], cpu => some cpu
  | reg :: rest, cpu => (rvCsrWriteReg cpu reg (saved reg)).bind (restoreContext saved rest)

section Context

variable {cpu cpu' first : RvCpu} {reg other : RvCsr} {value : U64}

theorem rvCsrWriteReg_context (member : reg ∈ supervisorContext)
    (written : rvCsrWriteReg cpu reg value = some cpu') : MachineKept cpu cpu' := by
  have level : ∀ reg ∈ supervisorContext, reg.level ≤ 1 := by decide
  exact machineKept_write (level reg member) written

/-- Written in M-mode, a register of a context reads as it did when it was saved. -/
theorem rvCsrWriteReg_saved (legal : CsrLegal first) (read : rvCsrReadReg first reg = some value)
    (machine : cpu.privilege = 3) (member : reg ∈ supervisorContext) :
    ∃ cpu', rvCsrWriteReg cpu reg value = some cpu' ∧ cpu'.privilege = 3 ∧
      rvCsrReadReg cpu' reg = some value := by
  have free : ∀ cpu : RvCpu, cpu.privilege = 3 → rvSatpTrapped cpu = false := by
    intro cpu level
    rw [rvSatpTrapped, level]
    rfl
  simp only [supervisorContext, List.mem_cons, List.not_mem_nil, or_false] at member
  rcases member with rfl | rfl | rfl | rfl | rfl | rfl | rfl | rfl
  case inl =>
    cases read
    refine ⟨_, rfl, machine, congrArg some ?_⟩
    simp only [RvCpu.withCsr]
    have fixed : rvSstatusHardwired &&& rvSstatusMask = 0#64 := by decide
    have apart : ~~~rvSstatusMask &&& rvSstatusMask = 0#64 := by decide
    simp only [BitVec.and_or_distrib_right, BitVec.and_assoc, BitVec.and_self, fixed, apart,
      BitVec.and_zero, BitVec.or_zero, BitVec.zero_or]
  case inr.inr.inr.inr.inr.inr.inr =>
    simp only [rvCsrReadReg] at read
    split at read
    · cases read
    cases read
    have mode := legal.bare.mode
    refine ⟨(if rvSatpMode first.csr.satp ≠ 8 then rvFlushTlb cpu else cpu).withCsr
      { (if rvSatpMode first.csr.satp ≠ 8 then rvFlushTlb cpu else cpu).csr with
        satp := first.csr.satp }, ?_, ?_, ?_⟩
    · rw [rvCsrWriteReg, if_neg (by rw [free cpu machine]; decide), if_neg (by tauto)]
    · split <;> exact machine
    · rw [rvCsrReadReg, free, if_neg (by decide)]
      · rfl
      · split <;> exact machine
  all_goals
    cases read
    exact ⟨_, rfl, machine, rfl⟩

/-- A register of a context does not depend on the others. -/
theorem rvCsrWriteReg_apart (written : rvCsrWriteReg cpu reg value = some cpu')
    (member : reg ∈ supervisorContext) (member' : other ∈ supervisorContext)
    (apart : other ≠ reg) (machine : cpu.privilege = 3) :
    rvCsrReadReg cpu' other = rvCsrReadReg cpu other := by
  have level := (rvCsrWriteReg_privilege written).1
  have free : rvSatpTrapped cpu = false := by
    rw [rvSatpTrapped, machine]
    rfl
  have free' : rvSatpTrapped cpu' = false := by
    rw [rvSatpTrapped, level, machine]
    rfl
  simp only [supervisorContext, List.mem_cons, List.not_mem_nil, or_false] at member member'
  rcases member with rfl | rfl | rfl | rfl | rfl | rfl | rfl | rfl <;>
    simp only [rvCsrWriteReg] at written <;> (try split_ifs at written) <;> cases written <;>
    rcases member' with rfl | rfl | rfl | rfl | rfl | rfl | rfl | rfl <;>
    first
    | exact absurd rfl apart
    | rfl
    | (rw [rvCsrReadReg, rvCsrReadReg, free, free']; rfl)

/-- Registers of a context, written in any order, all read as they did when they were
saved, and M-mode keeps its own. -/
theorem restoreContext_saved {saved : RvCsr → U64} {order : List RvCsr} (legal : CsrLegal first)
    (reads : ∀ reg ∈ order, rvCsrReadReg first reg = some (saved reg))
    (context : ∀ reg ∈ order, reg ∈ supervisorContext) (once : order.Nodup)
    (machine : cpu.privilege = 3) :
    ∃ cpu', restoreContext saved order cpu = some cpu' ∧ MachineKept cpu cpu' ∧
      (∀ reg ∈ order, rvCsrReadReg cpu' reg = some (saved reg)) ∧
      ∀ reg ∈ supervisorContext, reg ∉ order → rvCsrReadReg cpu' reg = rvCsrReadReg cpu reg := by
  induction order generalizing cpu with
  | nil =>
      refine ⟨cpu, rfl, machineKept_control (.refl _), ?_, fun _ _ _ => rfl⟩
      intro reg member
      cases member
  | cons reg rest ih =>
      obtain ⟨fresh, once'⟩ := List.nodup_cons.mp once
      have mine := context reg List.mem_cons_self
      obtain ⟨middle, written, level, read⟩ :=
        rvCsrWriteReg_saved legal (reads reg List.mem_cons_self) machine mine
      obtain ⟨last, restored, kept, later, others⟩ := ih
        (fun other member => reads other (List.mem_cons_of_mem reg member))
        (fun other member => context other (List.mem_cons_of_mem reg member)) once' level
      refine ⟨last, ?_, (rvCsrWriteReg_context mine written).trans kept, ?_, ?_⟩
      · rw [restoreContext, written]
        exact restored
      · intro other member
        rcases List.mem_cons.mp member with rfl | member
        · rw [others other mine fresh]
          exact read
        · exact later other member
      · intro other inContext outside
        rw [List.mem_cons, not_or] at outside
        rw [others other inContext outside.2]
        exact rvCsrWriteReg_apart written mine inContext outside.1 machine

end Context

/-- The registers of S-mode saved in one state that the machine reaches inside its arrays and
written back by M-mode in another, whatever happened in between and in whatever order: each
of them reads as it did, those that were not saved read as before, and M-mode keeps its
own. -/
theorem context_restored (mc : EmuConfig δ) (hooks : mc.NoHooks) (device : δ) (h : Nat)
    (events : List (MachineEvent δ)) {first : RvCpu}
    (reached : first = (run (hostStep mc) (emuMachineInit device) events).cpus h)
    (inside : StepsMeet (hostStep mc) (StoresInArray mc) (emuMachineInit device) events)
    (saved : RvCsr → U64) (order : List RvCsr)
    (reads : ∀ reg ∈ order, rvCsrReadReg first reg = some (saved reg))
    (context : ∀ reg ∈ order, reg ∈ supervisorContext) (once : order.Nodup) (cpu : RvCpu)
    (machine : cpu.privilege = 3) :
    ∃ cpu', restoreContext saved order cpu = some cpu' ∧ MachineKept cpu cpu' ∧
      (∀ reg ∈ order, rvCsrReadReg cpu' reg = some (saved reg)) ∧
      ∀ reg ∈ supervisorContext, reg ∉ order → rvCsrReadReg cpu' reg = rvCsrReadReg cpu reg := by
  rw [hostRun_eq inside] at reached
  have legal : CsrLegal first := by
    rw [reached]
    exact csrLegal_run hooks device h events
  exact restoreContext_saved legal reads context once machine

/-- A hart whose program has set `stvec`. -/
def vectoredCpu : RvCpu :=
  (run (hostStep (EmuConfig.ramOnly 0 0x1000 1)) (emuMachineInit ())
    [.insn 0 0xfff00093, .insn 0 0x10509073]).cpus 0

/-- What the hart's registers read. -/
def vectoredContext (reg : RvCsr) : U64 := (rvCsrReadReg vectoredCpu reg).getD 0

/-- Its registers are given to a hart that has just been reset. -/
theorem context_restored_stvec :
    ∃ cpu', restoreContext vectoredContext [.satp, .sstatus, .stvec]
        ((emuMachineInit ()).cpus 1) = some cpu' ∧
      MachineKept ((emuMachineInit ()).cpus 1) cpu' ∧
      (∀ reg ∈ [RvCsr.satp, .sstatus, .stvec],
        rvCsrReadReg cpu' reg = some (vectoredContext reg)) ∧
      ∀ reg ∈ supervisorContext, reg ∉ [RvCsr.satp, .sstatus, .stvec] →
        rvCsrReadReg cpu' reg = rvCsrReadReg ((emuMachineInit ()).cpus 1) reg :=
  context_restored (EmuConfig.ramOnly 0 0x1000 1) (fun _ => rfl) () 0
    [.insn 0 0xfff00093, .insn 0 0x10509073] rfl
    (storesInArray_run (fun _ => rfl) (emuMachineInit_inArray _) (by decide +kernel)) _ _
    (by decide +kernel) (by decide) (by decide) _ rfl

end Riscmulator
