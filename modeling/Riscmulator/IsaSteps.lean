import Riscmulator.BaseAlu
import Riscmulator.IsaAccess

/-! The step of the emulator refines the step of the ISA. -/

namespace Riscmulator

variable {δ : Type}

/-! ### Local steps -/

/-- What a step of hart `h` may change: its integer registers and `pc`, the bytes it owns,
and reservations that it drops. -/
structure LocalStep (mc : EmuConfig δ) (h : Nat) (owned : U64 → Bool) (m m' : EmuMachine δ) :
    Prop where
  core : ∃ xregs pc epc, m'.cpus h = { m.cpus h with xregs := xregs, pc := pc, epc := epc }
  harts : ∀ i ≠ h, m'.cpus i = m.cpus i
  ram : ∀ a, owned a = false → m'.ram (a - mc.ramStart) = m.ram (a - mc.ramStart)
  reservations : ∀ i, (m'.reservations i).valid = true → m'.reservations i = m.reservations i
  others : m' = { m with ram := m'.ram, cpus := m'.cpus, reservations := m'.reservations }

theorem LocalStep.trans {mc : EmuConfig δ} {h : Nat} {owned : U64 → Bool}
    {first second third : EmuMachine δ} (left : LocalStep mc h owned first second)
    (right : LocalStep mc h owned second third) : LocalStep mc h owned first third := by
  obtain ⟨_, _, _, core⟩ := left.core
  obtain ⟨xregs, pc, epc, core'⟩ := right.core
  constructor
  · exact ⟨xregs, pc, epc, by rw [core', core]⟩
  · intro i other
    rw [right.harts i other, left.harts i other]
  · intro a foreign
    rw [right.ram a foreign, left.ram a foreign]
  · intro i valid
    have kept := right.reservations i valid
    rw [kept] at valid
    rw [kept, left.reservations i valid]
  · rw [right.others, left.others]

theorem LocalStep.refl (mc : EmuConfig δ) (h : Nat) (owned : U64 → Bool) (m : EmuMachine δ) :
    LocalStep mc h owned m m :=
  ⟨⟨_, _, _, rfl⟩, fun _ _ => rfl, fun _ _ => rfl, fun _ _ => rfl, rfl⟩

/-- A machine where hart `h` has the registers and the `pc` of the ISA. -/
def EmuMachine.put (m : EmuMachine δ) (h : Nat) (regs : Rv64.Regs) (pc : U64) : EmuMachine δ :=
  m.setCpu h { m.cpus h with xregs := regs.read, pc := pc }

/-- Hart `h` has fetched the instruction of state `s` and is to execute it. -/
structure Ready (mc : EmuConfig δ) (m : EmuMachine δ) (h : Nat) (s : Rv64.Hart) (next : U64) :
    Prop where
  pc : (m.cpus h).pc = next
  epc : (m.cpus h).epc = s.pc
  regs : (m.cpus h).xregs = s.regs.read
  ram : RamHolds mc m.ram s.mem
  free : Undisturbed (m.cpus h) s.mem.held

/-- `m'` is the machine after the step of hart `h` from `s` to `s'`. -/
structure StepDone (mc : EmuConfig δ) (h : Nat) (s s' : Rv64.Hart) (m m' : EmuMachine δ) : Prop where
  state : InState mc m' h s'
  kept : LocalStep mc h s.mem.writable m m'
  shape : s.mem.SameShape s'.mem

section Ready

variable {mc : EmuConfig δ} {m : EmuMachine δ} {h : Nat} {s s' : Rv64.Hart} {next : U64}

theorem Ready.xreg (ready : Ready mc m h s next) : m.xreg h = s.reg := ready.regs

theorem Ready.writeXreg (ready : Ready mc m h s next) (rd : BitVec 5) (value : U64) :
    rvXregWrite (m.cpus h) rd value =
      { m.cpus h with xregs := (s.regs.write rd value).read } := by
  have file : (s.regs.write rd value).read =
      if rd ≠ 0 then Function.update (m.cpus h).xregs rd value else (m.cpus h).xregs := by
    funext index
    rw [ready.regs]
    by_cases zero : rd = 0
    · simp only [Rv64.Regs.write, zero, ne_eq, not_true_eq_false, and_false, if_false]
    · rw [if_pos zero, Function.update_apply]
      simp only [Rv64.Regs.write, zero, ne_eq, not_false_eq_true, and_true]
  rw [file, rvXregWrite]
  split <;> rfl

theorem Ready.put_write (ready : Ready mc m h s next) (rd : BitVec 5) (value : U64) :
    m.writeXreg h rd value = m.put h (s.regs.write rd value) next := by
  rw [EmuMachine.writeXreg, EmuMachine.put, ready.writeXreg, ← ready.pc]

theorem Ready.put_jump (ready : Ready mc m h s next) (rd : BitVec 5) (value pc : U64) :
    (m.writeXreg h rd value).setPc h pc = m.put h (s.regs.write rd value) pc := by
  rw [EmuMachine.setPc, EmuMachine.writeXreg, EmuMachine.setCpu_same, EmuMachine.put,
    ready.writeXreg]
  simp only [EmuMachine.setCpu, Function.update_idem]

theorem Ready.put_pc (ready : Ready mc m h s next) (pc : U64) :
    m.setPc h pc = m.put h s.regs pc := by
  rw [EmuMachine.setPc, EmuMachine.put, ← ready.regs]

theorem Ready.put_self (ready : Ready mc m h s next) : m = m.put h s.regs next := by
  rw [EmuMachine.put, ← ready.regs, ← ready.pc, EmuMachine.setCpu_self]

/-- How every instruction ends: with new registers, and with RAM and reservations changed
as far as the hart may change them. -/
theorem Ready.done (ready : Ready mc m h s next) {ram : U64 → U8}
    {reservations : Nat → RvReservation}
    (holds : RamHolds mc ram s'.mem) (shape : s.mem.SameShape s'.mem)
    (foreign : ∀ a, s.mem.writable a = false → ram (a - mc.ramStart) = m.ram (a - mc.ramStart))
    (dropped : ∀ i, (reservations i).valid = true → reservations i = m.reservations i) :
    StepDone mc h s s' m
      { m.put h s'.regs s'.pc with ram := ram, reservations := reservations } := by
  have core : ({ m.put h s'.regs s'.pc with ram := ram, reservations := reservations }).cpus h =
      { m.cpus h with xregs := s'.regs.read, pc := s'.pc } := EmuMachine.setCpu_same m h _
  refine ⟨?_, ?_, shape⟩
  · constructor
    · rw [core]
    · rw [core]
    · exact holds
    · rw [core, shape.held]
      exact ready.free.regs s'.regs.read s'.pc _
  · constructor
    · exact ⟨_, _, _, core⟩
    · intro i other
      exact EmuMachine.setCpu_other m _ other
    · exact foreign
    · exact dropped
    · rfl

/-- The same for an instruction that computes only. -/
theorem Ready.done_put (ready : Ready mc m h s next) (mem : s'.mem = s.mem) :
    StepDone mc h s s' m (m.put h s'.regs s'.pc) := by
  have holds : RamHolds mc m.ram s'.mem := by
    rw [mem]
    exact ready.ram
  have shape : s.mem.SameShape s'.mem := by
    rw [mem]
    exact .refl _
  exact ready.done holds shape (fun _ _ => rfl) fun _ _ => rfl

/-- The same for an instruction that stores. -/
theorem Ready.done_store (ready : Ready mc m h s next) {addr data : U64} {n : Nat}
    {mem : Rv64.Memory} (stored : s.mem.store addr data n = some mem) (regs : Rv64.Regs)
    {reservations : Nat → RvReservation}
    (dropped : ∀ i, (reservations i).valid = true → reservations i = m.reservations i) :
    StepDone mc h s ⟨next, regs, mem⟩ m { m.put h regs next with
      ram := ramStore m.ram (addr - mc.ramStart) data n
      reservations := reservations } :=
  ready.done (ready.ram.store stored) (Rv64.Memory.store_shape stored)
    (fun _ => ramStore_unwritable stored) dropped

end Ready

/-! ### Values -/

theorem jalImm_eq (insn : U32) : (rvJalImm insn).signExtend 64 = (Rv64.immJ insn).signExtend 64 := by
  have joined : rvJalImm insn = (Rv64.immJ insn).signExtend 32 := by
    apply BitVec.eq_of_getLsbD_eq
    intro i word
    simp only [rvJalImm, BitVec.getLsbD_or, BitVec.getLsbD_sshiftRight, BitVec.getLsbD_signExtend,
      BitVec.getLsbD_shiftLeft, BitVec.getLsbD_ushiftRight, BitVec.msb_eq_getLsbD_last,
      BitVec.getLsbD_and, Rv64.immJ, BitVec.getLsbD_append, BitVec.getLsbD_extractLsb']
    interval_cases i <;> simp
  rw [joined, BitField.signExtend_signExtend _ (by decide) (by decide)]

theorem branchImm_eq (insn : U32) :
    (rvBranchImm insn).signExtend 64 = (Rv64.immB insn).signExtend 64 := by
  have joined : rvBranchImm insn = (Rv64.immB insn).signExtend 32 := by
    apply BitVec.eq_of_getLsbD_eq
    intro i word
    simp only [rvBranchImm, BitVec.getLsbD_or, BitVec.getLsbD_sshiftRight,
      BitVec.getLsbD_signExtend, BitVec.getLsbD_shiftLeft, BitVec.msb_eq_getLsbD_last,
      BitVec.getLsbD_and, Rv64.immB, BitVec.getLsbD_append, BitVec.getLsbD_extractLsb']
    interval_cases i <;> simp
  rw [joined, BitField.signExtend_signExtend _ (by decide) (by decide)]

theorem storeImm_eq (insn : U32) : rvInsnSImm12 insn = (Rv64.immS insn).signExtend 64 := by
  have joined : ((insn &&& 0xfe000000).sshiftRight 20) ||| ((insn &&& 0xf80).sshiftRight 7) =
      (Rv64.immS insn).signExtend 32 := by
    apply BitVec.eq_of_getLsbD_eq
    intro i word
    simp only [BitVec.getLsbD_or, BitVec.getLsbD_sshiftRight, BitVec.getLsbD_signExtend,
      BitVec.msb_eq_getLsbD_last, BitVec.getLsbD_and, Rv64.immS, BitVec.getLsbD_append,
      BitVec.getLsbD_extractLsb']
    interval_cases i <;> simp
  rw [rvInsnSImm12, joined, BitField.signExtend_signExtend _ (by decide) (by decide)]

theorem upperImm_eq (insn : U32) :
    (insn &&& 0xfffff000).signExtend 64 = (Rv64.imm20 insn ++ 0#12).signExtend 64 := by
  have same : insn &&& 0xfffff000 = Rv64.imm20 insn ++ 0#12 := by
    apply BitVec.eq_of_getLsbD_eq
    intro i word
    rw [BitVec.getLsbD_and, BitVec.getLsbD_append, Rv64.imm20, BitVec.getLsbD_extractLsb']
    interval_cases i <;> simp
  rw [same]

theorem rvBranchCond_eval {funct3 : BitVec 3} {cond : Rv64.Cond}
    (entry : (funct3, cond) ∈ Rv64.condTable) (x y : U64) :
    rvBranchCond funct3 x y = some (cond.eval x y) := by
  simp only [Rv64.condTable, Rv64.branchForms, List.zip_cons_cons, List.mem_cons, Prod.mk.injEq,
    List.zip_nil_right, List.not_mem_nil, or_false] at entry
  rcases entry with ⟨rfl, rfl⟩ | ⟨rfl, rfl⟩ | ⟨rfl, rfl⟩ | ⟨rfl, rfl⟩ | ⟨rfl, rfl⟩ | ⟨rfl, rfl⟩
  · rfl
  · simp [rvBranchCond, Rv64.Cond.eval, bne, beq_eq_decide]
  · simp [rvBranchCond, Rv64.Cond.eval, BitVec.slt_eq_decide]
  · have negated : (!x.slt y) = decide (y.toInt ≤ x.toInt) := by
      rw [BitVec.slt_eq_decide, ← decide_not]
      simp only [not_lt]
    exact congrArg some negated
  · rfl
  · rfl

def sizeExpOf : Rv64.Size → Fin 4
  | .byte => 0
  | .half => 1
  | .word => 2
  | .double => 3

theorem sizeExpOf_bytes (size : Rv64.Size) : 2 ^ (sizeExpOf size).val = size.bytes := by
  cases size <;> rfl

theorem loadTable_entry {funct3 : BitVec 3} {op : Rv64.LoadOp}
    (entry : (funct3, op) ∈ Rv64.loadTable) :
    rvLoadSizeExp funct3 = some (sizeExpOf op.size) ∧
      ∀ bytes, rvLoadExtend funct3 bytes = op.extend bytes := by
  simp only [Rv64.loadTable, Rv64.loadForms, List.zip_cons_cons, List.mem_cons, Prod.mk.injEq,
    List.zip_nil_right, List.not_mem_nil, or_false] at entry
  rcases entry with ⟨rfl, rfl⟩ | ⟨rfl, rfl⟩ | ⟨rfl, rfl⟩ | ⟨rfl, rfl⟩ | ⟨rfl, rfl⟩ | ⟨rfl, rfl⟩ |
    ⟨rfl, rfl⟩
  all_goals exact ⟨rfl, fun _ => rfl⟩

theorem storeTable_entry : ∀ entry ∈ Rv64.storeTable,
    rvStoreSizeExp entry.1 = sizeExpOf entry.2 := by decide

theorem amoSizes_entry : ∀ entry ∈ Rv64.amoSizes,
    entry.1 = 2 ∧ entry.2 = .word ∨ entry.1 = 3 ∧ entry.2 = .double := by decide

/-- Stores that agree on the bytes they write. -/
theorem ramStore_congr (ram : U64 → U8) (idx : U64) {data data' : U64} {n : Nat}
    (same : data.setWidth (8 * n) = data'.setWidth (8 * n)) :
    ramStore ram idx data n = ramStore ram idx data' n := by
  funext j
  rw [ramStore, ramStore]
  split
  · next inside =>
      have bytes := congrArg (fun x => Bytes.byte x (j - idx).toNat) same
      rwa [Bytes.byte_setWidth _ (by omega), Bytes.byte_setWidth _ (by omega)] at bytes
  · rfl

/-! ### Instructions -/

section Instructions

variable {mc : EmuConfig δ} {m : EmuMachine δ} {h : Nat} {s s' : Rv64.Hart} {next : U64}
  {insn : U32} {i : Rv64.Instr}

theorem rvBaseOp_refines (ready : Ready mc m h s next) {alu : Rv64.AluInstr}
    (decoded : Rv64.aluOf insn = some alu) (executed : Rv64.Instr.exec s next (.alu alu) = some s') :
    StepDone mc h s s' m (rvBaseOp mc m h insn) := by
  cases executed
  rw [rvBaseOp_aluForm (Rv64.aluOf_form decoded), ready.put_write, ready.xreg]
  exact ready.done_put rfl

theorem rvMuldiv_refines (ready : Ready mc m h s next) (narrow : Bool)
    (opMaj : rvInsnOpMaj insn = if narrow then 0b01110 else 0b01100)
    (funct7 : Rv64.funct7 insn = 1) (decoded : Rv64.mulOf insn narrow = some i)
    (executed : i.exec s next = some s') : StepDone mc h s s' m (rvBaseOp mc m h insn) := by
  have word : MuldivWord insn := by
    refine ⟨?_, funct7⟩
    cases narrow
    · exact Or.inl opMaj
    · exact Or.inr opMaj
  rw [Rv64.mulOf] at decoded
  split at decoded
  · cases decoded
  · next present =>
      cases decoded
      cases executed
      have value : muldivValue insn (s.reg (Rv64.rs1 insn)) (s.reg (Rv64.rs2 insn)) =
          some (Rv64.mulValue (.ofFunct3 (rvInsnFunct3 insn)) narrow (s.reg (Rv64.rs1 insn))
            (s.reg (Rv64.rs2 insn))) := by
        rw [muldivValue, opMaj]
        cases narrow with
        | false => rfl
        | true =>
            have wordForm : (Rvm.Op.ofFunct3 (rvInsnFunct3 insn)).hasWord = true := by
              have form : (Rvm.Op.ofFunct3 (Rv64.funct3 insn)).hasWord = true := by
                simpa using present
              exact form
            rw [if_pos rfl, if_pos wordForm]
            rfl
      have result : rvMuldivResult insn (m.xreg h (rvInsnRs1 insn)) (m.xreg h (rvInsnRs2 insn)) =
          some (Rv64.mulValue (.ofFunct3 (rvInsnFunct3 insn)) narrow (s.reg (Rv64.rs1 insn))
            (s.reg (Rv64.rs2 insn))) := by
        rw [rvMuldivResult_eq word, ready.xreg]
        exact value
      rw [rvBaseOp_muldiv mc m h word, rvMuldivOp, result]
      simp only [ready.put_write]
      exact ready.done_put rfl

theorem rvBaseLui_refines (ready : Ready mc m h s next) {value : U64}
    (computed : value = if (rvInsnOpMaj insn).getLsbD 3 then (Rv64.imm20 insn ++ 0#12).signExtend 64
      else s.pc + (Rv64.imm20 insn ++ 0#12).signExtend 64)
    (executed : s' = s.set (Rv64.rd insn) value next) :
    StepDone mc h s s' m (rvBaseLui m h insn) := by
  have written : rvBaseLui m h insn = m.writeXreg h (Rv64.rd insn) value := by
    rw [rvBaseLui, upperImm_eq, ready.epc, computed, BitVec.add_comm]
    rfl
  rw [written, ready.put_write, executed]
  exact ready.done_put rfl

theorem rvBaseJal_refines (ready : Ready mc m h s next)
    (executed : Rv64.Instr.exec s next (.jal (Rv64.rd insn) (Rv64.immJ insn)) = some s') :
    StepDone mc h s s' m (rvBaseJal m h insn) := by
  cases executed
  rw [rvBaseJal, jalImm_eq, ready.epc, ready.pc]
  simp only [ready.put_jump]
  exact ready.done_put rfl

theorem rvBaseJalr_refines (ready : Ready mc m h s next)
    (executed : Rv64.Instr.exec s next
      (.jalr (Rv64.rd insn) (Rv64.rs1 insn) (Rv64.imm12 insn)) = some s') :
    StepDone mc h s s' m (rvBaseJalr m h insn) := by
  cases executed
  rw [rvBaseJalr, rvInsnImm12_eq, ready.pc, ready.xreg]
  simp only [ready.put_jump]
  exact ready.done_put rfl

theorem rvBaseBranch_refines (ready : Ready mc m h s next) {cond : Rv64.Cond}
    (entry : (Rv64.funct3 insn, cond) ∈ Rv64.condTable)
    (executed : Rv64.Instr.exec s next
      (.branch cond (Rv64.rs1 insn) (Rv64.rs2 insn) (Rv64.immB insn)) = some s') :
    StepDone mc h s s' m (rvBaseBranch mc m h insn) := by
  cases executed
  have condition : rvBranchCond (rvInsnFunct3 insn) (m.xreg h (rvInsnRs1 insn))
      (m.xreg h (rvInsnRs2 insn)) =
        some (cond.eval (s.reg (Rv64.rs1 insn)) (s.reg (Rv64.rs2 insn))) := by
    rw [ready.xreg]
    exact rvBranchCond_eval entry _ _
  rw [rvBaseBranch, condition]
  cases cond.eval (s.reg (Rv64.rs1 insn)) (s.reg (Rv64.rs2 insn)) with
  | true =>
      simp only [branchImm_eq, ready.epc, ready.put_pc, BitVec.add_comm]
      exact ready.done_put rfl
  | false =>
      have done : StepDone mc h s { s with pc := next } m (m.put h s.regs next) :=
        ready.done_put rfl
      rwa [← ready.put_self] at done

theorem rvBaseMiscmem_refines (ready : Ready mc m h s next)
    (executed : Rv64.Instr.exec s next .fence = some s') :
    StepDone mc h s s' m (rvBaseMiscmem m h insn) := by
  cases executed
  have done : StepDone mc h s { s with pc := next } m (m.put h s.regs next) := ready.done_put rfl
  rwa [← ready.put_self] at done

theorem rvBaseLoad_refines (ready : Ready mc m h s next)
    (integer : (rvInsnOpMaj insn).getLsbD 0 = false) {op : Rv64.LoadOp}
    (entry : (Rv64.funct3 insn, op) ∈ Rv64.loadTable)
    (executed : Rv64.Instr.exec s next
      (.load op (Rv64.rd insn) (Rv64.rs1 insn) (Rv64.imm12 insn)) = some s') :
    StepDone mc h s s' m (rvBaseLoad mc m h insn) := by
  obtain ⟨bytes, loaded, rfl⟩ := Option.map_eq_some_iff.mp executed
  obtain ⟨size, extend⟩ := loadTable_entry entry
  rw [← sizeExpOf_bytes] at loaded
  have loads : rvAccessVirt mc m h _ 0 _ .load = _ :=
    rvAccessVirt_load ready.ram ready.free (by decide) loaded
  have legal : rvFpAccessIllegal (m.cpus h) insn = false := by
    rw [rvFpAccessIllegal, integer, Bool.false_and]
  have sized : rvLoadSizeExp (rvInsnFunct3 insn) = some (sizeExpOf op.size) := size
  have extended : rvLoadExtend (rvInsnFunct3 insn) bytes = op.extend bytes := extend bytes
  have addr : m.xreg h (rvInsnRs1 insn) + rvInsnImm12 insn =
      s.reg (Rv64.rs1 insn) + (Rv64.imm12 insn).signExtend 64 := by
    rw [ready.xreg, rvInsnImm12_eq]
    rfl
  simp only [rvBaseLoad, legal, sized, addr, loads, integer, Option.getD_some, extended,
    Bool.false_eq_true, if_false, ne_eq, not_true_eq_false]
  rw [ready.put_write]
  exact ready.done_put rfl

theorem rvBaseStore_refines (ready : Ready mc m h s next)
    (integer : (rvInsnOpMaj insn).getLsbD 0 = false) {size : Rv64.Size}
    (entry : (Rv64.funct3 insn, size) ∈ Rv64.storeTable)
    (executed : Rv64.Instr.exec s next
      (.store size (Rv64.rs2 insn) (Rv64.rs1 insn) (Rv64.immS insn)) = some s') :
    StepDone mc h s s' m (rvBaseStore mc m h insn) := by
  obtain ⟨mem, stored, rfl⟩ := Option.map_eq_some_iff.mp executed
  have sized : rvStoreSizeExp (rvInsnFunct3 insn) = sizeExpOf size := storeTable_entry _ entry
  rw [← sizeExpOf_bytes] at stored
  have held := fun i inside =>
    Rv64.Memory.held_of_writable ((Rv64.Memory.store_eq stored).1 i inside)
  have stores := rvAccessVirt_store ready.ram ready.free held (s.reg (Rv64.rs2 insn))
  have legal : rvFpAccessIllegal (m.cpus h) insn = false := by
    rw [rvFpAccessIllegal, integer, Bool.false_and]
  have addr : m.xreg h (rvInsnRs1 insn) + rvInsnSImm12 insn =
      s.reg (Rv64.rs1 insn) + (Rv64.immS insn).signExtend 64 := by
    rw [ready.xreg, storeImm_eq]
    rfl
  have source : m.xreg h (rvInsnRs2 insn) = s.reg (Rv64.rs2 insn) := by
    rw [ready.xreg]
    rfl
  simp only [rvBaseStore, legal, sized, addr, source, stores, integer, Bool.false_eq_true,
    if_false, ne_eq, not_true_eq_false]
  have done := ready.done_store stored s.regs (fun _ _ => rfl)
  rwa [← ready.put_self] at done

theorem rvInvalReservations_dropped (mc : EmuConfig δ) (reservations : Nat → RvReservation)
    (addr : U64) (i : Nat) (valid : (rvInvalReservations mc reservations addr i).valid = true) :
    rvInvalReservations mc reservations addr i = reservations i := by
  simp only [rvInvalReservations] at valid ⊢
  split at valid
  · cases valid
  · next kept => rw [if_neg kept]

theorem rvAtomicOp_refines (ready : Ready mc m h s next)
    (decoded : Rv64.amoOf insn = some i) (executed : i.exec s next = some s') :
    StepDone mc h s s' m (rvAtomicOp mc m h insn) := by
  obtain ⟨size, sized, named⟩ := Option.bind_eq_some_iff.mp decoded
  obtain ⟨op, code, rfl⟩ := Option.map_eq_some_iff.mp named
  rw [Rv64.Instr.exec] at executed
  split at executed
  case isFalse => cases executed
  next aligned =>
  obtain ⟨done, amo, rfl⟩ := Option.map_eq_some_iff.mp executed
  obtain ⟨old, loaded, stores⟩ := Option.bind_eq_some_iff.mp amo
  obtain ⟨mem, stored, rfl⟩ := Option.map_eq_some_iff.mp stores
  have funct3 : rvInsnFunct3 insn = 2 ∧ size = .word ∨ rvInsnFunct3 insn = 3 ∧ size = .double :=
    amoSizes_entry _ (Rv64.mem_of_lookup sized)
  have known : rvInsnFunct3 insn = 2 ∨ rvInsnFunct3 insn = 3 :=
    funct3.imp And.left And.left
  have width : rvAtomicWidth insn = size.bytes := by
    rcases funct3 with ⟨word, rfl⟩ | ⟨double, rfl⟩
    · exact rvAtomicWidth_word word
    · exact rvAtomicWidth_double double
  have exponent : 2 ^ (rvAtomicSizeExp insn).val = size.bytes := by
    rw [← width, ← rvAtomicSizeExp_width known, accessSize_toNat]
  have source : m.xreg h (rvInsnRs1 insn) = s.reg (Rv64.rs1 insn) := by
    rw [ready.xreg]
    rfl
  have held := Rv64.Memory.held_of_load loaded
  have small : size.bytes ≤ 8 := by cases size <;> decide
  have pos : 0 < size.bytes := by cases size <;> decide
  have permitted : doPmpCheck (m.cpus h) (s.reg (Rv64.rs1 insn)) (bit (rvAtomicSizeExp insn).val)
      .amo = .ok := by
    apply ready.free.granted
    rw [exponent]
    exact held
  have inRam : ramHoldsRange mc (s.reg (Rv64.rs1 insn)) (bit (rvAtomicSizeExp insn).val) = true := by
    have high := (ready.ram.high held small).resolve_right (by omega)
    apply ramHoldsRange_of_le (ready.ram.low held pos)
    rw [accessSize_toNat, exponent]
    exact high
  obtain ⟨newval, atomic, value⟩ := rvAtomicAmo_ram known (ofFunct5_some code)
    (ready.free.bare .amo) permitted inRam
  have alignedWidth : (m.xreg h (rvInsnRs1 insn)).toNat % rvAtomicWidth insn = 0 := by
    rw [source, width]
    exact aligned
  have loads := ready.ram.load loaded
  rw [rvAtomicOp, rvAtomicExec_amo known (ofFunct5_some code) alignedWidth, source, atomic]
  rw [width, ramWord, ← loads] at value ⊢
  -- The word stored and the value of the operation agree on the bytes written.
  have agrees : newval.setWidth (8 * size.bytes) =
      ((Rva.eval op (old.setWidth (8 * size.bytes))
        ((s.reg (Rv64.rs2 insn)).setWidth (8 * size.bytes))).setWidth 64).setWidth
          (8 * size.bytes) := by
    have operand : m.xreg h (rvInsnRs2 insn) = s.reg (Rv64.rs2 insn) := by
      rw [ready.xreg]
      rfl
    rw [value, operand, BitVec.setWidth_setWidth_of_le _ (by omega), BitVec.setWidth_eq]
  rw [ramStore_congr m.ram _ agrees]
  have done := ready.done_store stored
    (s.regs.write (Rv64.rd insn) ((old.setWidth (8 * size.bytes)).signExtend 64))
    (rvInvalReservations_dropped mc m.reservations (s.reg (Rv64.rs1 insn)))
  rw [← ready.put_write] at done
  exact done

/-- Executing a word refines executing the instruction it encodes. -/
theorem rvForcefeedInsn_refines (ready : Ready mc m h s next)
    (decoded : Rv64.decode insn = some i) (executed : i.exec s next = some s') :
    StepDone mc h s s' m (rvForcefeedInsn mc m h insn) := by
  rw [Rv64.decode] at decoded
  cases major : Rv64.majorOf insn with
  | none =>
      simp only [major] at decoded
      split at decoded
      · next opcode =>
          cases decoded
          have form : rvOpMajOf insn = some .miscMem := by
            rw [rvOpMajOf, rvInsnOpMaj_eq, opcode]
            rfl
          rw [rvForcefeedInsn, form]
          exact rvBaseMiscmem_refines ready executed
      · cases decoded
  | some form =>
      have opMaj := rvInsnOpMaj_of major
      rw [rvForcefeedInsn_handler major]
      simp only [major] at decoded
      cases form with
      | op =>
          simp only at decoded
          split at decoded
          · next funct7 => exact rvMuldiv_refines ready false opMaj funct7 decoded executed
          · obtain ⟨alu, found, rfl⟩ := Option.map_eq_some_iff.mp decoded
            exact rvBaseOp_refines ready found executed
      | op32 =>
          simp only at decoded
          split at decoded
          · next funct7 => exact rvMuldiv_refines ready true opMaj funct7 decoded executed
          · obtain ⟨alu, found, rfl⟩ := Option.map_eq_some_iff.mp decoded
            exact rvBaseOp_refines ready found executed
      | opImm | opImm32 =>
          obtain ⟨alu, found, rfl⟩ := Option.map_eq_some_iff.mp decoded
          exact rvBaseOp_refines ready found executed
      | lui =>
          cases decoded
          cases executed
          exact rvBaseLui_refines ready (by rw [opMaj]; rfl) rfl
      | auipc =>
          cases decoded
          cases executed
          exact rvBaseLui_refines ready (by rw [opMaj]; rfl) rfl
      | jal =>
          cases decoded
          exact rvBaseJal_refines ready executed
      | jalr =>
          simp only at decoded
          split at decoded
          · cases decoded
            exact rvBaseJalr_refines ready executed
          · cases decoded
      | branch =>
          obtain ⟨cond, found, rfl⟩ := Option.map_eq_some_iff.mp decoded
          exact rvBaseBranch_refines ready (Rv64.mem_of_lookup found) executed
      | load =>
          obtain ⟨op, found, rfl⟩ := Option.map_eq_some_iff.mp decoded
          exact rvBaseLoad_refines ready (by rw [opMaj]; rfl) (Rv64.mem_of_lookup found) executed
      | store =>
          obtain ⟨size, found, rfl⟩ := Option.map_eq_some_iff.mp decoded
          exact rvBaseStore_refines ready (by rw [opMaj]; rfl) (Rv64.mem_of_lookup found) executed
      | amo => exact rvAtomicOp_refines ready decoded executed

end Instructions

/-! ### Steps and runs -/

section Steps

variable {mc : EmuConfig δ} {m : EmuMachine δ} {h : Nat} {s s' : Rv64.Hart}

/-- A step of the ISA is a step of the emulator. -/
theorem rvStepInsn_refines (state : InState mc m h s) (accepted : ¬AtRejectedHint s)
    (stepped : s.step isaExpand = some s') :
    StepDone mc h s s' m (rvStepInsn mc m h) := by
  obtain ⟨fetched, fetch, executes⟩ := Option.bind_eq_some_iff.mp stepped
  obtain ⟨i, decoded, executed⟩ := Option.bind_eq_some_iff.mp executes
  have core : (m.setCpu h { m.cpus h with
      epc := (m.cpus h).pc, pc := (m.cpus h).pc + fetched.2 }).cpus h =
        { m.cpus h with epc := (m.cpus h).pc, pc := (m.cpus h).pc + fetched.2 } :=
    EmuMachine.setCpu_same m h _
  have fetching : LocalStep mc h s.mem.writable m (m.setCpu h { m.cpus h with
      epc := (m.cpus h).pc, pc := (m.cpus h).pc + fetched.2 }) := by
    constructor
    · exact ⟨_, _, _, core⟩
    · intro i other
      exact EmuMachine.setCpu_other m _ other
    · exact fun _ _ => rfl
    · exact fun _ _ => rfl
    · rfl
  have ready : Ready mc (m.setCpu h { m.cpus h with
      epc := (m.cpus h).pc, pc := (m.cpus h).pc + fetched.2 }) h s (s.pc + fetched.2) := by
    constructor
    · rw [core, state.pc]
    · rw [core, state.pc]
    · rw [core, ← state.regs]
    · exact state.ram
    · rw [core]
      exact state.free.regs _ _ _
  have done := rvForcefeedInsn_refines ready decoded executed
  have quiet := done.state.free.quiet
  rw [rvStepInsn, rvStepInsnBy, state.fetch fetch accepted, rvFetched]
  simp only [rvCheckInterrupts, quiet]
  exact ⟨done.state, fetching.trans done.kept, done.shape⟩

end Steps

end Riscmulator
