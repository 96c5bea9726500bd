import Riscmulator.Base
import Riscmulator.CsrWrite

/-! `do_csr` against the CSR instructions of Zicsr: which accesses are refused, and what
is read and written. -/

namespace Riscmulator

variable {δ : Type}

/-! ### Instructions and accesses -/

inductive CsrOp
  | rw | rs | rc
  deriving DecidableEq, Repr

def csrOp (funct3 : BitVec 3) : Option CsrOp :=
  match funct3 with
  | 1 | 5 => some .rw
  | 2 | 6 => some .rs
  | 3 | 7 => some .rc
  | _ => none

/-- The value an operation writes over `old`. -/
def CsrOp.value (old src : U64) : CsrOp → U64
  | .rw => src
  | .rs => old ||| src
  | .rc => old &&& ~~~src

def csrIndex (insn : U32) : Nat := (rvInsnUimm12 insn).toNat

/-- The operand is an immediate in the field of `rs1`. -/
def csrImmediate (insn : U32) : Bool := (rvInsnFunct3 insn).getLsbD 2

def csrOperand (cpu : RvCpu) (insn : U32) : U64 :=
  if csrImmediate insn then (rvInsnRs1 insn).setWidth 64 else rvXregRead cpu (rvInsnRs1 insn)

/-- Indices whose bits 11:10 are ones are read-only. -/
def CsrReadOnly (index : Nat) : Prop := index / 2 ^ 10 = 3

instance (index : Nat) : Decidable (CsrReadOnly index) := inferInstanceAs (Decidable (_ = _))

/-- The register exists and the core may access it. -/
def CsrAccessible (cpu : RvCpu) (index : Nat) : Prop :=
  ∃ reg, CsrGrants cpu index reg ∧ (reg = .satp → rvSatpTrapped cpu = false) ∧
    (reg ∈ [RvCsr.fcsr, .fflags, .frm] →
      rvCheckXs cpu.csr.mstatus rvStatusFsBaseBit = true)

section Accesses

variable {cpu : RvCpu} {index : Nat}

theorem rvCsrReadReg_isSome {reg : RvCsr} :
    (rvCsrReadReg cpu reg).isSome ↔ (reg = .satp → rvSatpTrapped cpu = false) ∧
      (reg ∈ [RvCsr.fcsr, .fflags, .frm] →
        rvCheckXs cpu.csr.mstatus rvStatusFsBaseBit = true) := by
  cases reg with
  | satp => cases trapped : rvSatpTrapped cpu <;> simp [rvCsrReadReg, trapped]
  | fcsr | fflags | frm =>
      cases on : rvCheckXs cpu.csr.mstatus rvStatusFsBaseBit <;> simp [rvCsrReadReg, on]
  | pmpaddr entry =>
      simp only [rvCsrReadReg]
      split <;> simp
  | _ => simp [rvCsrReadReg]

theorem rvCsrWriteReg_isSome {reg : RvCsr} {wdata : U64} :
    (rvCsrWriteReg cpu reg wdata).isSome ↔ (reg = .satp → rvSatpTrapped cpu = false) ∧
      (reg ∈ [RvCsr.fcsr, .fflags, .frm] →
        rvCheckXs cpu.csr.mstatus rvStatusFsBaseBit = true) := by
  cases reg with
  | satp =>
      cases trapped : rvSatpTrapped cpu
      · simp only [rvCsrWriteReg, trapped, Bool.false_eq_true, if_false]
        split <;> simp
      · simp [rvCsrWriteReg, trapped]
  | fcsr | fflags | frm =>
      cases on : rvCheckXs cpu.csr.mstatus rvStatusFsBaseBit <;> simp [rvCsrWriteReg, on]
  | pmpaddr entry =>
      simp only [rvCsrWriteReg]
      split <;> simp
  | _ => simp [rvCsrWriteReg]

theorem rvCsrRead_eq_some {old : U64} : rvCsrRead cpu index = some old ↔
    ∃ reg, CsrGrants cpu index reg ∧ rvCsrReadReg cpu reg = some old := by
  unfold rvCsrRead CsrGrants
  by_cases refused : rvCsrPriv index > cpu.privilege.toNat
  · rw [if_pos refused]
    constructor
    · intro impossible
      cases impossible
    · rintro ⟨_, ⟨allowed, _⟩, _⟩
      omega
  · rw [if_neg refused, Option.bind_eq_some_iff]
    simp only [Nat.not_lt.mp refused, true_and]

theorem csrAccessible_iff_read :
    CsrAccessible cpu index ↔ ∃ old, rvCsrRead cpu index = some old := by
  constructor
  · rintro ⟨reg, grants, checks⟩
    rcases Option.isSome_iff_exists.mp (rvCsrReadReg_isSome.mpr checks) with ⟨old, read⟩
    exact ⟨old, rvCsrRead_eq_some.mpr ⟨reg, grants, read⟩⟩
  · rintro ⟨old, read⟩
    rcases rvCsrRead_eq_some.mp read with ⟨reg, grants, value⟩
    have present : (rvCsrReadReg cpu reg).isSome := by rw [value, Option.isSome_some]
    exact ⟨reg, grants, rvCsrReadReg_isSome.mp present⟩

theorem csrAccessible_iff_write (wdata : U64) :
    CsrAccessible cpu index ↔ ∃ cpu', rvCsrWrite cpu index wdata = some cpu' := by
  constructor
  · rintro ⟨reg, grants, checks⟩
    rcases Option.isSome_iff_exists.mp (rvCsrWriteReg_isSome.mpr checks) with ⟨cpu', written⟩
    exact ⟨cpu', rvCsrWrite_eq_some.mpr ⟨reg, grants, written⟩⟩
  · rintro ⟨cpu', written⟩
    rcases rvCsrWrite_eq_some.mp written with ⟨reg, grants, done⟩
    have present : (rvCsrWriteReg cpu reg wdata).isSome := by rw [done, Option.isSome_some]
    exact ⟨reg, grants, rvCsrWriteReg_isSome.mp present⟩

/-- A refused access refuses reads and writes alike. -/
theorem csrAccess_refused (refused : ¬CsrAccessible cpu index) (wdata : U64) :
    rvCsrRead cpu index = none ∧ rvCsrWrite cpu index wdata = none := by
  constructor
  · cases read : rvCsrRead cpu index with
    | none => rfl
    | some old => exact absurd (csrAccessible_iff_read.mpr ⟨old, read⟩) refused
  · cases written : rvCsrWrite cpu index wdata with
    | none => rfl
    | some cpu' => exact absurd ((csrAccessible_iff_write wdata).mpr ⟨cpu', written⟩) refused

/-- The read-only registers ignore writes. -/
theorem rvCsrWrite_readOnly {wdata : U64} {cpu' : RvCpu} (readOnly : CsrReadOnly index)
    (written : rvCsrWrite cpu index wdata = some cpu') : cpu' = cpu := by
  have defs : ∀ entry ∈ rvCsrDefs, entry.1 / 2 ^ 10 = 3 →
      entry.2 ∈ [RvCsr.mhartid, .marchid, .mvendorid, .mimpid] := by decide
  rcases rvCsrWrite_eq_some.mp written with ⟨reg, grants, done⟩
  have selected := grants.2
  have fixed : reg ∈ [RvCsr.mhartid, .marchid, .mvendorid, .mimpid] := by
    rw [CsrReadOnly] at readOnly
    unfold rvCsrOfIndex at selected
    split at selected
    · next csr found =>
      cases selected
      rcases List.lookup_eq_some_iff.mp found with ⟨front, back, list, _⟩
      exact defs (index, reg) (by rw [list]; simp) readOnly
    · rw [dif_neg (by omega), dif_neg (by omega)] at selected
      cases selected
  simp only [List.mem_cons, List.not_mem_nil, or_false] at fixed
  rcases fixed with rfl | rfl | rfl | rfl
  all_goals
    cases done
    rfl

end Accesses

/-! ### The instruction -/

section Instruction

variable (mc : EmuConfig δ) (m : EmuMachine δ) (h : Nat) (insn : U32)

/-- What an access of a CSR instruction comes to. -/
structure ZicsrRight (op : CsrOp) : Prop where
  refused : ¬CsrAccessible (m.cpus h) (csrIndex insn) →
    doCsr mc m h insn = rvDoIillegal mc m h insn
  readable : CsrAccessible (m.cpus h) (csrIndex insn) →
    ∃ old, rvCsrRead (m.cpus h) (csrIndex insn) = some old
  readOnly : ∀ old, rvCsrRead (m.cpus h) (csrIndex insn) = some old →
    CsrReadOnly (csrIndex insn) → doCsr mc m h insn = m.writeXreg h (rvInsnRd insn) old
  unwritten : ∀ old, rvCsrRead (m.cpus h) (csrIndex insn) = some old →
    op ≠ .rw → csrImmediate insn = false → rvInsnRs1 insn = 0 →
    doCsr mc m h insn = m.writeXreg h (rvInsnRd insn) old
  written : ∀ old, rvCsrRead (m.cpus h) (csrIndex insn) = some old →
    (op = .rw ∨ rvInsnRs1 insn ≠ 0) →
    ∃ cpu', rvCsrWrite (m.cpus h) (csrIndex insn)
        (op.value old (csrOperand (m.cpus h) insn)) = some cpu' ∧
      doCsr mc m h insn = m.setCpu h (rvXregWrite cpu' (rvInsnRd insn) old)

variable {m h insn} {op : CsrOp} {old : U64}

/-- How the code tells the operations apart. -/
theorem csrOp_select : ∀ funct3, ∀ op ∈ csrOp funct3, (funct3 &&& 3) ≠ 0 ∧
    ((funct3 &&& 3) = 1 ↔ op = .rw) := by decide

theorem doCsrWdata_eq (decoded : csrOp (rvInsnFunct3 insn) = some op) (rdata src : U64) :
    doCsrWdata insn rdata src = op.value rdata src := by
  have table : ∀ funct3, ∀ op ∈ csrOp funct3,
      (op = .rw ∧ (funct3 &&& 3) = 1) ∨ (op = .rs ∧ (funct3 &&& 3) = 2) ∨
        (op = .rc ∧ (funct3 &&& 3) = 3) := by decide
  rcases table _ op decoded with ⟨rfl, low⟩ | ⟨rfl, low⟩ | ⟨rfl, low⟩ <;>
    rw [doCsrWdata, low] <;> rfl

theorem doCsrSource_eq (decoded : csrOp (rvInsnFunct3 insn) = some op) (cpu : RvCpu) :
    doCsrSource cpu insn = (csrOperand cpu insn,
      csrImmediate insn || decide (op = .rw ∨ rvInsnRs1 insn ≠ 0)) := by
  have rw_iff := (csrOp_select _ op decoded).2
  by_cases immediate : (rvInsnFunct3 insn).getLsbD 2 = true
  · simp only [doCsrSource, csrOperand, csrImmediate, immediate, if_true, Bool.true_or]
  · rw [Bool.not_eq_true] at immediate
    simp only [doCsrSource, csrOperand, csrImmediate, immediate, Bool.false_eq_true, if_false,
      Bool.false_or, Bool.decide_or, rw_iff]

/-- CSRRW with `rd = x0` does not read. -/
theorem doCsrRead_skips (cpu : RvCpu) (insn : U32) : doCsrRead cpu insn =
    if rvInsnRd insn = 0 ∧ (rvInsnFunct3 insn &&& 3) = 1 then some 0
    else rvCsrRead cpu (csrIndex insn) := by
  by_cases skipped : rvInsnRd insn = 0 ∧ (rvInsnFunct3 insn &&& 3) = 1
  · rw [doCsrRead, if_pos skipped, if_neg]
    rintro (target | other)
    · exact target skipped.1
    · exact other skipped.2
  · rw [doCsrRead, if_neg skipped, if_pos (Decidable.not_and_iff_or_not.mp skipped)]
    rfl

/-- The value read stands for the old one wherever the instruction uses it. -/
theorem doCsrRead_eq (decoded : csrOp (rvInsnFunct3 insn) = some op)
    (read : rvCsrRead (m.cpus h) (csrIndex insn) = some old) :
    ∃ rdata, doCsrRead (m.cpus h) insn = some rdata ∧
      (∀ src, op.value rdata src = op.value old src) ∧
      ∀ cpu, rvXregWrite cpu (rvInsnRd insn) rdata = rvXregWrite cpu (rvInsnRd insn) old := by
  have rw_iff := (csrOp_select _ op decoded).2
  by_cases skipped : rvInsnRd insn = 0 ∧ (rvInsnFunct3 insn &&& 3) = 1
  · refine ⟨0, ?_, ?_, ?_⟩
    · rw [doCsrRead_skips, if_pos skipped]
    · rw [rw_iff.mp skipped.2]
      exact fun _ => rfl
    · rw [skipped.1]
      exact fun _ => rfl
  · refine ⟨old, ?_, fun _ => rfl, fun _ => rfl⟩
    rw [doCsrRead_skips, if_neg skipped, read]

theorem doCsr_eq (decoded : csrOp (rvInsnFunct3 insn) = some op)
    (read : rvCsrRead (m.cpus h) (csrIndex insn) = some old) {cpu' : RvCpu}
    (stored : (if csrImmediate insn || decide (op = .rw ∨ rvInsnRs1 insn ≠ 0) then
        rvCsrWrite (m.cpus h) (csrIndex insn) (op.value old (csrOperand (m.cpus h) insn))
      else some (m.cpus h)) = some cpu') :
    doCsr mc m h insn = m.setCpu h (rvXregWrite cpu' (rvInsnRd insn) old) := by
  rcases doCsrRead_eq decoded read with ⟨rdata, got, value, target⟩
  have write : doCsrWrite (m.cpus h) insn rdata = some cpu' := by
    rw [doCsrWrite, doCsrSource_eq decoded, doCsrWdata_eq decoded, value]
    exact stored
  simp only [doCsr, got, if_neg (csrOp_select _ op decoded).1, write, target]

/-- CSR instructions, except that CSRRSI and CSRRCI write also with a zero immediate:
refused accesses are illegal, read-only registers ignore writes, CSRRS and CSRRC write
nothing with `rs1 = x0`, and the others write the result on the value read. -/
theorem doCsr_zicsr (mc : EmuConfig δ) (m : EmuMachine δ) (h : Nat) (insn : U32) (op : CsrOp)
    (decoded : csrOp (rvInsnFunct3 insn) = some op) : ZicsrRight mc m h insn op := by
  constructor
  · intro refused
    by_cases skipped : rvInsnRd insn = 0 ∧ (rvInsnFunct3 insn &&& 3) = 1
    · have read : doCsrRead (m.cpus h) insn = some 0 := by
        rw [doCsrRead_skips, if_pos skipped]
      have writes : op = .rw ∨ rvInsnRs1 insn ≠ 0 :=
        Or.inl ((csrOp_select _ op decoded).2.mp skipped.2)
      have write : doCsrWrite (m.cpus h) insn 0 = none := by
        rw [doCsrWrite, doCsrSource_eq decoded, decide_eq_true writes, Bool.or_true, if_pos rfl]
        exact (csrAccess_refused refused _).2
      simp only [doCsr, read, if_neg (csrOp_select _ op decoded).1, write]
    · have read : doCsrRead (m.cpus h) insn = none := by
        rw [doCsrRead_skips, if_neg skipped, (csrAccess_refused refused 0).1]
      rw [doCsr, read]
  · exact csrAccessible_iff_read.mp
  · intro old read readOnly
    have writes := (csrAccessible_iff_write (op.value old (csrOperand (m.cpus h) insn))).mp
      (csrAccessible_iff_read.mpr ⟨old, read⟩)
    rcases writes with ⟨cpu', write⟩
    have kept := rvCsrWrite_readOnly readOnly write
    rw [kept] at write
    exact doCsr_eq mc decoded read (by rw [write, ite_self])
  · intro old read other register zero
    apply doCsr_eq mc decoded read
    rw [register, if_neg]
    simp [other, zero]
  · intro old read writes
    rcases (csrAccessible_iff_write (op.value old (csrOperand (m.cpus h) insn))).mp
      (csrAccessible_iff_read.mpr ⟨old, read⟩) with ⟨cpu', write⟩
    refine ⟨cpu', write, doCsr_eq mc decoded read ?_⟩
    rw [decide_eq_true writes, Bool.or_true, if_pos rfl, write]

end Instruction

/-- `csrrw x1, mscratch, x2`. -/
theorem doCsr_zicsr_csrrw :
    ZicsrRight (EmuConfig.ramOnly 0 0x1000 1) (emuMachineInit ()) 0 0x340110f3 .rw :=
  doCsr_zicsr (EmuConfig.ramOnly 0 0x1000 1) (emuMachineInit ()) 0 0x340110f3 .rw (by decide)

/-- `csrrw x1, mhartid, x2` writes a read-only register, and is not illegal. -/
theorem doCsr_mhartid :
    ¬∀ (mc : EmuConfig Unit) (m : EmuMachine Unit) (h : Nat) (insn : U32) (op : CsrOp),
      csrOp (rvInsnFunct3 insn) = some op →
        (¬CsrAccessible (m.cpus h) (csrIndex insn) ∨
          ((op = .rw ∨ rvInsnRs1 insn ≠ 0) ∧ CsrReadOnly (csrIndex insn))) →
        doCsr mc m h insn = rvDoIillegal mc m h insn := by
  intro always
  have illegal := always (EmuConfig.ramOnly 0 0x1000 1) (emuMachineInit ()) 0 0xf14110f3 .rw
    (by decide) (Or.inr ⟨Or.inl rfl, by decide⟩)
  have cause := congrArg (fun m => (m.cpus 0).csr.mcause) illegal
  exact absurd cause (by decide +kernel)

end Riscmulator
