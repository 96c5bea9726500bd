import Riscmulator.Lib.Rv64

/-! The integer instructions of RV64I under OP, OP-IMM, OP-32 and OP-IMM-32: their
operations at any register width, and the encodings that select them. -/

namespace Rv64

/-! ### Operations -/

inductive AluOp
  | add | sub | sll | slt | sltu | xor | srl | sra | or | and
  deriving DecidableEq, Repr

/-- The result at register width `w`; a shift amount is taken modulo `w`. -/
def AluOp.eval {w : Nat} : AluOp → BitVec w → BitVec w → BitVec w
  | .add, x, y => x + y
  | .sub, x, y => x - y
  | .sll, x, y => BitVec.ofNat w (x.toNat * 2 ^ (y.toNat % w))
  | .slt, x, y => if x.toInt < y.toInt then 1 else 0
  | .sltu, x, y => if x.toNat < y.toNat then 1 else 0
  | .xor, x, y => x ^^^ y
  | .srl, x, y => BitVec.ofNat w (x.toNat / 2 ^ (y.toNat % w))
  | .sra, x, y => BitVec.ofInt w (x.toInt / 2 ^ (y.toNat % w))
  | .or, x, y => x ||| y
  | .and, x, y => x &&& y

/-- Operands that agree modulo the width shift alike. -/
theorem AluOp.eval_shift {w : Nat} (x : BitVec w) {op : AluOp}
    (shift : op = .sll ∨ op = .srl ∨ op = .sra) {y z : BitVec w}
    (same : y.toNat % w = z.toNat % w) : op.eval x y = op.eval x z := by
  rcases shift with rfl | rfl | rfl <;> simp only [AluOp.eval, same]

/-! ### Encodings -/

def rd (word : BitVec 32) : BitVec 5 := word.extractLsb' 7 5
def rs1 (word : BitVec 32) : BitVec 5 := word.extractLsb' 15 5
def imm12 (word : BitVec 32) : BitVec 12 := word.extractLsb' 20 12

/-- The second operand of an instruction. -/
inductive AluSource
  | reg (rs2 : BitVec 5)
  | imm (value : BitVec 12)
  | shamt (amount : BitVec 6)
  deriving DecidableEq, Repr

/-- An integer instruction; `word` for the forms on 32 bits. -/
structure AluInstr where
  op : AluOp
  word : Bool
  rd : BitVec 5
  rs1 : BitVec 5
  source : AluSource
  deriving DecidableEq, Repr

def AluSource.value (regs : BitVec 5 → BitVec 64) : AluSource → BitVec 64
  | .reg rs2 => regs rs2
  | .imm value => value.signExtend 64
  | .shamt amount => amount.setWidth 64

/-- The result of an instruction. The forms on 32 bits extend the sign of theirs. -/
def AluInstr.eval (i : AluInstr) (regs : BitVec 5 → BitVec 64) : BitVec 64 :=
  if i.word then
    (i.op.eval ((regs i.rs1).setWidth 32) ((i.source.value regs).setWidth 32)).signExtend 64
  else i.op.eval (regs i.rs1) (i.source.value regs)

/-- The operations of `opForms`, in its order. -/
def opTable : List ((BitVec 7 × BitVec 3) × AluOp) :=
  opForms.zip [.add, .sub, .sll, .slt, .sltu, .xor, .srl, .sra, .or, .and]

def opWTable : List ((BitVec 7 × BitVec 3) × AluOp) :=
  opWForms.zip [.add, .sub, .sll, .srl, .sra]

def immTable : List (BitVec 3 × AluOp) := immForms.zip [.add, .slt, .sltu, .xor, .or, .and]

def shiftTable : List ((BitVec 6 × BitVec 3) × AluOp) := shiftForms.zip [.sll, .srl, .sra]

def shiftWTable : List ((BitVec 7 × BitVec 3) × AluOp) := shiftWForms.zip [.sll, .srl, .sra]

/-- The integer instruction that a word encodes. -/
def aluOf (word : BitVec 32) : Option AluInstr :=
  let instr (op : AluOp) (narrow : Bool) (source : AluSource) : AluInstr :=
    ⟨op, narrow, rd word, rs1 word, source⟩
  match majorOf word with
  | some .op =>
      (opTable.lookup (funct7 word, funct3 word)).map fun op => instr op false (.reg (rs2 word))
  | some .op32 =>
      (opWTable.lookup (funct7 word, funct3 word)).map fun op => instr op true (.reg (rs2 word))
  | some .opImm =>
      match immTable.lookup (funct3 word) with
      | some op => some (instr op false (.imm (imm12 word)))
      | none =>
          (shiftTable.lookup (funct6 word, funct3 word)).map fun op =>
            instr op false (.shamt (word.extractLsb' 20 6))
  | some .opImm32 =>
      if funct3 word = 0 then some (instr .add true (.imm (imm12 word)))
      else
        (shiftWTable.lookup (funct7 word, funct3 word)).map fun op =>
          instr op true (.shamt ((rs2 word).setWidth 6))
  | _ => none

/-- The major opcodes of the integer instructions. -/
def aluMajors : List Major := [.op, .opImm, .op32, .opImm32]

/-- Every listed word under these opcodes outside the M extension is an integer
instruction. -/
theorem exists_aluOf {word : BitVec 32} {major : Major} (form : majorOf word = some major)
    (integer : major ∈ aluMajors) (valid : listed word major = true)
    (single : major = .op ∨ major = .op32 → funct7 word ≠ 1) : ∃ i, aluOf word = some i := by
  have op : ∀ entry ∈ opForms ++ mulForms, entry.1 ≠ 1 → (opTable.lookup entry).isSome := by
    decide +kernel
  have opW : ∀ entry ∈ opWForms ++ mulWForms, entry.1 ≠ 1 → (opWTable.lookup entry).isSome := by
    decide +kernel
  have imm : ∀ entry ∈ immForms, (immTable.lookup entry).isSome := by
    decide +kernel
  have shift : ∀ entry ∈ shiftForms, (shiftTable.lookup entry).isSome := by
    decide +kernel
  have shiftW : ∀ entry ∈ shiftWForms, (shiftWTable.lookup entry).isSome := by
    decide +kernel
  simp only [aluMajors, List.mem_cons, List.not_mem_nil, or_false] at integer
  rw [← Option.isSome_iff_exists, aluOf, form]
  rcases integer with rfl | rfl | rfl | rfl
  · simpa using op _ (of_decide_eq_true valid) (single (Or.inl rfl))
  · simp only [listed, Bool.or_eq_true, decide_eq_true_eq] at valid
    cases found : immTable.lookup (funct3 word) with
    | some op => rfl
    | none =>
        have absent : funct3 word ∉ immForms := by
          intro member
          have present := imm _ member
          rw [found] at present
          cases present
        simpa using shift _ (valid.resolve_left absent)
  · simpa using opW _ (of_decide_eq_true valid) (single (Or.inr rfl))
  · simp only [listed, Bool.or_eq_true, decide_eq_true_eq] at valid
    by_cases add : funct3 word = 0
    · simp [add]
    · simp only [if_neg add, Option.isSome_map]
      exact shiftW _ (valid.resolve_left add)

/-- The forms of the integer instructions. -/
inductive AluForm (word : BitVec 32) : AluInstr → Prop
  | op {op : AluOp} (major : majorOf word = some .op)
      (entry : ((funct7 word, funct3 word), op) ∈ opTable) :
      AluForm word ⟨op, false, rd word, rs1 word, .reg (rs2 word)⟩
  | op32 {op : AluOp} (major : majorOf word = some .op32)
      (entry : ((funct7 word, funct3 word), op) ∈ opWTable) :
      AluForm word ⟨op, true, rd word, rs1 word, .reg (rs2 word)⟩
  | imm {op : AluOp} (major : majorOf word = some .opImm)
      (entry : (funct3 word, op) ∈ immTable) :
      AluForm word ⟨op, false, rd word, rs1 word, .imm (imm12 word)⟩
  | shift {op : AluOp} (major : majorOf word = some .opImm)
      (entry : ((funct6 word, funct3 word), op) ∈ shiftTable) :
      AluForm word ⟨op, false, rd word, rs1 word, .shamt (word.extractLsb' 20 6)⟩
  | addiw (major : majorOf word = some .opImm32) (entry : funct3 word = 0) :
      AluForm word ⟨.add, true, rd word, rs1 word, .imm (imm12 word)⟩
  | shiftW {op : AluOp} (major : majorOf word = some .opImm32)
      (entry : ((funct7 word, funct3 word), op) ∈ shiftWTable) :
      AluForm word ⟨op, true, rd word, rs1 word, .shamt ((rs2 word).setWidth 6)⟩

theorem mem_of_lookup {α β : Type} [BEq α] [LawfulBEq α] {table : List (α × β)} {key : α}
    {value : β} (found : table.lookup key = some value) : (key, value) ∈ table := by
  rcases List.lookup_eq_some_iff.mp found with ⟨front, back, rfl, _⟩
  simp

theorem aluOf_form {word : BitVec 32} {i : AluInstr} (decoded : aluOf word = some i) :
    AluForm word i := by
  rw [aluOf] at decoded
  split at decoded
  · next major =>
    rcases Option.map_eq_some_iff.mp decoded with ⟨op, found, rfl⟩
    exact .op major (mem_of_lookup found)
  · next major =>
    rcases Option.map_eq_some_iff.mp decoded with ⟨op, found, rfl⟩
    exact .op32 major (mem_of_lookup found)
  · next major =>
    split at decoded
    · next op found =>
      cases decoded
      exact .imm major (mem_of_lookup found)
    · rcases Option.map_eq_some_iff.mp decoded with ⟨op, found, rfl⟩
      exact .shift major (mem_of_lookup found)
  · next major =>
    split at decoded
    · next entry =>
      cases decoded
      exact .addiw major entry
    · rcases Option.map_eq_some_iff.mp decoded with ⟨op, found, rfl⟩
      exact .shiftW major (mem_of_lookup found)
  · cases decoded

end Rv64
