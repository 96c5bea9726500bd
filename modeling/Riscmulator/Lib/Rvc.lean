import Riscmulator.Lib.Rv64

/-! The RV64C extension with D: what each halfword expands to, and the 32-bit word
of the expansion. -/

namespace Rvc

/-! ### Expansions -/

inductive ImmOp
  | addi | addiw | andi
  deriving DecidableEq, Repr

inductive ShiftOp
  | slli | srli | srai
  deriving DecidableEq, Repr

inductive RegOp
  | add | sub | xor | or | and | addw | subw
  deriving DecidableEq, Repr

/-- LW and SW, LD and SD, FLD and FSD. -/
inductive Width
  | word | double | float
  deriving DecidableEq, Repr

/-- The base instructions that halfwords expand to. A jump to a register has no
offset and a branch compares with `x0`. -/
inductive Instr
  | imm (op : ImmOp) (rd rs1 : BitVec 5) (value : BitVec 12)
  | shift (op : ShiftOp) (rd rs1 : BitVec 5) (shamt : BitVec 6)
  | reg (op : RegOp) (rd rs1 rs2 : BitVec 5)
  | lui (rd : BitVec 5) (value : BitVec 20)
  | load (width : Width) (rd rs1 : BitVec 5) (offset : BitVec 12)
  | store (width : Width) (rs2 rs1 : BitVec 5) (offset : BitVec 12)
  | jal (rd : BitVec 5) (offset : BitVec 21)
  | jalr (rd rs1 : BitVec 5)
  | branch (equal : Bool) (rs1 : BitVec 5) (offset : BitVec 13)
  | ebreak
  deriving DecidableEq, Repr

/-! ### Values -/

/-- The low word of `value`, sign-extended. -/
def signWord (value : BitVec 64) : BitVec 64 := (value.setWidth 32).signExtend 64

def ImmOp.eval (op : ImmOp) (lhs : BitVec 64) (value : BitVec 12) : BitVec 64 :=
  match op with
  | .addi => lhs + value.signExtend 64
  | .addiw => signWord (lhs + value.signExtend 64)
  | .andi => lhs &&& value.signExtend 64

def ShiftOp.eval (op : ShiftOp) (lhs : BitVec 64) (shamt : BitVec 6) : BitVec 64 :=
  match op with
  | .slli => lhs <<< shamt.toNat
  | .srli => lhs >>> shamt.toNat
  | .srai => lhs.sshiftRight shamt.toNat

def RegOp.eval (op : RegOp) (lhs rhs : BitVec 64) : BitVec 64 :=
  match op with
  | .add => lhs + rhs
  | .sub => lhs - rhs
  | .xor => lhs ^^^ rhs
  | .or => lhs ||| rhs
  | .and => lhs &&& rhs
  | .addw => signWord (lhs + rhs)
  | .subw => signWord (lhs - rhs)

/-- The value loaded, from the bytes in memory. -/
def Width.loaded (width : Width) (bytes : BitVec 64) : BitVec 64 :=
  match width with
  | .word => signWord bytes
  | .double | .float => bytes

/-- Jumps and branches go an even number of bytes. -/
def Instr.Even : Instr → Prop
  | .jal _ offset => offset.getLsbD 0 = false
  | .branch _ _ offset => offset.getLsbD 0 = false
  | _ => True

/-! ### Words -/

/-- `funct3` and opcode of the operations on an immediate. -/
def ImmOp.code : ImmOp → BitVec 3 × BitVec 7
  | .addi => (0, 0b0010011)
  | .addiw => (0, 0b0011011)
  | .andi => (7, 0b0010011)

/-- `funct6` and `funct3` of the shifts. -/
def ShiftOp.code : ShiftOp → BitVec 6 × BitVec 3
  | .slli => (0x00, 1)
  | .srli => (0x00, 5)
  | .srai => (0x10, 5)

/-- `funct7`, `funct3` and opcode of the operations on registers. -/
def RegOp.code : RegOp → BitVec 7 × BitVec 3 × BitVec 7
  | .add => (0x00, 0, 0b0110011)
  | .sub => (0x20, 0, 0b0110011)
  | .xor => (0x00, 4, 0b0110011)
  | .or => (0x00, 6, 0b0110011)
  | .and => (0x00, 7, 0b0110011)
  | .addw => (0x00, 0, 0b0111011)
  | .subw => (0x20, 0, 0b0111011)

def Width.funct3 : Width → BitVec 3
  | .word => 2
  | .double | .float => 3

def Width.loadOpcode : Width → BitVec 7
  | .word | .double => 0b0000011
  | .float => 0b0000111

def Width.storeOpcode : Width → BitVec 7
  | .word | .double => 0b0100011
  | .float => 0b0100111

def encode : Instr → BitVec 32
  | .imm op rd rs1 value => Rv64.encI value rs1 op.code.1 rd op.code.2
  | .shift op rd rs1 shamt => Rv64.encI (op.code.1 ++ shamt) rs1 op.code.2 rd 0b0010011
  | .reg op rd rs1 rs2 => Rv64.pack op.code.1 rs2 rs1 op.code.2.1 rd op.code.2.2
  | .lui rd value => Rv64.encU value rd 0b0110111
  | .load width rd rs1 offset => Rv64.encI offset rs1 width.funct3 rd width.loadOpcode
  | .store width rs2 rs1 offset => Rv64.encS offset rs2 rs1 width.funct3 width.storeOpcode
  | .jal rd offset => Rv64.encJ offset rd 0b1101111
  | .jalr rd rs1 => Rv64.encI 0 rs1 0 rd 0b1100111
  | .branch equal rs1 offset => Rv64.encB offset 0 rs1 (if equal then 0 else 1) 0b1100011
  | .ebreak => 0x00100073

/-! ### Fields of a halfword -/

def sp : BitVec 5 := 2
def ra : BitVec 5 := 1

/-- The registers `x8` to `x15`. -/
def shortReg (hw : BitVec 16) (lo : Nat) : BitVec 5 := 1#2 ++ hw.extractLsb' lo 3

def rd (hw : BitVec 16) : BitVec 5 := hw.extractLsb' 7 5
def rs2 (hw : BitVec 16) : BitVec 5 := hw.extractLsb' 2 5

/-- `imm[5]` at 12, `imm[4:0]` at 6:2. -/
def imm6 (hw : BitVec 16) : BitVec 6 := hw.extractLsb' 12 1 ++ hw.extractLsb' 2 5

/-- `imm[5:4|9:6|2|3]` at 12:5. -/
def immAddi4spn (hw : BitVec 16) : BitVec 10 :=
  hw.extractLsb' 7 4 ++ hw.extractLsb' 11 2 ++ hw.extractLsb' 5 1 ++ hw.extractLsb' 6 1 ++ 0#2

/-- `imm[9]` at 12, `imm[4|6|8:7|5]` at 6:2. -/
def immAddi16sp (hw : BitVec 16) : BitVec 10 :=
  hw.extractLsb' 12 1 ++ hw.extractLsb' 3 2 ++ hw.extractLsb' 5 1 ++ hw.extractLsb' 2 1 ++
    hw.extractLsb' 6 1 ++ 0#4

/-- `imm[5:3]` at 12:10, `imm[2|6]` at 6:5. -/
def offsetWord (hw : BitVec 16) : BitVec 7 :=
  hw.extractLsb' 5 1 ++ hw.extractLsb' 10 3 ++ hw.extractLsb' 6 1 ++ 0#2

/-- `imm[5:3]` at 12:10, `imm[7:6]` at 6:5. -/
def offsetDouble (hw : BitVec 16) : BitVec 8 :=
  hw.extractLsb' 5 2 ++ hw.extractLsb' 10 3 ++ 0#3

/-- `imm[5]` at 12, `imm[4:2|7:6]` at 6:2. -/
def offsetLwsp (hw : BitVec 16) : BitVec 8 :=
  hw.extractLsb' 2 2 ++ hw.extractLsb' 12 1 ++ hw.extractLsb' 4 3 ++ 0#2

/-- `imm[5]` at 12, `imm[4:3|8:6]` at 6:2. -/
def offsetLdsp (hw : BitVec 16) : BitVec 9 :=
  hw.extractLsb' 2 3 ++ hw.extractLsb' 12 1 ++ hw.extractLsb' 5 2 ++ 0#3

/-- `imm[5:2|7:6]` at 12:7. -/
def offsetSwsp (hw : BitVec 16) : BitVec 8 := hw.extractLsb' 7 2 ++ hw.extractLsb' 9 4 ++ 0#2

/-- `imm[5:3|8:6]` at 12:7. -/
def offsetSdsp (hw : BitVec 16) : BitVec 9 := hw.extractLsb' 7 3 ++ hw.extractLsb' 10 3 ++ 0#3

/-- `imm[11|4|9:8|10|6|7|3:1|5]` at 12:2. -/
def offsetJump (hw : BitVec 16) : BitVec 12 :=
  hw.extractLsb' 12 1 ++ hw.extractLsb' 8 1 ++ hw.extractLsb' 9 2 ++ hw.extractLsb' 6 1 ++
    hw.extractLsb' 7 1 ++ hw.extractLsb' 2 1 ++ hw.extractLsb' 11 1 ++ hw.extractLsb' 3 3 ++ 0#1

/-- `imm[8|4:3]` at 12:10, `imm[7:6|2:1|5]` at 6:2. -/
def offsetBranch (hw : BitVec 16) : BitVec 9 :=
  hw.extractLsb' 12 1 ++ hw.extractLsb' 5 2 ++ hw.extractLsb' 2 1 ++ hw.extractLsb' 10 2 ++
    hw.extractLsb' 3 2 ++ 0#1

/-! ### The expansion; `none` for a reserved encoding -/

def expandQ0 (hw : BitVec 16) : Option Instr :=
  let rd := shortReg hw 2
  let rs1 := shortReg hw 7
  match hw.extractLsb' 13 3 with
  | 0 => if immAddi4spn hw = 0 then none else some (.imm .addi rd sp ((immAddi4spn hw).setWidth 12))
  | 1 => some (.load .float rd rs1 ((offsetDouble hw).setWidth 12))
  | 2 => some (.load .word rd rs1 ((offsetWord hw).setWidth 12))
  | 3 => some (.load .double rd rs1 ((offsetDouble hw).setWidth 12))
  | 4 => none
  | 5 => some (.store .float rd rs1 ((offsetDouble hw).setWidth 12))
  | 6 => some (.store .word rd rs1 ((offsetWord hw).setWidth 12))
  | _ => some (.store .double rd rs1 ((offsetDouble hw).setWidth 12))

/-- C.ADDI16SP with `rd = x2`, else C.LUI, a HINT with `rd = x0`. -/
def expandLui (hw : BitVec 16) : Option Instr :=
  if rd hw = sp then
    if immAddi16sp hw = 0 then none
    else some (.imm .addi sp sp ((immAddi16sp hw).signExtend 12))
  else if imm6 hw = 0 then none
  else some (.lui (rd hw) ((imm6 hw).signExtend 20))

def arithOp (hw : BitVec 16) : Option RegOp :=
  match hw.extractLsb' 12 1, hw.extractLsb' 5 2 with
  | 0, 0 => some .sub
  | 0, 1 => some .xor
  | 0, 2 => some .or
  | 0, 3 => some .and
  | 1, 0 => some .subw
  | 1, 1 => some .addw
  | _, _ => none

def expandArith (hw : BitVec 16) : Option Instr :=
  let rd := shortReg hw 7
  match hw.extractLsb' 10 2 with
  | 0 => some (.shift .srli rd rd (imm6 hw))
  | 1 => some (.shift .srai rd rd (imm6 hw))
  | 2 => some (.imm .andi rd rd ((imm6 hw).signExtend 12))
  | _ => (arithOp hw).map fun op => .reg op rd rd (shortReg hw 2)

def expandQ1 (hw : BitVec 16) : Option Instr :=
  match hw.extractLsb' 13 3 with
  | 0 => some (.imm .addi (rd hw) (rd hw) ((imm6 hw).signExtend 12))
  | 1 => if rd hw = 0 then none
      else some (.imm .addiw (rd hw) (rd hw) ((imm6 hw).signExtend 12))
  | 2 => some (.imm .addi (rd hw) 0 ((imm6 hw).signExtend 12))
  | 3 => expandLui hw
  | 4 => expandArith hw
  | 5 => some (.jal 0 ((offsetJump hw).signExtend 21))
  | 6 => some (.branch true (shortReg hw 7) ((offsetBranch hw).signExtend 13))
  | _ => some (.branch false (shortReg hw 7) ((offsetBranch hw).signExtend 13))

/-- C.JR, C.MV, C.EBREAK, C.JALR and C.ADD. -/
def expandCr (hw : BitVec 16) : Option Instr :=
  if hw.extractLsb' 12 1 = 0 then
    if rs2 hw ≠ 0 then some (.reg .add (rd hw) 0 (rs2 hw))
    else if rd hw = 0 then none
    else some (.jalr 0 (rd hw))
  else if rs2 hw ≠ 0 then some (.reg .add (rd hw) (rd hw) (rs2 hw))
  else if rd hw = 0 then some .ebreak
  else some (.jalr ra (rd hw))

def expandQ2 (hw : BitVec 16) : Option Instr :=
  match hw.extractLsb' 13 3 with
  | 0 => some (.shift .slli (rd hw) (rd hw) (imm6 hw))
  | 1 => some (.load .float (rd hw) sp ((offsetLdsp hw).setWidth 12))
  | 2 => if rd hw = 0 then none else some (.load .word (rd hw) sp ((offsetLwsp hw).setWidth 12))
  | 3 => if rd hw = 0 then none else some (.load .double (rd hw) sp ((offsetLdsp hw).setWidth 12))
  | 4 => expandCr hw
  | 5 => some (.store .float (rs2 hw) sp ((offsetSdsp hw).setWidth 12))
  | 6 => some (.store .word (rs2 hw) sp ((offsetSwsp hw).setWidth 12))
  | _ => some (.store .double (rs2 hw) sp ((offsetSdsp hw).setWidth 12))

def expand (hw : BitVec 16) : Option Instr :=
  match hw.extractLsb' 0 2 with
  | 0 => expandQ0 hw
  | 1 => expandQ1 hw
  | 2 => expandQ2 hw
  | _ => none

/-! ### Offsets -/

theorem offsetJump_even (hw : BitVec 16) : ((offsetJump hw).signExtend 21).getLsbD 0 = false := by
  simp only [offsetJump, BitVec.getLsbD_signExtend, BitVec.getLsbD_append]
  rfl

theorem offsetBranch_even (hw : BitVec 16) :
    ((offsetBranch hw).signExtend 13).getLsbD 0 = false := by
  simp only [offsetBranch, BitVec.getLsbD_signExtend, BitVec.getLsbD_append]
  rfl

theorem expandQ0_even {hw : BitVec 16} {i : Instr} (expanded : expandQ0 hw = some i) : i.Even := by
  simp only [expandQ0] at expanded
  split at expanded
  · split at expanded
    · cases expanded
    · cases expanded
      trivial
  all_goals
    cases expanded
    try trivial

theorem expandArith_even {hw : BitVec 16} {i : Instr} (expanded : expandArith hw = some i) :
    i.Even := by
  simp only [expandArith] at expanded
  split at expanded
  · cases expanded
    trivial
  · cases expanded
    trivial
  · cases expanded
    trivial
  · obtain ⟨op, _, rfl⟩ := Option.map_eq_some_iff.mp expanded
    trivial

theorem expandLui_even {hw : BitVec 16} {i : Instr} (expanded : expandLui hw = some i) :
    i.Even := by
  simp only [expandLui] at expanded
  split_ifs at expanded <;> cases expanded <;> trivial

theorem expandQ1_even {hw : BitVec 16} {i : Instr} (expanded : expandQ1 hw = some i) : i.Even := by
  simp only [expandQ1] at expanded
  split at expanded
  · cases expanded
    trivial
  · split at expanded
    · cases expanded
    · cases expanded
      trivial
  · cases expanded
    trivial
  · exact expandLui_even expanded
  · exact expandArith_even expanded
  · cases expanded
    exact offsetJump_even hw
  · cases expanded
    exact offsetBranch_even hw
  · cases expanded
    exact offsetBranch_even hw

theorem expandCr_even {hw : BitVec 16} {i : Instr} (expanded : expandCr hw = some i) : i.Even := by
  simp only [expandCr] at expanded
  split_ifs at expanded <;> cases expanded <;> trivial

theorem expandQ2_even {hw : BitVec 16} {i : Instr} (expanded : expandQ2 hw = some i) : i.Even := by
  simp only [expandQ2] at expanded
  split at expanded
  case h_5 => exact expandCr_even expanded
  all_goals
    try split at expanded
    all_goals
      cases expanded
      try trivial

/-- An expansion that jumps or branches goes an even number of bytes. -/
theorem expand_even {hw : BitVec 16} {i : Instr} (expanded : expand hw = some i) : i.Even := by
  simp only [expand] at expanded
  split at expanded
  · exact expandQ0_even expanded
  · exact expandQ1_even expanded
  · exact expandQ2_even expanded
  · cases expanded

end Rvc
