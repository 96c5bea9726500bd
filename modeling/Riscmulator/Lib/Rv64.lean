import Mathlib.Data.BitVec
import Mathlib.Tactic.SplitIfs

/-! The 32-bit encodings of RV64IMA outside SYSTEM and MISC-MEM: major opcodes, for
each of them the combinations of the other fields that the ISA lists, and the
formats that words are built in. -/

namespace Rv64

/-! ### Fields -/

def opcode (word : BitVec 32) : BitVec 7 := word.extractLsb' 0 7
def funct3 (word : BitVec 32) : BitVec 3 := word.extractLsb' 12 3
def funct7 (word : BitVec 32) : BitVec 7 := word.extractLsb' 25 7
def funct6 (word : BitVec 32) : BitVec 6 := word.extractLsb' 26 6
def funct5 (word : BitVec 32) : BitVec 5 := word.extractLsb' 27 5
def rs2 (word : BitVec 32) : BitVec 5 := word.extractLsb' 20 5

/-! ### Major opcodes -/

inductive Major
  | load | opImm | auipc | opImm32 | store | amo | op | lui | op32 | branch | jalr | jal
  deriving DecidableEq, Repr

def majors : List (BitVec 7 × Major) :=
  [(0b0000011, .load), (0b0010011, .opImm), (0b0010111, .auipc), (0b0011011, .opImm32),
   (0b0100011, .store), (0b0101111, .amo), (0b0110011, .op), (0b0110111, .lui),
   (0b0111011, .op32), (0b1100011, .branch), (0b1100111, .jalr), (0b1101111, .jal)]

def majorOf (word : BitVec 32) : Option Major := majors.lookup (opcode word)

/-! ### Listed encodings -/

/-- `funct7` and `funct3` of ADD, SUB, SLL, SLT, SLTU, XOR, SRL, SRA, OR and AND. -/
def opForms : List (BitVec 7 × BitVec 3) :=
  [(0x00, 0), (0x20, 0), (0x00, 1), (0x00, 2), (0x00, 3), (0x00, 4), (0x00, 5), (0x20, 5),
   (0x00, 6), (0x00, 7)]

/-- MUL, MULH, MULHSU, MULHU, DIV, DIVU, REM and REMU. -/
def mulForms : List (BitVec 7 × BitVec 3) :=
  [(1, 0), (1, 1), (1, 2), (1, 3), (1, 4), (1, 5), (1, 6), (1, 7)]

/-- ADDW, SUBW, SLLW, SRLW and SRAW. -/
def opWForms : List (BitVec 7 × BitVec 3) :=
  [(0x00, 0), (0x20, 0), (0x00, 1), (0x00, 5), (0x20, 5)]

/-- MULW, DIVW, DIVUW, REMW and REMUW. -/
def mulWForms : List (BitVec 7 × BitVec 3) := [(1, 0), (1, 4), (1, 5), (1, 6), (1, 7)]

/-- ADDI, SLTI, SLTIU, XORI, ORI and ANDI. -/
def immForms : List (BitVec 3) := [0, 2, 3, 4, 6, 7]

/-- `funct6` and `funct3` of SLLI, SRLI and SRAI. -/
def shiftForms : List (BitVec 6 × BitVec 3) := [(0x00, 1), (0x00, 5), (0x10, 5)]

/-- `funct7` and `funct3` of SLLIW, SRLIW and SRAIW. -/
def shiftWForms : List (BitVec 7 × BitVec 3) := [(0x00, 1), (0x00, 5), (0x20, 5)]

/-- LB, LH, LW, LD, LBU, LHU and LWU. -/
def loadForms : List (BitVec 3) := [0, 1, 2, 3, 4, 5, 6]

/-- SB, SH, SW and SD. -/
def storeForms : List (BitVec 3) := [0, 1, 2, 3]

/-- BEQ, BNE, BLT, BGE, BLTU and BGEU. -/
def branchForms : List (BitVec 3) := [0, 1, 4, 5, 6, 7]

def lrFunct5 : BitVec 5 := 0x02

/-- `funct5` of SC and of the AMOs: SWAP, ADD, XOR, OR, AND, MIN, MAX, MINU and MAXU. -/
def amoForms : List (BitVec 5) := [0x03, 0x01, 0x00, 0x04, 0x08, 0x0C, 0x10, 0x14, 0x18, 0x1C]

/-- The word is an RV64IMA instruction of this major opcode. -/
def listed (word : BitVec 32) : Major → Bool
  | .op => (funct7 word, funct3 word) ∈ opForms ++ mulForms
  | .op32 => (funct7 word, funct3 word) ∈ opWForms ++ mulWForms
  | .opImm => funct3 word ∈ immForms || (funct6 word, funct3 word) ∈ shiftForms
  | .opImm32 => funct3 word = 0 || (funct7 word, funct3 word) ∈ shiftWForms
  | .load => funct3 word ∈ loadForms
  | .store => funct3 word ∈ storeForms
  | .branch => funct3 word ∈ branchForms
  | .jalr => funct3 word = 0
  | .amo => funct3 word ∈ ([2, 3] : List (BitVec 3)) &&
      (funct5 word ∈ amoForms || (funct5 word = lrFunct5 && rs2 word = 0))
  | .jal | .lui | .auipc => true

/-! ### Formats -/

/-- A word from the six slots that all formats share. -/
def pack (funct7 : BitVec 7) (rs2 rs1 : BitVec 5) (funct3 : BitVec 3) (rd : BitVec 5)
    (opcode : BitVec 7) : BitVec 32 :=
  funct7 ++ rs2 ++ rs1 ++ funct3 ++ rd ++ opcode

def encI (imm : BitVec 12) (rs1 : BitVec 5) (funct3 : BitVec 3) (rd : BitVec 5)
    (opcode : BitVec 7) : BitVec 32 :=
  pack (imm.extractLsb' 5 7) (imm.extractLsb' 0 5) rs1 funct3 rd opcode

def encS (imm : BitVec 12) (rs2 rs1 : BitVec 5) (funct3 : BitVec 3) (opcode : BitVec 7) :
    BitVec 32 :=
  pack (imm.extractLsb' 5 7) rs2 rs1 funct3 (imm.extractLsb' 0 5) opcode

def encB (offset : BitVec 13) (rs2 rs1 : BitVec 5) (funct3 : BitVec 3) (opcode : BitVec 7) :
    BitVec 32 :=
  pack (offset.extractLsb' 12 1 ++ offset.extractLsb' 5 6) rs2 rs1 funct3
    (offset.extractLsb' 1 4 ++ offset.extractLsb' 11 1) opcode

def encU (imm : BitVec 20) (rd : BitVec 5) (opcode : BitVec 7) : BitVec 32 :=
  pack (imm.extractLsb' 13 7) (imm.extractLsb' 8 5) (imm.extractLsb' 3 5) (imm.extractLsb' 0 3) rd
    opcode

def encJ (offset : BitVec 21) (rd : BitVec 5) (opcode : BitVec 7) : BitVec 32 :=
  pack (offset.extractLsb' 20 1 ++ offset.extractLsb' 5 6)
    (offset.extractLsb' 1 4 ++ offset.extractLsb' 11 1) (offset.extractLsb' 15 5)
    (offset.extractLsb' 12 3) rd opcode

theorem extract_of_bits {word : BitVec 32} {lo n : Nat} {field : BitVec n}
    (bits : ∀ i < n, word.getLsbD (lo + i) = field.getLsbD i) : word.extractLsb' lo n = field := by
  apply BitVec.eq_of_getLsbD_eq
  intro i low
  rw [BitVec.getLsbD_extractLsb', decide_eq_true low, Bool.true_and, bits i low]

section Pack

variable (funct7 : BitVec 7) (rs2 rs1 : BitVec 5) (funct3 : BitVec 3) (rd : BitVec 5)
  (opcode : BitVec 7)

theorem getLsbD_pack (i : Nat) :
    (pack funct7 rs2 rs1 funct3 rd opcode).getLsbD i =
      if i < 7 then opcode.getLsbD i
      else if i < 12 then rd.getLsbD (i - 7)
      else if i < 15 then funct3.getLsbD (i - 12)
      else if i < 20 then rs1.getLsbD (i - 15)
      else if i < 25 then rs2.getLsbD (i - 20)
      else funct7.getLsbD (i - 25) := by
  have first : i - 7 - 5 = i - 12 := by omega
  have second : i - 12 - 3 = i - 15 := by omega
  have third : i - 15 - 5 = i - 20 := by omega
  have fourth : i - 20 - 5 = i - 25 := by omega
  simp only [pack, BitVec.getLsbD_append]
  rw [first, second, third, fourth]
  split_ifs <;> first | rfl | omega

theorem opcode_pack : (pack funct7 rs2 rs1 funct3 rd opcode).extractLsb' 0 7 = opcode := by
  apply extract_of_bits
  intro i low
  rw [getLsbD_pack, Nat.zero_add, if_pos low]

theorem rd_pack : (pack funct7 rs2 rs1 funct3 rd opcode).extractLsb' 7 5 = rd := by
  apply extract_of_bits
  intro i low
  rw [getLsbD_pack, if_neg, if_pos, Nat.add_sub_cancel_left] <;> omega

theorem funct3_pack : (pack funct7 rs2 rs1 funct3 rd opcode).extractLsb' 12 3 = funct3 := by
  apply extract_of_bits
  intro i low
  rw [getLsbD_pack, if_neg, if_neg, if_pos, Nat.add_sub_cancel_left] <;> omega

theorem rs1_pack : (pack funct7 rs2 rs1 funct3 rd opcode).extractLsb' 15 5 = rs1 := by
  apply extract_of_bits
  intro i low
  rw [getLsbD_pack, if_neg, if_neg, if_neg, if_pos, Nat.add_sub_cancel_left] <;> omega

theorem rs2_pack : (pack funct7 rs2 rs1 funct3 rd opcode).extractLsb' 20 5 = rs2 := by
  apply extract_of_bits
  intro i low
  rw [getLsbD_pack, if_neg, if_neg, if_neg, if_neg, if_pos, Nat.add_sub_cancel_left] <;> omega

theorem funct7_pack : (pack funct7 rs2 rs1 funct3 rd opcode).extractLsb' 25 7 = funct7 := by
  apply extract_of_bits
  intro i low
  rw [getLsbD_pack, if_neg, if_neg, if_neg, if_neg, if_neg, Nat.add_sub_cancel_left] <;> omega

end Pack

end Rv64
