import Riscmulator.Paging

/-! Instruction fields, and the machine's operations on the core of one hart
that every instruction handler is written with. -/

namespace Riscmulator

variable {δ : Type}

/-! ### Fields of an instruction word -/

def rvInsnOpMaj (insn : U32) : BitVec 5 := insn.extractLsb' 2 5
def rvInsnRs1 (insn : U32) : BitVec 5 := insn.extractLsb' 15 5
def rvInsnRs2 (insn : U32) : BitVec 5 := insn.extractLsb' 20 5
def rvInsnRs3 (insn : U32) : BitVec 5 := insn.extractLsb' 27 5
def rvInsnRd (insn : U32) : BitVec 5 := insn.extractLsb' 7 5
def rvInsnFunct3 (insn : U32) : BitVec 3 := insn.extractLsb' 12 3
def rvInsnFunct7 (insn : U32) : BitVec 7 := insn.extractLsb' 25 7
def rvInsnFunct5 (insn : U32) : BitVec 5 := insn.extractLsb' 27 5
def rvInsnFfmt (insn : U32) : BitVec 2 := insn.extractLsb' 25 2

def rvInsnUimm12 (insn : U32) : U32 := insn >>> 20

def rvInsnImm12 (insn : U32) : U64 := (insn.sshiftRight 20).signExtend 64

def rvInsnSImm12 (insn : U32) : U64 :=
  (((insn &&& 0xfe000000).sshiftRight 20) ||| ((insn &&& 0xf80).sshiftRight 7)).signExtend 64

inductive RvOpMaj
  | load | loadFp | miscMem | opImm | auipc | opImm32 | store | storeFp | amo | op | lui | op32
  | madd | msub | nmsub | nmadd | opFp | branch | jalr | jal | system
  deriving DecidableEq, Repr

def rvOpMajDefs : List (BitVec 5 × RvOpMaj) :=
  [(0b00000, .load), (0b00001, .loadFp), (0b00011, .miscMem), (0b00100, .opImm),
   (0b00101, .auipc), (0b00110, .opImm32), (0b01000, .store), (0b01001, .storeFp),
   (0b01011, .amo), (0b01100, .op), (0b01101, .lui), (0b01110, .op32), (0b10000, .madd),
   (0b10001, .msub), (0b10010, .nmsub), (0b10011, .nmadd), (0b10100, .opFp), (0b11000, .branch),
   (0b11001, .jalr), (0b11011, .jal), (0b11100, .system)]

/-- The major opcode of a word; `none` for one without a handler. -/
def rvOpMajOf (insn : U32) : Option RvOpMaj := rvOpMajDefs.lookup (rvInsnOpMaj insn)

/-- `((int64_t)x << 32) >> 32` and `(int64_t)(int32_t)x`. -/
def sext32 (x : U64) : U64 := (x.setWidth 32).signExtend 64

/-- `(uint32_t)x` as a 64-bit value. -/
def zext32 (x : U64) : U64 := (x.setWidth 32).setWidth 64

/-! ### Core accesses through the machine -/

def EmuMachine.xreg (m : EmuMachine δ) (h : Nat) (index : BitVec 5) : U64 :=
  rvXregRead (m.cpus h) index

def EmuMachine.writeXreg (m : EmuMachine δ) (h : Nat) (index : BitVec 5) (value : U64) :
    EmuMachine δ :=
  m.setCpu h (rvXregWrite (m.cpus h) index value)

theorem EmuMachine.writeXreg_zero (m : EmuMachine δ) (h : Nat) (value : U64) :
    m.writeXreg h 0 value = m :=
  m.setCpu_self h

def EmuMachine.setPc (m : EmuMachine δ) (h : Nat) (pc : U64) : EmuMachine δ :=
  m.setCpu h { m.cpus h with pc := pc }

def rvMemTrap (mc : EmuConfig δ) (m : EmuMachine δ) (h : Nat) (r : RvMemResult) (mode : RvAccess)
    (addr : U64) : EmuMachine δ :=
  rvDoTrap mc m h { cause := (rvMemCause r mode).code, epc := (m.cpus h).epc, tval := addr }

end Riscmulator
