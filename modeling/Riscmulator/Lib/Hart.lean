import Riscmulator.Lib.Alu
import Riscmulator.Lib.Rvm
import Riscmulator.Lib.Rva

/-! A hart of RV64IM with atomic memory operations, as the ISA describes it: registers,
a memory that some addresses are part of, decoding, execution and runs. The compressed
extension is a parameter. -/

namespace Rv64

/-! ### Registers and memory -/

/-- Integer registers, of which `x0` reads zero. -/
@[ext] structure Regs where
  read : BitVec 5 → BitVec 64
  zero : read 0 = 0

def Regs.write (regs : Regs) (rd : BitVec 5) (value : BitVec 64) : Regs where
  read := fun index => if index = rd ∧ rd ≠ 0 then value else regs.read index
  zero := by
    rw [if_neg, regs.zero]
    rintro ⟨same, other⟩
    exact other same.symm

@[simp] theorem Regs.write_same (regs : Regs) {rd : BitVec 5} (other : rd ≠ 0)
    (value : BitVec 64) : (regs.write rd value).read rd = value := if_pos ⟨rfl, other⟩

@[simp] theorem Regs.write_other (regs : Regs) {rd index : BitVec 5} (other : index ≠ rd)
    (value : BitVec 64) : (regs.write rd value).read index = regs.read index :=
  if_neg fun both => other both.1

/-- The byte at each address that is part of memory, and which of these are only read. -/
structure Memory where
  byte : BitVec 64 → Option (BitVec 8)
  fixed : BitVec 64 → Bool

def Memory.held (mem : Memory) (a : BitVec 64) : Bool := (mem.byte a).isSome

def Memory.writable (mem : Memory) (a : BitVec 64) : Bool := mem.held a && !mem.fixed a

/-- The `n` bytes at `addr`, least significant first. -/
def Memory.load (mem : Memory) (addr : BitVec 64) : Nat → Option (BitVec 64)
  | 0 => some 0
  | n + 1 =>
      (mem.byte addr).bind fun low =>
        (mem.load (addr + 1) n).map fun rest : BitVec 64 => low.setWidth 64 ||| (rest <<< 8)

/-- Memory with the `n` low bytes of `data` at `addr`. -/
def Memory.write (mem : Memory) (addr data : BitVec 64) (n : Nat) : Memory :=
  { mem with byte := fun a =>
      if (a - addr).toNat < n then some ((data >>> (8 * (a - addr).toNat)).setWidth 8)
      else mem.byte a }

def Memory.store (mem : Memory) (addr data : BitVec 64) (n : Nat) : Option Memory :=
  if (List.range n).all fun i => mem.writable (addr + BitVec.ofNat 64 i) then
    some (mem.write addr data n)
  else none

theorem Memory.held_of_writable {mem : Memory} {a : BitVec 64} (writable : mem.writable a = true) :
    mem.held a = true := by
  rw [Memory.writable, Bool.and_eq_true] at writable
  exact writable.1

theorem Memory.held_of_load {mem : Memory} {addr value : BitVec 64} {n : Nat}
    (loaded : mem.load addr n = some value) :
    ∀ i < n, mem.held (addr + BitVec.ofNat 64 i) = true := by
  induction n generalizing addr value with
  | zero =>
      intro i inside
      exact absurd inside (Nat.not_lt_zero i)
  | succ n ih =>
      obtain ⟨low, first, tail⟩ := Option.bind_eq_some_iff.mp loaded
      obtain ⟨rest, later, _⟩ := Option.map_eq_some_iff.mp tail
      intro i inside
      cases i with
      | zero => simp [Memory.held, first]
      | succ i =>
          have next := ih later i (Nat.lt_of_succ_lt_succ inside)
          have position : addr + 1 + BitVec.ofNat 64 i = addr + BitVec.ofNat 64 (i + 1) := by
            rw [BitVec.ofNat_add, BitVec.add_assoc, BitVec.add_comm 1]
            rfl
          rwa [position] at next

theorem Memory.store_eq {mem mem' : Memory} {addr data : BitVec 64} {n : Nat}
    (stored : mem.store addr data n = some mem') :
    (∀ i < n, mem.writable (addr + BitVec.ofNat 64 i) = true) ∧ mem' = mem.write addr data n := by
  rw [Memory.store] at stored
  split at stored
  · next writable =>
      cases stored
      simp only [List.all_eq_true, List.mem_range] at writable
      exact ⟨writable, rfl⟩
  · cases stored

/-- Memories that hold the same addresses and have the same ones fixed. -/
structure Memory.SameShape (mem mem' : Memory) : Prop where
  held : mem'.held = mem.held
  fixed : mem'.fixed = mem.fixed

theorem Memory.SameShape.refl (mem : Memory) : mem.SameShape mem := ⟨rfl, rfl⟩

theorem Memory.SameShape.trans {first second third : Memory} (left : first.SameShape second)
    (right : second.SameShape third) : first.SameShape third :=
  ⟨right.held.trans left.held, right.fixed.trans left.fixed⟩

theorem Memory.SameShape.writable {mem mem' : Memory} (same : mem.SameShape mem') :
    mem'.writable = mem.writable := by
  funext a
  rw [Memory.writable, Memory.writable, same.held, same.fixed]

/-- A range around an address that is written lies at that address. -/
theorem within_range {a addr : BitVec 64} {n : Nat} {P : BitVec 64 → Prop}
    (all : ∀ i < n, P (addr + BitVec.ofNat 64 i)) (inside : (a - addr).toNat < n) : P a := by
  have here := all _ inside
  rwa [BitVec.ofNat_toNat, BitVec.setWidth_eq, BitVec.add_comm, BitVec.sub_add_cancel] at here

theorem Memory.store_shape {mem mem' : Memory} {addr data : BitVec 64} {n : Nat}
    (stored : mem.store addr data n = some mem') : mem.SameShape mem' := by
  obtain ⟨writable, rfl⟩ := Memory.store_eq stored
  refine ⟨?_, rfl⟩
  funext a
  simp only [Memory.held, Memory.write]
  split
  · next inside =>
      have present : mem.writable a = true :=
        within_range (P := fun a => mem.writable a = true) writable inside
      exact (Memory.held_of_writable present).symm
  · rfl

/-! ### Instructions -/

inductive Cond
  | eq | ne | lt | ge | ltu | geu
  deriving DecidableEq, Repr

def Cond.eval : Cond → BitVec 64 → BitVec 64 → Bool
  | .eq, x, y => x = y
  | .ne, x, y => x ≠ y
  | .lt, x, y => x.toInt < y.toInt
  | .ge, x, y => y.toInt ≤ x.toInt
  | .ltu, x, y => x.toNat < y.toNat
  | .geu, x, y => y.toNat ≤ x.toNat

/-- Sizes of loads and stores in bytes. -/
inductive Size
  | byte | half | word | double
  deriving DecidableEq, Repr

def Size.bytes : Size → Nat
  | .byte => 1
  | .half => 2
  | .word => 4
  | .double => 8

structure LoadOp where
  size : Size
  signed : Bool
  deriving DecidableEq, Repr

/-- The register value for the bytes loaded. -/
def LoadOp.extend (op : LoadOp) (bytes : BitVec 64) : BitVec 64 :=
  if op.signed then (bytes.setWidth (8 * op.size.bytes)).signExtend 64 else bytes

inductive Instr
  | alu (i : AluInstr)
  | mul (op : Rvm.Op) (narrow : Bool) (rd rs1 rs2 : BitVec 5)
  | lui (rd : BitVec 5) (imm : BitVec 20)
  | auipc (rd : BitVec 5) (imm : BitVec 20)
  | jal (rd : BitVec 5) (offset : BitVec 21)
  | jalr (rd rs1 : BitVec 5) (offset : BitVec 12)
  | branch (cond : Cond) (rs1 rs2 : BitVec 5) (offset : BitVec 13)
  | load (op : LoadOp) (rd rs1 : BitVec 5) (offset : BitVec 12)
  | store (size : Size) (rs2 rs1 : BitVec 5) (offset : BitVec 12)
  | amo (op : Rva.Op) (size : Size) (rd rs1 rs2 : BitVec 5)
  | fence
  deriving DecidableEq, Repr

/-! ### Decoding -/

def imm20 (word : BitVec 32) : BitVec 20 := word.extractLsb' 12 20

/-- `imm[12]` at 31, `imm[10:5]` at 30:25, `imm[4:1]` at 11:8, `imm[11]` at 7. -/
def immB (word : BitVec 32) : BitVec 13 :=
  word.extractLsb' 31 1 ++ word.extractLsb' 7 1 ++ word.extractLsb' 25 6 ++
    word.extractLsb' 8 4 ++ 0#1

/-- `imm[20]` at 31, `imm[10:1]` at 30:21, `imm[11]` at 20, `imm[19:12]` at 19:12. -/
def immJ (word : BitVec 32) : BitVec 21 :=
  word.extractLsb' 31 1 ++ word.extractLsb' 12 8 ++ word.extractLsb' 20 1 ++
    word.extractLsb' 21 10 ++ 0#1

/-- `imm[11:5]` at 31:25, `imm[4:0]` at 11:7. -/
def immS (word : BitVec 32) : BitVec 12 := word.extractLsb' 25 7 ++ word.extractLsb' 7 5

def condTable : List (BitVec 3 × Cond) := branchForms.zip [.eq, .ne, .lt, .ge, .ltu, .geu]

def loadTable : List (BitVec 3 × LoadOp) :=
  loadForms.zip [⟨.byte, true⟩, ⟨.half, true⟩, ⟨.word, true⟩, ⟨.double, false⟩, ⟨.byte, false⟩,
    ⟨.half, false⟩, ⟨.word, false⟩]

def storeTable : List (BitVec 3 × Size) := storeForms.zip [.byte, .half, .word, .double]

def amoSizes : List (BitVec 3 × Size) := [(2, .word), (3, .double)]

/-- An instruction of the M extension; the upper halves have no word form. -/
def mulOf (word : BitVec 32) (narrow : Bool) : Option Instr :=
  let op := Rvm.Op.ofFunct3 (funct3 word)
  if narrow && !op.hasWord then none else some (.mul op narrow (rd word) (rs1 word) (rs2 word))

def amoOf (word : BitVec 32) : Option Instr :=
  (amoSizes.lookup (funct3 word)).bind fun size =>
    (Rva.ofFunct5 (funct5 word)).map fun op => .amo op size (rd word) (rs1 word) (rs2 word)

def fenceOpcode : BitVec 7 := 0b0001111

def decode (word : BitVec 32) : Option Instr :=
  match majorOf word with
  | some .op => if funct7 word = 1 then mulOf word false else (aluOf word).map .alu
  | some .op32 => if funct7 word = 1 then mulOf word true else (aluOf word).map .alu
  | some .opImm | some .opImm32 => (aluOf word).map .alu
  | some .lui => some (.lui (rd word) (imm20 word))
  | some .auipc => some (.auipc (rd word) (imm20 word))
  | some .jal => some (.jal (rd word) (immJ word))
  | some .jalr =>
      if funct3 word = 0 then some (.jalr (rd word) (rs1 word) (imm12 word)) else none
  | some .branch =>
      (condTable.lookup (funct3 word)).map fun cond =>
        .branch cond (rs1 word) (rs2 word) (immB word)
  | some .load =>
      (loadTable.lookup (funct3 word)).map fun op => .load op (rd word) (rs1 word) (imm12 word)
  | some .store =>
      (storeTable.lookup (funct3 word)).map fun size =>
        .store size (rs2 word) (rs1 word) (immS word)
  | some .amo => amoOf word
  | none => if opcode word = fenceOpcode then some .fence else none

/-! ### Execution -/

structure Hart where
  pc : BitVec 64
  regs : Regs
  mem : Memory

def Hart.reg (s : Hart) (index : BitVec 5) : BitVec 64 := s.regs.read index

/-- The hart at `pc` after a write of `rd`. -/
def Hart.set (s : Hart) (rd : BitVec 5) (value pc : BitVec 64) : Hart :=
  { s with regs := s.regs.write rd value, pc := pc }

def mulValue (op : Rvm.Op) (narrow : Bool) (x y : BitVec 64) : BitVec 64 :=
  if narrow then op.evalWord x y else op.eval x y

/-- A read-modify-write of `n` bytes at `addr`: the value before and the memory after. -/
def amoStep (op : Rva.Op) (mem : Memory) (addr operand : BitVec 64) (n : Nat) :
    Option (BitVec 64 × Memory) :=
  (mem.load addr n).bind fun old =>
    let value := Rva.eval op (old.setWidth (8 * n)) (operand.setWidth (8 * n))
    (mem.store addr (value.setWidth 64) n).map fun mem =>
      ((old.setWidth (8 * n)).signExtend 64, mem)

/-- Execution of an instruction with the next one at `next`; `none` for an access that is
not one of memory. -/
def Instr.exec (s : Hart) (next : BitVec 64) : Instr → Option Hart
  | .alu i => some (s.set i.rd (i.eval s.regs.read) next)
  | .mul op narrow rd rs1 rs2 => some (s.set rd (mulValue op narrow (s.reg rs1) (s.reg rs2)) next)
  | .lui rd imm => some (s.set rd ((imm ++ 0#12).signExtend 64) next)
  | .auipc rd imm => some (s.set rd (s.pc + (imm ++ 0#12).signExtend 64) next)
  | .jal rd offset => some (s.set rd next (s.pc + offset.signExtend 64))
  | .jalr rd rs1 offset => some (s.set rd next ((s.reg rs1 + offset.signExtend 64) &&& ~~~1))
  | .branch cond rs1 rs2 offset =>
      some { s with
        pc := if cond.eval (s.reg rs1) (s.reg rs2) then s.pc + offset.signExtend 64 else next }
  | .load op rd rs1 offset =>
      (s.mem.load (s.reg rs1 + offset.signExtend 64) op.size.bytes).map fun bytes =>
        s.set rd (op.extend bytes) next
  | .store size rs2 rs1 offset =>
      (s.mem.store (s.reg rs1 + offset.signExtend 64) (s.reg rs2) size.bytes).map fun mem =>
        { s with mem := mem, pc := next }
  | .amo op size rd rs1 rs2 =>
      if (s.reg rs1).toNat % size.bytes = 0 then
        (amoStep op s.mem (s.reg rs1) (s.reg rs2) size.bytes).map fun done =>
          { s.set rd done.1 next with mem := done.2 }
      else none
  | .fence => some { s with pc := next }

section Run

variable (expand : BitVec 16 → Option (BitVec 32))

/-- The word at `pc` and its length, where `expand` gives the words of halfwords. -/
def Hart.fetch (s : Hart) : Option (BitVec 32 × BitVec 64) :=
  (s.mem.load s.pc 2).bind fun low =>
    let hw : BitVec 16 := low.setWidth 16
    if hw.extractLsb' 0 2 ≠ 3 then (expand hw).map fun word => (word, 2)
    else
      (s.mem.load (s.pc + 2) 2).map fun high =>
        let hw2 : BitVec 16 := high.setWidth 16
        let word : BitVec 32 := hw.setWidth 32 ||| (hw2.setWidth 32 <<< 16)
        (word, 4)

/-- One step; `none` where the hart leaves this part of the ISA or its memory. -/
def Hart.step (s : Hart) : Option Hart :=
  (s.fetch expand).bind fun fetched =>
    (decode fetched.1).bind fun i => i.exec s (s.pc + fetched.2)

end Run

end Rv64
