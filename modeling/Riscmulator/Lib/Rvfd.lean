import Riscmulator.Lib.Rv64

/-! The encodings of RV64FD under the OP-FP major opcode, the rounding-mode field, and
the registers that an instruction has. -/

namespace Rvfd

/-! ### Instructions -/

inductive IntType
  | w | wu | l | lu
  deriving DecidableEq, Repr

/-- The OP-FP instructions of one format. -/
inductive Op
  | add | sub | mul | div | sqrt
  | sgnj | sgnjn | sgnjx
  | min | max
  /-- From the other format. -/
  | convert
  | eq | lt | le
  | toInt (type : IntType)
  | fromInt (type : IntType)
  | moveToInt | classify | moveFromInt
  deriving DecidableEq, Repr

/-- The fields that select an instruction. Without a `funct3` of its own it has a
rounding mode there, without an `rs2` a second operand. -/
structure Form where
  funct5 : BitVec 5
  rs2 : Option (BitVec 5)
  funct3 : Option (BitVec 3)
  deriving DecidableEq, Repr

def IntType.code : IntType → BitVec 5
  | .w => 0
  | .wu => 1
  | .l => 2
  | .lu => 3

def fmtCode (double : Bool) : BitVec 2 := if double then 1 else 0

def form (double : Bool) : Op → Form
  | .add => ⟨0b00000, none, none⟩
  | .sub => ⟨0b00001, none, none⟩
  | .mul => ⟨0b00010, none, none⟩
  | .div => ⟨0b00011, none, none⟩
  | .sqrt => ⟨0b01011, some 0, none⟩
  | .sgnj => ⟨0b00100, none, some 0⟩
  | .sgnjn => ⟨0b00100, none, some 1⟩
  | .sgnjx => ⟨0b00100, none, some 2⟩
  | .min => ⟨0b00101, none, some 0⟩
  | .max => ⟨0b00101, none, some 1⟩
  | .convert => ⟨0b01000, some ((fmtCode !double).setWidth 5), none⟩
  | .le => ⟨0b10100, none, some 0⟩
  | .lt => ⟨0b10100, none, some 1⟩
  | .eq => ⟨0b10100, none, some 2⟩
  | .toInt type => ⟨0b11000, some type.code, none⟩
  | .fromInt type => ⟨0b11010, some type.code, none⟩
  | .moveToInt => ⟨0b11100, some 0, some 0⟩
  | .classify => ⟨0b11100, some 0, some 1⟩
  | .moveFromInt => ⟨0b11110, some 0, some 0⟩

theorem form_funct5 (double : Bool) (op : Op) :
    (form double op).funct5 = (form false op).funct5 := by
  cases op <;> rfl

theorem form_funct3 (double : Bool) (op : Op) :
    (form double op).funct3 = (form false op).funct3 := by
  cases op <;> rfl

/-! ### Words -/

def fmt (word : BitVec 32) : BitVec 2 := word.extractLsb' 25 2

/-- The fields of the word are those of the instruction. -/
structure Encodes (word : BitVec 32) (double : Bool) (op : Op) : Prop where
  fmt : fmt word = fmtCode double
  funct5 : Rv64.funct5 word = (form double op).funct5
  rs2 : ∀ rs2 ∈ (form double op).rs2, Rv64.rs2 word = rs2
  funct3 : ∀ funct3 ∈ (form double op).funct3, Rv64.funct3 word = funct3

instance (word : BitVec 32) (double : Bool) (op : Op) : Decidable (Encodes word double op) :=
  decidable_of_iff
    (fmt word = fmtCode double ∧ Rv64.funct5 word = (form double op).funct5 ∧
      (∀ rs2 ∈ (form double op).rs2, Rv64.rs2 word = rs2) ∧
      ∀ funct3 ∈ (form double op).funct3, Rv64.funct3 word = funct3)
    ⟨fun fields => ⟨fields.1, fields.2.1, fields.2.2.1, fields.2.2.2⟩,
      fun encodes => ⟨encodes.fmt, encodes.funct5, encodes.rs2, encodes.funct3⟩⟩

/-! ### Rounding modes -/

/-- Rounding modes from 5 on are reserved, of which 7 in an instruction is the
dynamic mode. -/
def effectiveMode (word : BitVec 32) (frm : BitVec 3) : BitVec 3 :=
  if Rv64.funct3 word = 7 then frm else Rv64.funct3 word

def Op.hasMode (op : Op) : Prop := (form false op).funct3 = none

/-- The instruction may round: it has a mode, and is not the conversion to double. -/
def Op.mayRound (double : Bool) (op : Op) : Prop := op.hasMode ∧ ¬(op = .convert ∧ double = true)

theorem hasMode_iff (op : Op) : op.hasMode ↔ (form false op).funct5 ∈
    [0b00000#5, 0b00001#5, 0b00010#5, 0b00011#5, 0b01011#5, 0b01000#5, 0b11000#5, 0b11010#5] := by
  unfold Op.hasMode
  cases op with
  | toInt type => exact iff_of_true rfl (show 0b11000#5 ∈ _ by decide)
  | fromInt type => exact iff_of_true rfl (show 0b11010#5 ∈ _ by decide)
  | _ => decide

/-- A word has a mode or not, by its `funct5`. -/
theorem Encodes.hasMode {word : BitVec 32} {double double' : Bool} {op op' : Op}
    (encodes : Encodes word double op) (encodes' : Encodes word double' op')
    (mode : op.hasMode) : op'.hasMode := by
  rw [hasMode_iff] at mode ⊢
  rw [← form_funct5 double', ← encodes'.funct5, encodes.funct5, form_funct5 double]
  exact mode

/-- An OP-FP instruction whose rounding mode is not reserved. -/
structure Legal (word : BitVec 32) (frm : BitVec 3) (double : Bool) (op : Op) : Prop where
  encodes : Encodes word double op
  mode : op.hasMode → effectiveMode word frm < 5

/-- A fused multiply-add whose rounding mode is not reserved. -/
structure FusedLegal (word : BitVec 32) (frm : BitVec 3) (double : Bool) : Prop where
  fmt : fmt word = fmtCode double
  mode : effectiveMode word frm < 5

/-! ### Registers -/

/-- The destination is an integer register. -/
def Op.writesInt : Op → Bool
  | .eq | .lt | .le | .toInt _ | .moveToInt | .classify => true
  | _ => false

/-- The operands have the double format. -/
def Op.source (double : Bool) (op : Op) : Bool := if op = .convert then !double else double

end Rvfd
