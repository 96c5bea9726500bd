import Riscmulator.Insn

/-! Expansion of compressed instructions, from `rv_decompress.c`, and the
encoders of `rv_decompress.h`. -/

namespace Riscmulator

/-! ### 32-bit instruction encoders -/

def rvEncR (funct7 rs2 rs1 funct3 rd opcode : U32) : U32 :=
  (funct7 <<< 25) ||| (rs2 <<< 20) ||| (rs1 <<< 15) ||| (funct3 <<< 12) ||| (rd <<< 7) ||| opcode

def rvEncI (imm12 rs1 funct3 rd opcode : U32) : U32 :=
  ((imm12 &&& 0xfff) <<< 20) ||| (rs1 <<< 15) ||| (funct3 <<< 12) ||| (rd <<< 7) ||| opcode

def rvEncS (imm12 rs2 rs1 funct3 opcode : U32) : U32 :=
  (((imm12.sshiftRight 5) &&& 0x7f) <<< 25) ||| (rs2 <<< 20) ||| (rs1 <<< 15) |||
    (funct3 <<< 12) ||| ((imm12 &&& 0x1f) <<< 7) ||| opcode

def rvEncU (imm20 rd opcode : U32) : U32 :=
  ((imm20 &&& 0xfffff) <<< 12) ||| (rd <<< 7) ||| opcode

def rvEncB (imm13 rs2 rs1 funct3 opcode : U32) : U32 :=
  (((imm13.sshiftRight 12) &&& 1) <<< 31) ||| (((imm13.sshiftRight 5) &&& 0x3f) <<< 25) |||
    (rs2 <<< 20) ||| (rs1 <<< 15) ||| (funct3 <<< 12) |||
    (((imm13.sshiftRight 1) &&& 0xf) <<< 8) ||| (((imm13.sshiftRight 11) &&& 1) <<< 7) ||| opcode

def rvEncJ (imm21 rd opcode : U32) : U32 :=
  (((imm21.sshiftRight 20) &&& 1) <<< 31) ||| (((imm21.sshiftRight 1) &&& 0x3ff) <<< 21) |||
    (((imm21.sshiftRight 11) &&& 1) <<< 20) ||| (((imm21.sshiftRight 12) &&& 0xff) <<< 12) |||
    (rd <<< 7) ||| opcode

/-- `OP(maj)`: the full opcode of a 32-bit instruction. -/
def rvOpcode (maj : BitVec 5) : U32 := (maj.setWidth 32 <<< 2) ||| 3

def opcLoad : U32 := rvOpcode 0b00000
def opcLoadFp : U32 := rvOpcode 0b00001
def opcOpImm : U32 := rvOpcode 0b00100
def opcOpImm32 : U32 := rvOpcode 0b00110
def opcStore : U32 := rvOpcode 0b01000
def opcStoreFp : U32 := rvOpcode 0b01001
def opcOp : U32 := rvOpcode 0b01100
def opcLui : U32 := rvOpcode 0b01101
def opcOp32 : U32 := rvOpcode 0b01110
def opcBranch : U32 := rvOpcode 0b11000
def opcJalr : U32 := rvOpcode 0b11001
def opcJal : U32 := rvOpcode 0b11011
def opcSystem : U32 := rvOpcode 0b11100

/-- The bits `[lo + width - 1 : lo]` of a halfword, placed at bit `at_`. -/
def hwBits (hw : U16) (lo width at_ : Nat) : U32 :=
  ((hw.extractLsb' lo width).setWidth 32) <<< at_

def creg (x : U32) : U32 := 8 + x

/-- `(x << (32 - width)) >> (32 - width)` on a signed word. -/
def sextFrom (width : Nat) (x : U32) : U32 := (x <<< (32 - width)).sshiftRight (32 - width)

/-- The six-bit immediate in bits 12 and 6:2, sign-extended. -/
def hwImm6 (hw : U16) : U32 := sextFrom 6 (hwBits hw 12 1 5 ||| hwBits hw 2 5 0)

def hwShamt (hw : U16) : U32 := hwBits hw 12 1 5 ||| hwBits hw 2 5 0

def hwOffsetW (hw : U16) : U32 := hwBits hw 10 3 3 ||| hwBits hw 6 1 2 ||| hwBits hw 5 1 6

def hwOffsetD (hw : U16) : U32 := hwBits hw 10 3 3 ||| hwBits hw 5 2 6

def decompressQ0 (hw : U16) : Option U32 :=
  let rs1p := creg (hwBits hw 7 3 0)
  let rdp := creg (hwBits hw 2 3 0)
  match hw.extractLsb' 13 3 with
  | 0 =>
      let nzuimm := hwBits hw 11 2 4 ||| hwBits hw 7 4 6 ||| hwBits hw 6 1 2 ||| hwBits hw 5 1 3
      if nzuimm = 0 then none else some (rvEncI nzuimm 2 0 rdp opcOpImm)
  | 1 => some (rvEncI (hwOffsetD hw) rs1p 3 rdp opcLoadFp)
  | 2 => some (rvEncI (hwOffsetW hw) rs1p 2 rdp opcLoad)
  | 3 => some (rvEncI (hwOffsetD hw) rs1p 3 rdp opcLoad)
  | 4 => none
  | 5 => some (rvEncS (hwOffsetD hw) rdp rs1p 3 opcStoreFp)
  | 6 => some (rvEncS (hwOffsetW hw) rdp rs1p 2 opcStore)
  | _ => some (rvEncS (hwOffsetD hw) rdp rs1p 3 opcStore)

def decompressArith (hw : U16) : Option U32 :=
  let rdp := creg (hwBits hw 7 3 0)
  let rs2p := creg (hwBits hw 2 3 0)
  match hw.extractLsb' 12 1, hw.extractLsb' 5 2 with
  | 0, 0 => some (rvEncR 0x20 rs2p rdp 0 rdp opcOp)
  | 0, 1 => some (rvEncR 0x00 rs2p rdp 4 rdp opcOp)
  | 0, 2 => some (rvEncR 0x00 rs2p rdp 6 rdp opcOp)
  | 0, 3 => some (rvEncR 0x00 rs2p rdp 7 rdp opcOp)
  | 1, 0 => some (rvEncR 0x20 rs2p rdp 0 rdp opcOp32)
  | 1, 1 => some (rvEncR 0x00 rs2p rdp 0 rdp opcOp32)
  | _, _ => none

def decompressLui (hw : U16) : Option U32 :=
  let rd := hwBits hw 7 5 0
  if rd = 2 then
    let nzimm := sextFrom 10 (hwBits hw 12 1 9 ||| hwBits hw 6 1 4 ||| hwBits hw 5 1 6 |||
      hwBits hw 3 2 7 ||| hwBits hw 2 1 5)
    if nzimm = 0 then none else some (rvEncI nzimm 2 0 2 opcOpImm)
  else if rd ≠ 0 then
    if hwImm6 hw = 0 then none else some (rvEncU (hwImm6 hw) rd opcLui)
  else none

def hwJumpOffset (hw : U16) : U32 :=
  sextFrom 12 (hwBits hw 12 1 11 ||| hwBits hw 11 1 4 ||| hwBits hw 9 2 8 ||| hwBits hw 8 1 10 |||
    hwBits hw 7 1 6 ||| hwBits hw 6 1 7 ||| hwBits hw 3 3 1 ||| hwBits hw 2 1 5)

def hwBranchOffset (hw : U16) : U32 :=
  sextFrom 9 (hwBits hw 12 1 8 ||| hwBits hw 10 2 3 ||| hwBits hw 5 2 6 ||| hwBits hw 3 2 1 |||
    hwBits hw 2 1 5)

def decompressQ1 (hw : U16) : Option U32 :=
  let rd := hwBits hw 7 5 0
  let rdp := creg (hwBits hw 7 3 0)
  match hw.extractLsb' 13 3 with
  | 0 => some (rvEncI (hwImm6 hw) rd 0 rd opcOpImm)
  | 1 => if rd = 0 then none else some (rvEncI (hwImm6 hw) rd 0 rd opcOpImm32)
  | 2 => some (rvEncI (hwImm6 hw) 0 0 rd opcOpImm)
  | 3 => decompressLui hw
  | 4 =>
      match hw.extractLsb' 10 2 with
      | 0 => some (rvEncI (hwShamt hw) rdp 5 rdp opcOpImm)
      | 1 => some (rvEncI (0x400 ||| hwShamt hw) rdp 5 rdp opcOpImm)
      | 2 => some (rvEncI (hwImm6 hw) rdp 7 rdp opcOpImm)
      | _ => decompressArith hw
  | 5 => some (rvEncJ (hwJumpOffset hw) 0 opcJal)
  | 6 => some (rvEncB (hwBranchOffset hw) 0 rdp 0 opcBranch)
  | _ => some (rvEncB (hwBranchOffset hw) 0 rdp 1 opcBranch)

def decompressCr (hw : U16) : Option U32 :=
  let rs1Rd := hwBits hw 7 5 0
  let rs2 := hwBits hw 2 5 0
  if hw.extractLsb' 12 1 = 0 then
    if rs2 = 0 then
      if rs1Rd = 0 then none else some (rvEncI 0 rs1Rd 0 0 opcJalr)
    else some (rvEncR 0 rs2 0 0 rs1Rd opcOp)
  else if rs2 = 0 ∧ rs1Rd = 0 then some ((1 <<< 20) ||| opcSystem)
  else if rs2 = 0 then some (rvEncI 0 rs1Rd 0 1 opcJalr)
  else some (rvEncR 0 rs2 rs1Rd 0 rs1Rd opcOp)

def decompressQ2 (hw : U16) : Option U32 :=
  let rd := hwBits hw 7 5 0
  let rs2 := hwBits hw 2 5 0
  let uimmLd := hwBits hw 12 1 5 ||| hwBits hw 5 2 3 ||| hwBits hw 2 3 6
  let uimmLw := hwBits hw 12 1 5 ||| hwBits hw 4 3 2 ||| hwBits hw 2 2 6
  let uimmSd := hwBits hw 10 3 3 ||| hwBits hw 7 3 6
  let uimmSw := hwBits hw 9 4 2 ||| hwBits hw 7 2 6
  match hw.extractLsb' 13 3 with
  | 0 => if rd = 0 then none else some (rvEncI (hwShamt hw) rd 1 rd opcOpImm)
  | 1 => some (rvEncI uimmLd 2 3 rd opcLoadFp)
  | 2 => if rd = 0 then none else some (rvEncI uimmLw 2 2 rd opcLoad)
  | 3 => if rd = 0 then none else some (rvEncI uimmLd 2 3 rd opcLoad)
  | 4 => decompressCr hw
  | 5 => some (rvEncS uimmSd rs2 2 3 opcStoreFp)
  | 6 => some (rvEncS uimmSw rs2 2 2 opcStore)
  | _ => some (rvEncS uimmSd rs2 2 3 opcStore)

/-- `rv_decompress`: the 32-bit equivalent; `none` for a rejected encoding. -/
def rvDecompress (hw : U16) : Option U32 :=
  match hw.extractLsb' 0 2 with
  | 0 => decompressQ0 hw
  | 1 => decompressQ1 hw
  | 2 => decompressQ2 hw
  | _ => none

end Riscmulator
