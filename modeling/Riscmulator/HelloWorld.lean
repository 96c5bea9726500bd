import Riscmulator.MainLoop

/-! The guest of `helloworld.S`, with any message in place of its own. -/

namespace Riscmulator

open Relation Rv64

/-- The words before `msg`, as `helloworld_10000.bin` has them. -/
def helloWords : List U32 :=
  [0x00000417, -- auipc s0, 0
   0x02840413, -- addi s0, s0, 40
   0x0100006f, -- j 1f
   0x00100893, -- 0: li a7, 1
   0x00000073, -- ecall
   0x00140413, -- addi s0, s0, 1
   0x00044503, -- 1: lbu a0, 0(s0)
   0xfe0518e3, -- bnez a0, 0b
   0x00200893, -- li a7, 2
   0x00000073] -- ecall

/-- The image for a message, with bytes after its terminator. -/
def helloImage (message rest : List U8) : List U8 := codeBytes helloWords ++ (message ++ 0 :: rest)

/-- The file of the repository. -/
example : (helloImage ("Hello, World!\n".toList.map fun c => BitVec.ofNat 8 c.toNat) [0]).length =
    56 := by decide

section Run

variable {message rest : List U8}

/-- The guest runs the program and is at word `k` of it. -/
structure Hello (message rest : List U8) (k : Nat) (g : Guest) : Prop where
  pc : g.hart.pc = mainBase + BitVec.ofNat 64 (4 * k)
  mem : g.hart.mem = .ofBytes mainBase (helloImage message rest)

theorem Hello.code {k : Nat} {g : Guest} (hello : Hello message rest k g) :
    CodeAt g.hart.mem mainBase helloWords := by
  rw [hello.mem]
  exact codeAt_ofBytes mainBase _ (by decide)

theorem Hello.step {k : Nat} {g : Guest} (hello : Hello message rest k g) (word : U32) (i : Instr)
    (placed : helloWords[k]? = some word) (decoded : decode word = some i)
    (long : word.extractLsb' 0 2 = 3) {s : Hart} (executed : i.exec g.hart (g.hart.pc + 4) = some s) :
    g.Moves ⟨s, g.stdout⟩ := by
  have fetched : g.hart.fetch isaExpand = some (word, 4) := hello.code.fetch hello.pc placed long
  refine ⟨not_atRejectedHint fetched, ?_⟩
  apply Guest.Step.isa
  rw [hello.code.step hello.pc placed long decoded, executed]

theorem Hello.calls {k : Nat} {g : Guest} (hello : Hello message rest k g)
    (placed : helloWords[k]? = some ecallWord) {service : U64} (selected : g.hart.reg 17 = service) :
    g.Calls service :=
  ⟨hello.code.fetch hello.pc placed (by decide), selected⟩

/-- The next word, with a register set. -/
def Guest.setting (g : Guest) (rd : BitVec 5) (value : U64) : Guest :=
  ⟨g.hart.set rd value (g.hart.pc + 4), g.stdout⟩

theorem Hello.setting {k : Nat} {g : Guest} (hello : Hello message rest k g) (rd : BitVec 5)
    (value : U64) : Hello message rest (k + 1) (g.setting rd value) := by
  refine ⟨?_, hello.mem⟩
  change g.hart.pc + 4 = _
  rw [hello.pc, BitVec.add_assoc, Nat.mul_succ, BitVec.ofNat_add]
  rfl

theorem Guest.setting_same (g : Guest) {rd : BitVec 5} (other : rd ≠ 0) (value : U64) :
    (g.setting rd value).hart.reg rd = value := g.hart.regs.write_same other value

theorem Guest.setting_other (g : Guest) {rd index : BitVec 5} (other : index ≠ rd) (value : U64) :
    (g.setting rd value).hart.reg index = g.hart.reg index := g.hart.regs.write_other other value

/-- `li a7, service`. -/
theorem Hello.li {k : Nat} {g : Guest} (hello : Hello message rest k g) (word : U32)
    (service : BitVec 12) (placed : helloWords[k]? = some word)
    (decoded : decode word = some (.alu ⟨.add, false, 17, 0, .imm service⟩))
    (long : word.extractLsb' 0 2 = 3) : g.Moves (g.setting 17 (service.signExtend 64)) := by
  have value : (g.hart.regs.read 0 + service.signExtend 64 : U64) = service.signExtend 64 := by
    rw [g.hart.regs.zero]
    simp
  have taken : g.Moves ⟨g.hart.set 17 (g.hart.regs.read 0 + service.signExtend 64)
      (g.hart.pc + 4), g.stdout⟩ :=
    hello.step word (.alu ⟨.add, false, 17, 0, .imm service⟩) placed decoded long rfl
  rw [value] at taken
  exact taken

/-! ### The loop -/

/-- The guest is at `1:` and has printed the first `n` characters. -/
structure AtLoop (message rest : List U8) (n : Nat) (g : Guest) : Prop where
  hello : Hello message rest 6 g
  pointer : g.hart.reg 8 = mainBase + BitVec.ofNat 64 (40 + n)
  printed : g.stdout = message.take n

theorem helloImage_message {n : Nat} {c : U8} (character : (message ++ 0 :: rest)[n]? = some c) :
    (helloImage message rest)[40 + n]? = some c := by
  have length : (codeBytes helloWords).length = 40 := length_codeBytes helloWords
  rw [helloImage, List.getElem?_append_right (by omega), length, Nat.add_sub_cancel_left]
  exact character

/-- `la s0, msg; j 1f`. -/
theorem start_loop : ∃ g, ReflTransGen Guest.Moves (Guest.start (helloImage message rest)) g ∧
    AtLoop message rest 0 g := by
  have first : Hello message rest 0 (Guest.start (helloImage message rest)) := ⟨rfl, rfl⟩
  have auipc := first.step 0x00000417 (.auipc 8 0) rfl (by decide) (by decide) rfl
  have second := first.setting 8 mainBase
  have addi := second.step 0x02840413 (.alu ⟨.add, false, 8, 8, .imm 40⟩) rfl (by decide)
    (by decide) rfl
  have third := second.setting 8 (mainBase + 40)
  have jump := third.step 0x0100006f (.jal 0 16) rfl (by decide) (by decide) rfl
  refine ⟨_, ((ReflTransGen.single auipc).tail addi).tail jump, ⟨?_, rfl⟩, ?_, rfl⟩
  · rfl
  · rfl

/-- `lbu a0, 0(s0)`. -/
theorem AtLoop.lbu {n : Nat} {g : Guest} (loop : AtLoop message rest n g)
    (fits : (helloImage message rest).length < 2 ^ 64) {c : U8}
    (character : (message ++ 0 :: rest)[n]? = some c) : g.Moves (g.setting 10 (c.setWidth 64)) := by
  have loaded := helloImage_message character
  have inside : 40 + n < (helloImage message rest).length :=
    (List.getElem?_eq_some_iff.mp loaded).1
  have present : g.hart.mem.byte (g.hart.reg 8 + (0 : BitVec 12).signExtend 64) = some c := by
    have none' : (0 : BitVec 12).signExtend 64 = (0#64) := by decide
    rw [none', BitVec.add_zero, loop.pointer, loop.hello.mem,
      Memory.ofBytes_byte _ _ (by omega), loaded]
  refine loop.hello.step 0x00044503 (.load ⟨.byte, false⟩ 10 8 0) rfl (by decide) (by decide) ?_
  have bytes : g.hart.mem.load (g.hart.reg 8 + (0 : BitVec 12).signExtend 64) Size.byte.bytes =
      some (c.setWidth 64) := Memory.load_byte present
  rw [Instr.exec, bytes]
  rfl

/-- `bnez a0, 0b` goes to `0:` or on, and changes nothing else. -/
theorem Hello.bnez {g : Guest} (hello : Hello message rest 7 g) :
    ∃ pc, g.Moves ⟨{ g.hart with pc := pc }, g.stdout⟩ ∧
      Hello message rest (if g.hart.reg 10 ≠ 0 then 3 else 8)
        ⟨{ g.hart with pc := pc }, g.stdout⟩ := by
  have zero : g.hart.reg 0 = 0 := g.hart.regs.zero
  have branch := hello.step 0xfe0518e3 (.branch .ne 10 0 0x1ff0) rfl (by decide) (by decide) rfl
  refine ⟨_, branch, ?_, hello.mem⟩
  change (if Cond.ne.eval (g.hart.reg 10) (g.hart.reg 0) = true then
    g.hart.pc + (0x1ff0 : BitVec 13).signExtend 64 else g.hart.pc + 4) = _
  rw [zero, hello.pc]
  by_cases nonzero : g.hart.reg 10 ≠ 0
  · have goes : Cond.ne.eval (g.hart.reg 10) 0 = true := decide_eq_true nonzero
    rw [if_pos nonzero, if_pos goes]
    rfl
  · have ended : ¬Cond.ne.eval (g.hart.reg 10) 0 = true := fun taken =>
      nonzero (of_decide_eq_true taken)
    rw [if_neg nonzero, if_neg ended]
    rfl

theorem Hello.printed {k : Nat} {g : Guest} (hello : Hello message rest k g) :
    Hello message rest (k + 1) g.printed := by
  have moved := (hello.setting 0 0).pc
  exact ⟨moved, hello.mem⟩

/-- `0: li a7, 1; ecall; addi s0, s0, 1`. -/
theorem Hello.print {g : Guest} (hello : Hello message rest 3 g) :
    ∃ g', ReflTransGen Guest.Moves g g' ∧ Hello message rest 6 g' ∧
      g'.hart.reg 8 = g.hart.reg 8 + 1 ∧
      g'.stdout = g.stdout ++ [(g.hart.reg 10).setWidth 8] := by
  have li := hello.li 0x00100893 1 rfl (by decide) (by decide)
  have selected := hello.setting 17 1
  have print := (selected.calls rfl (g.setting_same (by decide) 1)).moves
  have next := selected.printed
  have addi := next.step 0x00140413 (.alu ⟨.add, false, 8, 8, .imm 1⟩) rfl (by decide) (by decide)
    rfl
  refine ⟨_, ((ReflTransGen.single li).tail print).tail addi, next.setting 8 _, ?_, ?_⟩
  · have other : (g.setting 17 1).hart.reg 8 = g.hart.reg 8 := g.setting_other (by decide) 1
    rw [← other]
    exact Guest.setting_same _ (by decide) _
  · have other : (g.setting 17 1).hart.reg 10 = g.hart.reg 10 := g.setting_other (by decide) 1
    rw [← other]
    rfl

/-- One character is loaded and printed. -/
theorem AtLoop.character {n : Nat} {g : Guest} (loop : AtLoop message rest n g)
    (fits : (helloImage message rest).length < 2 ^ 64) {c : U8}
    (inside : message[n]? = some c) (nonzero : c ≠ 0) :
    ∃ g', ReflTransGen Guest.Moves g g' ∧ AtLoop message rest (n + 1) g' := by
  have bound : n < message.length := (List.getElem?_eq_some_iff.mp inside).1
  have next : (message ++ 0 :: rest)[n]? = some c := by
    rw [List.getElem?_append_left bound, inside]
  have lbu := loop.lbu fits next
  have argument : (g.setting 10 (c.setWidth 64)).hart.reg 10 = c.setWidth 64 :=
    g.setting_same (by decide) _
  have pointer : (g.setting 10 (c.setWidth 64)).hart.reg 8 = g.hart.reg 8 :=
    g.setting_other (by decide) _
  have taken : (g.setting 10 (c.setWidth 64)).hart.reg 10 ≠ 0 := by
    rw [argument]
    intro zero
    exact nonzero (by bv_omega)
  obtain ⟨pc, bnez, body⟩ := (loop.hello.setting 10 (c.setWidth 64)).bnez
  rw [if_pos taken] at body
  obtain ⟨g', prints, again, moved, printed⟩ := body.print
  refine ⟨g', ((ReflTransGen.single lbu).tail bnez).trans prints, again, ?_, ?_⟩
  · rw [moved]
    change (g.setting 10 (c.setWidth 64)).hart.reg 8 + 1 = _
    rw [pointer, loop.pointer, BitVec.add_assoc, ← Nat.add_assoc, BitVec.ofNat_add _ 1]
    rfl
  · rw [printed]
    change g.stdout ++ [((g.setting 10 (c.setWidth 64)).hart.reg 10).setWidth 8] = _
    rw [argument, loop.printed, List.take_add_one, inside, BitVec.setWidth_setWidth_of_le _
      (by decide), BitVec.setWidth_eq]
    rfl

/-- The end: `lbu a0, 0(s0); bnez a0, 0b; li a7, 2; ecall`. -/
theorem AtLoop.finish {g : Guest} (loop : AtLoop message rest message.length g)
    (fits : (helloImage message rest).length < 2 ^ 64) :
    ∃ g', ReflTransGen Guest.Moves g g' ∧ g'.Exits 0 ∧ g'.stdout = message := by
  have next : (message ++ 0 :: rest)[message.length]? = some 0 := by simp
  have lbu := loop.lbu fits next
  have argument : (g.setting 10 ((0 : U8).setWidth 64)).hart.reg 10 = 0 :=
    g.setting_same (by decide) _
  obtain ⟨pc, bnez, after⟩ := (loop.hello.setting 10 ((0 : U8).setWidth 64)).bnez
  rw [if_neg (not_not.mpr argument)] at after
  have li := after.li 0x00200893 2 rfl (by decide) (by decide)
  have selected := after.setting 17 2
  refine ⟨_, ((ReflTransGen.single lbu).tail bnez).tail li, ⟨?_, ?_⟩, ?_⟩
  · exact selected.calls rfl (Guest.setting_same _ (by decide) _)
  · rw [Guest.setting_other _ (by decide)]
    change ((g.setting 10 ((0 : U8).setWidth 64)).hart.reg 10).setWidth 8 = 0
    rw [argument]
    rfl
  · change g.stdout = message
    rw [loop.printed, List.take_length]

end Run

/-- Whatever the message, the program prints it up to its terminator and exits with 0. -/
theorem helloWorld_prints (message rest : List U8) (text : ∀ c ∈ message, c ≠ 0)
    (fits : mainBase.toNat + (helloImage message rest).length < 2 ^ 64) :
    ∃ n, ∀ k ≥ n, ((mainStep (helloImage message rest))^[k]
      (mainMachine (helloImage message rest))).device = ⟨message, some 0⟩ := by
  have small : (helloImage message rest).length < 2 ^ 64 := by omega
  have loops : ∀ n ≤ message.length, ∃ g,
      ReflTransGen Guest.Moves (Guest.start (helloImage message rest)) g ∧
        AtLoop message rest n g := by
    intro n
    induction n with
    | zero => exact fun _ => start_loop
    | succ n ih =>
        intro bound
        obtain ⟨g, reached, loop⟩ := ih (by omega)
        have inside : message[n]? = some message[n] := List.getElem?_eq_getElem bound
        obtain ⟨g', more, loop'⟩ := loop.character small inside (text _ (List.getElem_mem bound))
        exact ⟨g', reached.trans more, loop'⟩
  obtain ⟨g, reached, loop⟩ := loops message.length (Nat.le_refl _)
  obtain ⟨g', more, exits, printed⟩ := loop.finish small
  obtain ⟨n, hosts⟩ := main_hosts fits (reached.trans more)
  refine ⟨n + 1, ?_⟩
  intro k later
  rw [hosts.ends exits later, printed]

/-- The message of `helloworld.S`. -/
theorem helloWorld_prints_hello :
    let message : List U8 := "Hello, World!\n".toList.map fun c => BitVec.ofNat 8 c.toNat
    ∃ n, ∀ k ≥ n, ((mainStep (helloImage message [0]))^[k]
      (mainMachine (helloImage message [0]))).device = ⟨message, some 0⟩ :=
  helloWorld_prints _ [0] (by decide) (by decide)

end Riscmulator
