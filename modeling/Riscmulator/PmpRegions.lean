import Riscmulator.PmpLocks
import Riscmulator.Lib.Napot

/-! The region of a PMP entry, as checks enforce it and as software reads it back. -/

namespace Riscmulator

open Transition

variable {δ : Type}

/-! ### The region a stored value encodes -/

/-- The byte mask of `pmpaddr_match` covers one region. -/
theorem getLsbD_bmask (pmpaddr : U64) {i : Nat} (inside : i < 64) :
    (((pmpaddr ^^^ (pmpaddr + 1)) <<< 2) ||| 3).getLsbD i =
      decide (i < Napot.sizeExp pmpaddr) := by
  have three : (3 : U64).getLsbD i = decide (i < 2) :=
    BitField.getLsbD_lowMask (w := 64) (n := 2) (by decide) i
  rw [BitVec.getLsbD_or, BitVec.getLsbD_shiftLeft, three, Napot.sizeExp]
  by_cases low : i < 2
  · simp [low]
    omega
  · have changed := Napot.getLsbD_xor_succ pmpaddr (show i - 2 < 64 by omega)
    rw [show (1#64 : U64) = 1 from rfl] at changed
    rw [changed]
    simp only [inside, low, decide_true, decide_false, Bool.not_false, Bool.true_and,
      Bool.or_false, decide_eq_decide]
    omega

/-- The base of `pmpaddr_match` is the stored value above the region's size. -/
theorem getLsbD_base (pmpaddr : U64) {i : Nat} (inside : i < 64) :
    ((pmpaddr &&& ~~~(pmpaddr ^^^ (pmpaddr + 1))) <<< 2).getLsbD i =
      ((pmpaddr <<< 2).getLsbD i && !decide (i < Napot.sizeExp pmpaddr)) := by
  rw [BitVec.getLsbD_shiftLeft, BitVec.getLsbD_shiftLeft, BitField.getLsbD_and_not, Napot.sizeExp]
  by_cases low : i < 2
  · simp [low]
  · have changed := Napot.getLsbD_xor_succ pmpaddr (show i - 2 < 64 by omega)
    rw [show (1#64 : U64) = 1 from rfl] at changed
    have same : i - 2 ≤ Napot.trailingOnes pmpaddr ↔ i < Napot.trailingOnes pmpaddr + 3 := by
      omega
    rw [changed]
    simp only [same, Bool.and_assoc]

theorem pmpaddrMatch_iff (paddr pmpaddr : U64) :
    pmpaddrMatch paddr pmpaddr = true ↔ paddr ∈ Napot.region pmpaddr := by
  rw [Napot.mem_region_iff_bits]
  simp only [pmpaddrMatch, beq_iff_eq]
  constructor
  · intro same i above
    have bits := congrArg (fun x : U64 => x.getLsbD i) same
    by_cases inside : i < 64
    · have outside : ¬i < Napot.sizeExp pmpaddr := by omega
      simp only [BitField.getLsbD_and_not, getLsbD_bmask pmpaddr inside,
        getLsbD_base pmpaddr inside, outside, decide_false, Bool.not_false, Bool.and_true] at bits
      exact bits
    · rw [BitVec.getLsbD_of_ge paddr i (by omega), BitVec.getLsbD_of_ge _ i (by omega)]
  · intro agree
    apply BitVec.eq_of_getLsbD_eq
    intro i inside
    rw [BitField.getLsbD_and_not, getLsbD_bmask pmpaddr inside, getLsbD_base pmpaddr inside]
    by_cases low : i < Napot.sizeExp pmpaddr
    · simp [low]
    · rw [agree i (by omega)]

/-! ### Register writes of a core -/

/-- A `rv_csr_write` of a value to an index; a failing one changes nothing. -/
def csrWriteStep (cpu : RvCpu) (write : Nat × U64) : RvCpu :=
  (rvCsrWrite cpu write.1 write.2).getD cpu

/-- What one write does to the byte and the address of entry `i`. -/
structure PmpStored (i : Fin 64) (cfg : U8) (addr : U64) (cpu : RvCpu) : Prop where
  cfg : cpu.csr.pmpcfgUnpacked i = cfg
  addr : cpu.csr.pmpaddr i = addr

/-- The byte for entry `i` in a value written to its word. -/
def pmpByte (i : Fin 64) (wdata : U64) : U8 := (wdata >>> (8 * (i.val % 8))).setWidth 8

theorem rvCsrWriteReg_entry {cpu cpu' : RvCpu} {reg : RvCsr} {wdata : U64}
    (written : rvCsrWriteReg cpu reg wdata = some cpu') (i : Fin 64) :
    PmpStored i
      (if reg = .pmpcfg (pmpWord i) then
        rvPmpcfgWriteByte (cpu.csr.pmpcfgUnpacked i) (pmpByte i wdata)
      else cpu.csr.pmpcfgUnpacked i)
      (if reg = .pmpaddr i ∧ (cpu.csr.pmpcfgUnpacked i).getLsbD rvPmpcfgLBit = false then wdata
      else cpu.csr.pmpaddr i) cpu' := by
  cases reg with
  | pmpcfg word =>
      cases written
      by_cases here : word = pmpWord i
      · subst here
        refine ⟨?_, by simp [RvCpu.withCsr]⟩
        have inside : i.val % 8 < 8 := Nat.mod_lt _ (by decide)
        rw [if_pos rfl]
        simp only [RvCsrState.pmpcfgUnpacked, RvCpu.withCsr, pmpWord, Function.update_self]
        exact rvPmpcfgWriteWord_byte _ _ inside
      · have other : RvCsr.pmpcfg word ≠ .pmpcfg (pmpWord i) := by
          intro same
          cases same
          exact here rfl
        have apart : (⟨i / 8, by omega⟩ : Fin 8) ≠ word := fun same => here same.symm
        refine ⟨?_, by simp [RvCpu.withCsr]⟩
        rw [if_neg other]
        simp only [RvCsrState.pmpcfgUnpacked, RvCpu.withCsr, Function.update_of_ne apart]
  | pmpaddr entry =>
      simp only [rvCsrWriteReg] at written
      split_ifs at written with locked
      · cases written
        refine ⟨rfl, ?_⟩
        rw [if_neg]
        rintro ⟨same, unlocked⟩
        cases same
        rw [locked] at unlocked
        cases unlocked
      · cases written
        refine ⟨rfl, ?_⟩
        by_cases here : entry = i
        · subst here
          rw [if_pos ⟨rfl, Bool.not_eq_true _ ▸ locked⟩]
          exact Function.update_self entry wdata cpu.csr.pmpaddr
        · have apart : i ≠ entry := fun same => here same.symm
          rw [if_neg (by rintro ⟨same, _⟩; cases same; exact here rfl)]
          exact Function.update_of_ne apart wdata cpu.csr.pmpaddr
  | _ =>
      simp only [rvCsrWriteReg] at written
      (try split_ifs at written) <;> cases written <;> exact ⟨rfl, rfl⟩

/-! ### What software reads back -/

/-- The A field of entry `i` is NAPOT. -/
def pmpNapot (cpu : RvCpu) (i : Fin 64) : Prop :=
  (cpu.csr.pmpcfgUnpacked i >>> rvPmpcfgABaseBit) &&& 3 = rvPmpAddrMatchNapot

instance (cpu : RvCpu) (i : Fin 64) : Decidable (pmpNapot cpu i) :=
  inferInstanceAs (Decidable (_ = _))

/-- The bytes that entry `i` decides about in a check are those of the region
that reading `pmpaddr[i]` reports. -/
def PmpReadback (i : Fin 64) (cpu : RvCpu) : Prop :=
  pmpNapot cpu i → ∃ reported, rvCsrRead cpu (rvCsrPmpaddr0 + i.val) = some reported ∧
    ∀ paddr, rvPmpEntry cpu paddr paddr false i ≠ none ↔ paddr ∈ Napot.region reported

theorem rvCsrOfIndex_pmpaddr (i : Fin 64) :
    rvCsrOfIndex (rvCsrPmpaddr0 + i.val) = some (.pmpaddr i) := by
  revert i
  decide

theorem pmpNapot_enabled {cfg : U8}
    (napot : (cfg >>> rvPmpcfgABaseBit) &&& 3 = rvPmpAddrMatchNapot) :
    cfg.getLsbD (rvPmpcfgABaseBit + 1) = true := by
  revert cfg
  decide

/-- An enabled entry decides about the bytes of its stored region. -/
theorem rvPmpEntry_byte {cpu : RvCpu} {i : Fin 64} (napot : pmpNapot cpu i) (paddr : U64) :
    rvPmpEntry cpu paddr paddr false i ≠ none ↔ paddr ∈ Napot.region (cpu.csr.pmpaddr i) := by
  have applies : rvPmpApplies cpu false i = true := by
    simp [rvPmpApplies, pmpNapot_enabled napot]
  rw [← pmpaddrMatch_iff]
  cases matched : pmpaddrMatch paddr (cpu.csr.pmpaddr i) <;>
    simp [rvPmpEntry, applies, matched]

theorem rvCsrRead_pmpaddr {cpu : RvCpu} {i : Fin 64} (machine : cpu.privilege = 3)
    (napot : pmpNapot cpu i) : rvCsrRead cpu (rvCsrPmpaddr0 + i.val) =
      some (Napot.fill (cpu.csr.pmpaddr i) (rvPmpgrain - 1)) := by
  have level : rvCsrPriv (rvCsrPmpaddr0 + i.val) = 3 := rvCsrOfIndex_level (rvCsrOfIndex_pmpaddr i)
  have allowed : ¬rvCsrPriv (rvCsrPmpaddr0 + i.val) > cpu.privilege.toNat := by
    rw [level, machine]
    decide
  rw [rvCsrRead, if_neg allowed, rvCsrOfIndex_pmpaddr, Option.bind_some]
  exact if_pos napot

/-- In M-mode, what is read back is what is enforced exactly when the low bits
of the stored address are set. -/
theorem pmpReadback_iff {cpu : RvCpu} {i : Fin 64} (machine : cpu.privilege = 3) :
    PmpReadback i cpu ↔ (pmpNapot cpu i →
      cpu.csr.pmpaddr i &&& rvPmpgrainNapotMask = rvPmpgrainNapotMask) := by
  have low : Napot.fill (cpu.csr.pmpaddr i) (rvPmpgrain - 1) = cpu.csr.pmpaddr i ↔
      cpu.csr.pmpaddr i &&& rvPmpgrainNapotMask = rvPmpgrainNapotMask :=
    BitField.or_eq_self_iff _ _
  refine forall_congr' fun napot => ?_
  rw [← low, ← Napot.region_fill_iff _ (by decide : rvPmpgrain - 1 + 3 < 64),
    rvCsrRead_pmpaddr machine napot]
  constructor
  · rintro ⟨reported, read, same⟩
    cases read
    ext paddr
    rw [← same, rvPmpEntry_byte napot]
  · intro same
    refine ⟨_, rfl, fun paddr => ?_⟩
    rw [same, rvPmpEntry_byte napot]

/-! ### Runs of register writes -/

/-- A write keeps the enforced region of entry `i` equal to the reported one:
an address written in NAPOT mode has its low bits set, and so has the address
of an entry that is turned to NAPOT mode. -/
def KeepsGrain (i : Fin 64) (cpu : RvCpu) (write : Nat × U64) : Prop :=
  (cpu.csr.pmpcfgUnpacked i).getLsbD rvPmpcfgLBit = false →
    (rvCsrOfIndex write.1 = some (.pmpaddr i) → pmpNapot cpu i →
      write.2 &&& rvPmpgrainNapotMask = rvPmpgrainNapotMask) ∧
    (rvCsrOfIndex write.1 = some (.pmpcfg (pmpWord i)) →
      (pmpByte i write.2).getLsbD (rvPmpcfgABaseBit + 1) = true →
        cpu.csr.pmpaddr i &&& rvPmpgrainNapotMask = rvPmpgrainNapotMask)

/-- A core in M-mode whose configuration bytes are legal. -/
structure PmpMachine (cpu : RvCpu) : Prop where
  machine : cpu.privilege = 3
  legal : PmpLegal cpu

theorem csrWriteStep_pmpMachine (cpu : RvCpu) (write : Nat × U64) (before : PmpMachine cpu) :
    PmpMachine (csrWriteStep cpu write) := by
  unfold csrWriteStep
  cases outcome : rvCsrWrite cpu write.1 write.2 with
  | none => exact before
  | some cpu' =>
      rcases rvCsrWrite_eq_some.mp outcome with ⟨reg, _, written⟩
      refine ⟨?_, pmpLegal_write written before.legal⟩
      rw [Option.getD_some, (rvCsrWriteReg_privilege written).1]
      exact before.machine

/-- In M-mode every register can be written, and the write does its own case. -/
theorem csrWriteStep_eq {cpu : RvCpu} (machine : cpu.privilege = 3) (write : Nat × U64) :
    csrWriteStep cpu write =
      ((rvCsrOfIndex write.1).bind fun reg => rvCsrWriteReg cpu reg write.2).getD cpu := by
  have allowed : ¬rvCsrPriv write.1 > cpu.privilege.toNat := by
    have small : rvCsrPriv write.1 < 4 := Nat.mod_lt _ (by decide)
    rw [machine]
    exact Nat.not_lt.mpr (Nat.le_of_lt_succ small)
  rw [csrWriteStep, rvCsrWrite, if_neg allowed]

theorem csrWriteStep_entry {cpu : RvCpu} (machine : cpu.privilege = 3) (write : Nat × U64)
    (i : Fin 64) :
    PmpStored i
      (if rvCsrOfIndex write.1 = some (.pmpcfg (pmpWord i)) then
        rvPmpcfgWriteByte (cpu.csr.pmpcfgUnpacked i) (pmpByte i write.2)
      else cpu.csr.pmpcfgUnpacked i)
      (if rvCsrOfIndex write.1 = some (.pmpaddr i) ∧
          (cpu.csr.pmpcfgUnpacked i).getLsbD rvPmpcfgLBit = false then write.2
      else cpu.csr.pmpaddr i) (csrWriteStep cpu write) := by
  rw [csrWriteStep_eq machine]
  cases selected : rvCsrOfIndex write.1 with
  | none => exact ⟨rfl, rfl⟩
  | some reg =>
      rw [Option.bind_some]
      simp only [Option.some.injEq]
      cases written : rvCsrWriteReg cpu reg write.2 with
      | some cpu' => exact rvCsrWriteReg_entry written i
      | none =>
          have other : reg ≠ .pmpcfg (pmpWord i) ∧ reg ≠ .pmpaddr i := by
            constructor
            · rintro rfl
              cases written
            · rintro rfl
              simp only [rvCsrWriteReg] at written
              split_ifs at written
          rw [if_neg other.1, if_neg fun both => other.2 both.1]
          exact ⟨rfl, rfl⟩

/-- A written byte turns its entry to NAPOT for NAPOT and for NA4. -/
theorem rvPmpcfgWriteByte_napot {old : U8} (unlocked : old.getLsbD rvPmpcfgLBit = false)
    (written : U8) :
    (rvPmpcfgWriteByte old written >>> rvPmpcfgABaseBit) &&& 3 = rvPmpAddrMatchNapot ↔
      written.getLsbD (rvPmpcfgABaseBit + 1) = true := by
  rw [rvPmpcfgWriteByte_fresh unlocked]
  clear unlocked
  revert written
  decide

/-- One write keeps the region of entry `i` as reported exactly when it meets the condition. -/
theorem pmpReadback_step (i : Fin 64) {cpu : RvCpu} (write : Nat × U64) (before : PmpMachine cpu)
    (same : PmpReadback i cpu) : PmpReadback i (csrWriteStep cpu write) ↔ KeepsGrain i cpu write := by
  have entry := csrWriteStep_entry before.machine write i
  rw [pmpReadback_iff (csrWriteStep_pmpMachine cpu write before).machine, pmpNapot, entry.cfg,
    entry.addr]
  rw [pmpReadback_iff before.machine] at same
  cases locked : (cpu.csr.pmpcfgUnpacked i).getLsbD rvPmpcfgLBit with
  | true =>
      rw [rvPmpcfgWriteByte_locked locked, ite_self, if_neg fun both => Bool.noConfusion both.2]
      refine iff_of_true same fun unlocked => ?_
      rw [locked] at unlocked
      cases unlocked
  | false =>
      by_cases address : rvCsrOfIndex write.1 = some (.pmpaddr i)
      · have other : rvCsrOfIndex write.1 ≠ some (.pmpcfg (pmpWord i)) := by
          rw [address]
          exact fun same => by cases same
        rw [if_neg other, if_pos ⟨address, rfl⟩]
        constructor
        · intro after _
          exact ⟨fun _ => after, fun config => absurd config other⟩
        · intro keeps
          exact (keeps locked).1 address
      by_cases config : rvCsrOfIndex write.1 = some (.pmpcfg (pmpWord i))
      · rw [if_pos config, if_neg fun both => address both.1, rvPmpcfgWriteByte_napot locked]
        constructor
        · intro after _
          exact ⟨fun here => absurd here address, fun _ => after⟩
        · intro keeps
          exact (keeps locked).2 config
      · rw [if_neg config, if_neg fun both => address both.1]
        refine iff_of_true same fun _ => ?_
        exact ⟨fun here => absurd here address, fun here => absurd here config⟩

theorem emuMachineInit_pmpMachine (device : δ) (h : Nat) :
    PmpMachine ((emuMachineInit device).cpus h) := ⟨rfl, emuMachineInit_pmpLegal device h⟩

/-- Along a sequence of register writes the region that software discovers for
entry `i` is the one enforced, in every state reached, exactly when each write
to the entry leaves the low bits of its address set in NAPOT mode. -/
theorem pmpReadback_run (device : δ) (h : Nat) (i : Fin 64) (writes : List (Nat × U64)) :
    Throughout csrWriteStep (PmpReadback i) ((emuMachineInit device).cpus h) writes ↔
      StepsMeet csrWriteStep (KeepsGrain i) ((emuMachineInit device).cpus h) writes := by
  have start : PmpReadback i ((emuMachineInit device).cpus h) := by
    intro napot
    rw [pmpNapot, emuMachineInit_pmpOff] at napot
    cases napot
  exact throughout_iff_stepsMeet (E := fun _ => True)
    (fun cpu write _ => csrWriteStep_pmpMachine cpu write)
    (fun cpu write _ machine same => pmpReadback_step i write machine same)
    (emuMachineInit_pmpMachine device h) start writes fun _ _ => trivial

/-- Turning entry 0 to NAPOT with address 0: byte 8 is reported inside and not enforced. -/
theorem pmpReadback_short :
    ¬PmpReadback 0 (run csrWriteStep ((emuMachineInit ()).cpus 0) [(0x3A0, 0x18)]) := by
  rw [pmpReadback_iff rfl]
  decide

end Riscmulator
