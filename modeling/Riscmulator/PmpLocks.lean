import Riscmulator.CoreInvariants
import Riscmulator.Overrun

/-! Locked PMP entries and the legal values of a configuration byte. -/

namespace Riscmulator

open Transition

variable {δ : Type}

/-! ### One write of a configuration word -/

theorem rvPmpcfgWriteWord_byte (old wdata : U64) {b : Nat} (inside : b < 8) :
    (rvPmpcfgWriteWord old wdata >>> (8 * b)).setWidth 8 =
      rvPmpcfgWriteByte ((old >>> (8 * b)).setWidth 8) ((wdata >>> (8 * b)).setWidth 8) := by
  apply BitVec.eq_of_getLsbD_eq
  intro j low
  have bound : 8 * b + j < 64 := by omega
  have index : (8 * b + j) / 8 = b := by omega
  have offset : (8 * b + j) % 8 = j := by omega
  rw [BitVec.getLsbD_setWidth, BitVec.getLsbD_ushiftRight, rvPmpcfgWriteWord]
  have packed := BitField.getLsbD_packBytes (w := 64) (fun b =>
    rvPmpcfgWriteByte ((old >>> (b * 8)).setWidth 8) ((wdata >>> (b * 8)).setWidth 8)) 8 (8 * b + j)
  calc
    _ = (decide (j < 8) && (decide (8 * b + j < 64) && (decide (8 * b + j < 8 * 8) &&
          (rvPmpcfgWriteByte ((old >>> ((8 * b + j) / 8 * 8)).setWidth 8)
            ((wdata >>> ((8 * b + j) / 8 * 8)).setWidth 8)).getLsbD ((8 * b + j) % 8)))) :=
      congrArg (decide (j < 8) && ·) packed
    _ = _ := by
      rw [index, offset, Nat.mul_comm b 8]
      simp [low, bound]

theorem rvPmpcfgWriteByte_locked {old : U8} (locked : old.getLsbD rvPmpcfgLBit = true)
    (written : U8) : rvPmpcfgWriteByte old written = old := by
  simp only [rvPmpcfgWriteByte, locked, if_true]

/-- What an unlocked byte held does not matter to the value it takes. -/
theorem rvPmpcfgWriteByte_fresh {old : U8} (unlocked : old.getLsbD rvPmpcfgLBit = false)
    (written : U8) : rvPmpcfgWriteByte old written = rvPmpcfgWriteByte 0 written := by
  simp only [rvPmpcfgWriteByte, unlocked]
  rfl

/-- A is OFF or NAPOT, and bits 6:5 are zero. -/
def PmpByteLegal (cfg : U8) : Prop :=
  ((cfg >>> rvPmpcfgABaseBit) &&& 3 = 0 ∨
    (cfg >>> rvPmpcfgABaseBit) &&& 3 = rvPmpAddrMatchNapot) ∧ cfg &&& 0x60 = 0

instance : DecidablePred PmpByteLegal := fun _ => inferInstanceAs (Decidable (_ ∧ _))

/-- An unlocked byte takes a legal value whatever is written. -/
theorem rvPmpcfgWriteByte_unlocked (written : U8) : PmpByteLegal (rvPmpcfgWriteByte 0 written) := by
  revert written
  decide

theorem rvPmpcfgWriteByte_legal {old : U8} (legal : PmpByteLegal old) (written : U8) :
    PmpByteLegal (rvPmpcfgWriteByte old written) := by
  by_cases locked : old.getLsbD rvPmpcfgLBit = true
  · rw [rvPmpcfgWriteByte_locked locked]
    exact legal
  · rw [rvPmpcfgWriteByte_fresh (Bool.not_eq_true _ ▸ locked)]
    exact rvPmpcfgWriteByte_unlocked written

/-! ### One register write -/

/-- The registers of physical memory protection. -/
def RvCpu.pmp (cpu : RvCpu) : (Fin 8 → U64) × (Fin 64 → U64) := (cpu.csr.pmpcfg, cpu.csr.pmpaddr)

theorem pmpcfgUnpacked_of_pmp {cpu cpu' : RvCpu} (same : cpu'.pmp = cpu.pmp) (i : Fin 64) :
    cpu'.csr.pmpcfgUnpacked i = cpu.csr.pmpcfgUnpacked i := by
  have cfg : cpu'.csr.pmpcfg = cpu.csr.pmpcfg := congrArg Prod.fst same
  simp only [RvCsrState.pmpcfgUnpacked, cfg]

theorem pmpaddr_of_pmp {cpu cpu' : RvCpu} (same : cpu'.pmp = cpu.pmp) (i : Fin 64) :
    cpu'.csr.pmpaddr i = cpu.csr.pmpaddr i := congrFun (congrArg Prod.snd same) i

section Write

variable {cpu cpu' : RvCpu} {reg : RvCsr} {wdata : U64}

theorem rvCsrWriteReg_pmpcfg (written : rvCsrWriteReg cpu reg wdata = some cpu') :
    cpu'.csr.pmpcfg = cpu.csr.pmpcfg ∨ ∃ word, cpu'.csr.pmpcfg =
      Function.update cpu.csr.pmpcfg word (rvPmpcfgWriteWord (cpu.csr.pmpcfg word) wdata) := by
  cases reg <;> simp only [rvCsrWriteReg] at written <;> (try split_ifs at written) <;>
    cases written <;> first | exact Or.inl rfl | exact Or.inr ⟨_, rfl⟩

theorem rvCsrWriteReg_pmpaddr (written : rvCsrWriteReg cpu reg wdata = some cpu') :
    cpu'.csr.pmpaddr = cpu.csr.pmpaddr ∨ ∃ entry,
      (cpu.csr.pmpcfgUnpacked entry).getLsbD rvPmpcfgLBit = false ∧
      cpu'.csr.pmpaddr = Function.update cpu.csr.pmpaddr entry wdata := by
  cases reg <;> simp only [rvCsrWriteReg] at written <;> (try split_ifs at written) <;>
    cases written <;>
    first | exact Or.inl rfl | exact Or.inr ⟨_, Bool.not_eq_true _ ▸ ‹_›, rfl⟩

/-- Every configuration byte is left alone or written as one byte. -/
theorem rvCsrWriteReg_pmpByte (written : rvCsrWriteReg cpu reg wdata = some cpu') (i : Fin 64) :
    cpu'.csr.pmpcfgUnpacked i = cpu.csr.pmpcfgUnpacked i ∨
      ∃ byte, cpu'.csr.pmpcfgUnpacked i = rvPmpcfgWriteByte (cpu.csr.pmpcfgUnpacked i) byte := by
  rcases rvCsrWriteReg_pmpcfg written with same | ⟨word, update⟩
  · left
    simp only [RvCsrState.pmpcfgUnpacked, same]
  · by_cases here : (⟨i / 8, by omega⟩ : Fin 8) = word
    · right
      refine ⟨(wdata >>> (8 * (i.val % 8))).setWidth 8, ?_⟩
      have inside : i.val % 8 < 8 := Nat.mod_lt _ (by decide)
      simp only [RvCsrState.pmpcfgUnpacked, update, here, Function.update_self]
      exact rvPmpcfgWriteWord_byte _ _ inside
    · left
      simp only [RvCsrState.pmpcfgUnpacked, update, Function.update_of_ne here]

end Write

/-! ### Runs -/

/-- Traps, returns and data steps never touch the PMP registers. -/
theorem pmp_invariant {mc : EmuConfig δ} {P : RvCpu → Prop} (hooks : mc.HooksKeep RvCpu.pmp)
    (view : ∀ cpu cpu', cpu'.pmp = cpu.pmp → P cpu → P cpu')
    (write : ∀ {cpu cpu' reg wdata}, rvCsrWriteReg cpu reg wdata = some cpu' → P cpu → P cpu') :
    CoreInvariant mc P where
  data := by
    intro cpu cpu' same before
    rcases same.csr with ⟨fcsr, csr⟩
    apply view _ _ _ before
    rw [RvCpu.pmp, csr]
    rfl
  enter := by
    intro cpu trap before
    apply view _ _ _ before
    unfold rvTrapEnter
    split <;> rfl
  write := fun _ written before => write written before
  mret := fun {cpu} _ before => view cpu (rvMret cpu) rfl before
  sret := fun {cpu} before => view cpu (rvSret cpu) rfl before
  hook := fun found m h trap i before => view _ _ (hooks _ _ found m h trap i) before

def PmpLegal (cpu : RvCpu) : Prop := ∀ i, PmpByteLegal (cpu.csr.pmpcfgUnpacked i)

/-- Entry `i` is locked with this configuration and address. -/
structure PmpLocked (i : Fin 64) (cfg : U8) (addr : U64) (cpu : RvCpu) : Prop where
  locked : cfg.getLsbD rvPmpcfgLBit = true
  cfg : cpu.csr.pmpcfgUnpacked i = cfg
  addr : cpu.csr.pmpaddr i = addr

theorem pmpLegal_write {cpu cpu' : RvCpu} {reg : RvCsr} {wdata : U64}
    (written : rvCsrWriteReg cpu reg wdata = some cpu') (legal : PmpLegal cpu) :
    PmpLegal cpu' := by
  intro i
  rcases rvCsrWriteReg_pmpByte written i with same | ⟨byte, stored⟩
  · rw [same]
    exact legal i
  · rw [stored]
    exact rvPmpcfgWriteByte_legal (legal i) byte

theorem pmpLocked_write {i : Fin 64} {cfg : U8} {addr : U64} {cpu cpu' : RvCpu} {reg : RvCsr}
    {wdata : U64} (written : rvCsrWriteReg cpu reg wdata = some cpu')
    (entry : PmpLocked i cfg addr cpu) : PmpLocked i cfg addr cpu' := by
  refine ⟨entry.locked, ?_, ?_⟩
  · rcases rvCsrWriteReg_pmpByte written i with same | ⟨byte, stored⟩
    · rw [same]
      exact entry.cfg
    · rw [stored, entry.cfg]
      exact rvPmpcfgWriteByte_locked entry.locked byte
  · rcases rvCsrWriteReg_pmpaddr written with same | ⟨other, unlocked, stored⟩
    · rw [same]
      exact entry.addr
    · have apart : i ≠ other := by
        rintro rfl
        rw [entry.cfg, entry.locked] at unlocked
        cases unlocked
      rw [stored, Function.update_of_ne apart]
      exact entry.addr

theorem pmpLegal_invariant {mc : EmuConfig δ} (hooks : mc.HooksKeep RvCpu.pmp) :
    CoreInvariant mc PmpLegal := by
  apply pmp_invariant hooks
  · intro cpu cpu' same legal i
    rw [pmpcfgUnpacked_of_pmp same i]
    exact legal i
  · exact pmpLegal_write

theorem pmpLocked_invariant {mc : EmuConfig δ} (hooks : mc.HooksKeep RvCpu.pmp) (i : Fin 64)
    (cfg : U8) (addr : U64) : CoreInvariant mc (PmpLocked i cfg addr) := by
  apply pmp_invariant hooks
  · intro cpu cpu' same entry
    refine ⟨entry.locked, ?_, ?_⟩
    · rw [pmpcfgUnpacked_of_pmp same i]
      exact entry.cfg
    · rw [pmpaddr_of_pmp same i]
      exact entry.addr
  · exact pmpLocked_write

theorem emuMachineInit_pmpOff (device : δ) (h : Nat) (i : Fin 64) :
    ((emuMachineInit device).cpus h).csr.pmpcfgUnpacked i = 0 := by
  simp [RvCsrState.pmpcfgUnpacked, emuMachineInit, rvSyncMemPrivilege, RvCpu.zero]

theorem emuMachineInit_pmpLegal (device : δ) (h : Nat) :
    PmpLegal ((emuMachineInit device).cpus h) := by
  intro i
  rw [emuMachineInit_pmpOff]
  decide

/-- In every state reached from `emu_machine_init` by events whose TLB stores stay in
their arrays the configuration bytes are legal, and an entry found locked there
has the same byte and address after every further run of such events. -/
theorem pmpLocks_run (mc : EmuConfig δ) (hooks : mc.HooksKeep RvCpu.pmp) (device : δ) (h : Nat)
    (events later : List (MachineEvent δ))
    (inside : StepsMeet (hostStep mc) (StoresInArray mc) (emuMachineInit device)
      (events ++ later)) :
    PmpLegal ((run (hostStep mc) (emuMachineInit device) events).cpus h) ∧
    ∀ i, (((run (hostStep mc) (emuMachineInit device) events).cpus h).csr.pmpcfgUnpacked
        i).getLsbD rvPmpcfgLBit = true →
      PmpLocked i
        (((run (hostStep mc) (emuMachineInit device) events).cpus h).csr.pmpcfgUnpacked i)
        (((run (hostStep mc) (emuMachineInit device) events).cpus h).csr.pmpaddr i)
        ((run (hostStep mc) (emuMachineInit device) (events ++ later)).cpus h) := by
  rw [hostRun_eq inside, hostRun_eq ((stepsMeet_append _ _ _).mp inside).1, run_append]
  constructor
  · exact (pmpLegal_invariant hooks).run (emuMachineInit_pmpLegal device h) events
  · intro i locked
    exact (pmpLocked_invariant hooks i _ _).run ⟨locked, rfl, rfl⟩ later

/-- Locking the first entry and then writing other values to both of its registers. -/
theorem pmpLocks_run_locked :
    PmpLocked 0 0x98 0x1000
      ((run (hostStep (EmuConfig.ramOnly 0 0x1000 1)) (emuMachineInit ())
        ([.insn 0 0x000010b7, .insn 0 0x3b009073, .insn 0 0x09800113, .insn 0 0x3a011073] ++
          [.insn 0 0x3a001073, .insn 0 0x3b001073])).cpus 0) :=
  (pmpLocks_run (EmuConfig.ramOnly 0 0x1000 1) (fun _ _ found => by cases found) () 0
    [.insn 0 0x000010b7, .insn 0 0x3b009073, .insn 0 0x09800113, .insn 0 0x3a011073]
    [.insn 0 0x3a001073, .insn 0 0x3b001073]
    (storesInArray_run (fun _ => rfl) (emuMachineInit_inArray ())
      ⟨by decide, by decide, by decide, by decide, by decide, by decide, trivial⟩)).2 0
    (by decide)

/-- The tag of an evicting load is stored over the configuration byte that M-mode locked. -/
theorem pmpLocks_overwritten : ¬∀ (mc : EmuConfig Unit), mc.HooksKeep RvCpu.pmp →
    ∀ (device : Unit) (h : Nat) (events later : List (MachineEvent Unit)),
      PmpLegal ((run (hostStep mc) (emuMachineInit device) events).cpus h) ∧
      ∀ i, (((run (hostStep mc) (emuMachineInit device) events).cpus h).csr.pmpcfgUnpacked
          i).getLsbD rvPmpcfgLBit = true →
        PmpLocked i
          (((run (hostStep mc) (emuMachineInit device) events).cpus h).csr.pmpcfgUnpacked i)
          (((run (hostStep mc) (emuMachineInit device) events).cpus h).csr.pmpaddr i)
          ((run (hostStep mc) (emuMachineInit device) (events ++ later)).cpus h) := by
  intro always
  have same : run (hostStep spillConfig) spillStart (spillVisits 73) =
      run (hostStep spillConfig) (emuMachineInit ()) (spillSetup ++ spillVisits 73) :=
    (run_append _ _ _ _).symm
  have tag := spill_pmpcfg
  have set : (spillCpu.csr.pmpcfgUnpacked 0).getLsbD rvPmpcfgLBit = true := by decide +kernel
  have locks := (always spillConfig (fun _ _ found => by cases found) () 0 spillSetup
    (spillVisits 73)).2 0 set
  rw [← same] at locks
  generalize run (hostStep spillConfig) spillStart (spillVisits 73) = m at tag locks
  have cfg : (m.cpus 0).csr.pmpcfgUnpacked 0 = spillCpu.csr.pmpcfgUnpacked 0 := locks.cfg
  exact absurd (tag.symm.trans cfg) (by decide +kernel)

end Riscmulator
