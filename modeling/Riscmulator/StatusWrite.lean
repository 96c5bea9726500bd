import Riscmulator.TrapReturn

/-! What a CSR write of `mstatus` or `sstatus` makes of the fields of the register
that the two names share. -/

namespace Riscmulator

open BitField

variable {cpu : RvCpu} {wdata : U64}

/-! ### Writes in M-mode -/

/-- A bit of the implemented fields other than MPP. -/
def MstatusBit (i : Nat) : Prop := rvMstatusMask.getLsbD i = true ∧ i ≠ 11 ∧ i ≠ 12

instance (i : Nat) : Decidable (MstatusBit i) := inferInstanceAs (Decidable (_ ∧ _))

/-- MIE, MPIE, MPP, MPRV, TVM, TW and TSR. -/
def machineBits : List Nat := [3, 7, 11, 12, 17, 20, 21, 22]

/-- A write of `mstatus` reads back as written through both names. -/
structure MstatusReadsBack (cpu : RvCpu) (wdata : U64) : Prop where
  mstatus : ∃ value, rvCsrRead cpu 0x300 = some value ∧
    (∀ i, MstatusBit i → value.getLsbD i = wdata.getLsbD i) ∧
    (statusMpp wdata ≠ 2 → statusMpp value = statusMpp wdata)
  sstatus : ∃ value, rvCsrRead cpu 0x100 = some value ∧
    ∀ i, rvSstatusMask.getLsbD i = true → value.getLsbD i = wdata.getLsbD i

/-- A write of `sstatus` changes the bits that it shows and nothing else. -/
structure SstatusWrites (cpu cpu' : RvCpu) (wdata : U64) : Prop where
  frame : cpu' = cpu.withCsr { cpu.csr with mstatus := cpu'.csr.mstatus }
  visible : ∀ i, rvSstatusMask.getLsbD i = true → cpu'.csr.mstatus.getLsbD i = wdata.getLsbD i
  hidden : ∀ i, rvSstatusMask.getLsbD i = false →
    cpu'.csr.mstatus.getLsbD i = cpu.csr.mstatus.getLsbD i
  machine : ∀ i ∈ machineBits, cpu'.csr.mstatus.getLsbD i = cpu.csr.mstatus.getLsbD i

def StatusFrame (cpu : RvCpu) (wdata : U64) : Prop :=
  (∃ cpu', rvCsrWrite cpu 0x300 wdata = some cpu' ∧ MstatusReadsBack cpu' wdata) ∧
    ∃ cpu', rvCsrWrite cpu 0x100 wdata = some cpu' ∧ SstatusWrites cpu cpu' wdata

/-- The value of `mstatus` after a write. Positions 1 and 3 also take the bit above. -/
theorem rvMstatusWdata_getLsbD (wdata : U64) (i : Nat) :
    (rvMstatusWdata wdata).getLsbD i =
      (rvMstatusMask.getLsbD i &&
        (wdata.getLsbD i || (decide (i = 1 ∨ i = 3) && wdata.getLsbD (i + 1)))) := by
  have slip : ∀ i < 64, (BitVec.ofNat 64 rvStatusMppBaseBit).getLsbD i =
      decide (i = 0 ∨ i = 1 ∨ i = 3) := by decide
  have lowest : rvMstatusMask.getLsbD 0 = false := by decide
  by_cases inside : i < 64
  · rw [rvMstatusWdata, BitVec.getLsbD_and, BitVec.getLsbD_or, BitVec.getLsbD_and,
      BitVec.getLsbD_ushiftRight, slip i inside, Nat.add_comm 1 i]
    by_cases zero : i = 0
    · rw [zero, lowest, Bool.and_false, Bool.false_and]
    · simp [zero, Bool.and_comm]
  · rw [BitVec.getLsbD_of_ge _ _ (by omega), BitVec.getLsbD_of_ge rvMstatusMask _ (by omega),
      Bool.false_and]

theorem rvMstatusWdata_statusMpp (wdata : U64) :
    statusMpp (rvMstatusWdata wdata) = statusMpp wdata := by
  apply statusMpp_congr
  intro i low
  have inside : rvMstatusMask.getLsbD (rvStatusMppBaseBit + i) = true := by
    revert i
    decide
  have other : ¬(rvStatusMppBaseBit + i = 1 ∨ rvStatusMppBaseBit + i = 3) := by
    rw [rvStatusMppBaseBit]
    omega
  simp [rvMstatusWdata_getLsbD, inside, other]

/-! ### Accesses in M-mode -/

theorem rvCsrRead_machine (machine : cpu.privilege = 3) (index : Nat) :
    rvCsrRead cpu index = (rvCsrOfIndex index).bind (rvCsrReadReg cpu) := by
  have level : rvCsrPriv index < 4 := Nat.mod_lt _ (by decide)
  have top : cpu.privilege.toNat = 3 := congrArg BitVec.toNat machine
  rw [rvCsrRead, if_neg (by omega)]

theorem rvCsrWrite_machine (machine : cpu.privilege = 3) (index : Nat) :
    rvCsrWrite cpu index wdata =
      (rvCsrOfIndex index).bind fun reg => rvCsrWriteReg cpu reg wdata := by
  have level : rvCsrPriv index < 4 := Nat.mod_lt _ (by decide)
  have top : cpu.privilege.toNat = 3 := congrArg BitVec.toNat machine
  rw [rvCsrWrite, if_neg (by omega)]

/-- The hardwired bits are outside the implemented fields. -/
theorem rvMstatusHardwired_getLsbD {i : Nat} (inside : rvMstatusMask.getLsbD i = true) :
    rvMstatusHardwired.getLsbD i = false := by
  have apart : ∀ i < 64, rvMstatusMask.getLsbD i = true → rvMstatusHardwired.getLsbD i = false := by
    decide
  by_cases small : i < 64
  · exact apart i small inside
  · exact BitVec.getLsbD_of_ge _ _ (by omega)

theorem rvSstatusMask_getLsbD {i : Nat} (shown : rvSstatusMask.getLsbD i = true) :
    MstatusBit i ∧ rvSstatusHardwired.getLsbD i = false := by
  have apart : ∀ i < 64, rvSstatusMask.getLsbD i = true →
      (rvMstatusMask.getLsbD i = true ∧ i ≠ 11 ∧ i ≠ 12) ∧
        rvSstatusHardwired.getLsbD i = false := by
    decide
  by_cases small : i < 64
  · exact apart i small shown
  · rw [BitVec.getLsbD_of_ge _ _ (by omega)] at shown
    cases shown

/-- The bits that an `mstatus` write keeps as they are written. -/
def StatusKept (wdata : U64) : Prop :=
  (wdata.getLsbD 2 = true → wdata.getLsbD 1 = true) ∧
    (wdata.getLsbD 4 = true → wdata.getLsbD 3 = true)

theorem rvMstatusWdata_kept (kept : StatusKept wdata) {i : Nat}
    (inside : rvMstatusMask.getLsbD i = true) :
    (rvMstatusWdata wdata).getLsbD i = wdata.getLsbD i := by
  rw [rvMstatusWdata_getLsbD, inside, Bool.true_and]
  by_cases low : i = 1
  · subst low
    cases above : wdata.getLsbD 2 with
    | true => simp [kept.1 above]
    | false => simp
  by_cases high : i = 3
  · subst high
    cases above : wdata.getLsbD 4 with
    | true => simp [kept.2 above]
    | false => simp
  · simp [low, high]

theorem mstatusReadsBack_iff {cpu' : RvCpu} (machine : cpu'.privilege = 3)
    (written : cpu'.csr.mstatus = rvMstatusWdata wdata) :
    MstatusReadsBack cpu' wdata ↔ StatusKept wdata := by
  have readM : rvCsrRead cpu' 0x300 = some (rvMstatusWdata wdata ||| rvMstatusHardwired) := by
    rw [rvCsrRead_machine machine, ← written]
    rfl
  have readS : rvCsrRead cpu' 0x100 =
      some ((rvMstatusWdata wdata &&& rvSstatusMask) ||| rvSstatusHardwired) := by
    rw [rvCsrRead_machine machine, ← written]
    rfl
  have stored (i : Nat) (inside : rvMstatusMask.getLsbD i = true) :
      (rvMstatusWdata wdata ||| rvMstatusHardwired).getLsbD i =
        (rvMstatusWdata wdata).getLsbD i := by
    rw [BitVec.getLsbD_or, rvMstatusHardwired_getLsbD inside, Bool.or_false]
  constructor
  · intro back
    rcases back.mstatus with ⟨value, read, fields, _⟩
    rw [readM] at read
    cases read
    have sie := fields 1 (by decide)
    have mie := fields 3 (by decide)
    rw [stored 1 (by decide), rvMstatusWdata_getLsbD] at sie
    rw [stored 3 (by decide), rvMstatusWdata_getLsbD] at mie
    constructor
    · intro above
      rw [← sie, above]
      simp
      decide
    · intro above
      rw [← mie, above]
      simp
      decide
  · intro kept
    constructor
    · refine ⟨_, readM, ?_, ?_⟩
      · intro i field
        rw [stored i field.1, rvMstatusWdata_kept kept field.1]
      · intro _
        have mpp : statusMpp (rvMstatusWdata wdata ||| rvMstatusHardwired) =
            statusMpp (rvMstatusWdata wdata) := by
          apply statusMpp_congr
          intro i low
          apply stored
          revert i
          decide
        rw [mpp, rvMstatusWdata_statusMpp]
    · refine ⟨_, readS, ?_⟩
      intro i shown
      rcases rvSstatusMask_getLsbD shown with ⟨field, soft⟩
      rw [BitVec.getLsbD_or, BitVec.getLsbD_and, shown, soft, Bool.and_true, Bool.or_false,
        rvMstatusWdata_kept kept field.1]

theorem sstatusWrites {cpu' : RvCpu}
    (written : cpu' = cpu.withCsr { cpu.csr with
      mstatus := (cpu.csr.mstatus &&& ~~~rvSstatusMask) ||| (wdata &&& rvSstatusMask) }) :
    SstatusWrites cpu cpu' wdata := by
  have replaced (i : Nat) : cpu'.csr.mstatus.getLsbD i =
      if rvSstatusMask.getLsbD i then wdata.getLsbD i else cpu.csr.mstatus.getLsbD i := by
    rw [written]
    exact getLsbD_replace _ _ _ i
  have apart : ∀ i ∈ machineBits, rvSstatusMask.getLsbD i = false := by decide
  constructor
  · rw [written]
    rfl
  · intro i shown
    rw [replaced, if_pos shown]
  · intro i hidden
    rw [replaced, hidden]
    rfl
  · intro i member
    rw [replaced, apart i member]
    rfl

theorem rvCsrWrite_mstatus (machine : cpu.privilege = 3) :
    ∃ cpu', rvCsrWrite cpu 0x300 wdata = some cpu' ∧ cpu'.privilege = 3 ∧
      cpu'.csr.mstatus = rvMstatusWdata wdata := by
  refine ⟨_, rvCsrWrite_machine machine 0x300, ?_, ?_⟩
  · exact machine
  · rfl

/-- Writes of `mstatus` and `sstatus` keep their fields apart exactly when the bits
above SIE and MIE are clear or these two are set. -/
theorem statusFrame_iff (cpu : RvCpu) (wdata : U64) (machine : cpu.privilege = 3) :
    StatusFrame cpu wdata ↔ StatusKept wdata := by
  rcases rvCsrWrite_mstatus machine with ⟨after, writeM, level, stored⟩
  have writeS : rvCsrWrite cpu 0x100 wdata = some (cpu.withCsr { cpu.csr with
      mstatus := (cpu.csr.mstatus &&& ~~~rvSstatusMask) ||| (wdata &&& rvSstatusMask) }) := by
    rw [rvCsrWrite_machine machine]
    rfl
  constructor
  · rintro ⟨⟨cpu', written, back⟩, _⟩
    rw [writeM] at written
    cases written
    exact (mstatusReadsBack_iff level stored).mp back
  · intro kept
    constructor
    · exact ⟨after, writeM, (mstatusReadsBack_iff level stored).mpr kept⟩
    · exact ⟨_, writeS, sstatusWrites rfl⟩

/-- All ones. -/
theorem statusFrame_iff_ones :
    StatusFrame ((emuMachineInit ()).cpus 0) (BitVec.allOnes 64) :=
  (statusFrame_iff ((emuMachineInit ()).cpus 0) (BitVec.allOnes 64) (by decide)).mpr
    ⟨fun _ => by decide, fun _ => by decide⟩

/-- Writing bit 4, which is no field, sets MIE. -/
theorem statusFrame_mie :
    ¬∀ (cpu : RvCpu) (wdata : U64), cpu.privilege = 3 → StatusFrame cpu wdata := by
  intro always
  have machine : ((emuMachineInit ()).cpus 0).privilege = 3 := by decide
  rcases rvCsrWrite_mstatus machine with ⟨after, writeM, level, stored⟩
  rcases always ((emuMachineInit ()).cpus 0) 0x10 machine with ⟨⟨cpu', written, back⟩, _⟩
  rw [writeM] at written
  cases written
  have mie := ((mstatusReadsBack_iff level stored).mp back).2 (by decide)
  exact absurd mie (by decide)

end Riscmulator
