import Riscmulator.AmoSemantics
import Riscmulator.Compressed
import Riscmulator.Lib.Hart

/-! A hart of the emulator as a hart of the ISA that owns some bytes of RAM: what the
accesses and the fetches of the one come to in the other. -/

namespace Riscmulator

variable {δ : Type}

/-! ### Ownership -/

/-- Every byte of the ISA's memory is the byte of RAM at its address. -/
def RamHolds (mc : EmuConfig δ) (ram : U64 → U8) (mem : Rv64.Memory) : Prop :=
  ∀ addr byte, mem.byte addr = some byte →
    mc.ramStart ≤ addr ∧ addr < mc.ramEnd ∧ ram (addr - mc.ramStart) = byte

/-- Accesses of the core that stay within the addresses it owns are neither translated nor
refused, and no interrupt is to be taken. -/
structure Undisturbed (cpu : RvCpu) (owned : U64 → Bool) : Prop where
  bare : ∀ mode, rvIsBare cpu mode = true
  granted : ∀ (addr : U64) (sizeExp : Fin 4) (mode : RvAccess),
    (∀ i < 2 ^ sizeExp.val, owned (addr + BitVec.ofNat 64 i) = true) →
      doPmpCheck cpu addr (bit sizeExp.val) mode = .ok
  quiet : rvInterruptCause cpu = none

/-- Hart `h` is in the state `s` of the ISA. -/
structure InState (mc : EmuConfig δ) (m : EmuMachine δ) (h : Nat) (s : Rv64.Hart) : Prop where
  pc : (m.cpus h).pc = s.pc
  regs : (m.cpus h).xregs = s.regs.read
  ram : RamHolds mc m.ram s.mem
  free : Undisturbed (m.cpus h) s.mem.held

theorem Undisturbed.regs {cpu : RvCpu} {owned : U64 → Bool} (free : Undisturbed cpu owned)
    (xregs : BitVec 5 → U64) (pc epc : U64) :
    Undisturbed { cpu with xregs := xregs, pc := pc, epc := epc } owned :=
  ⟨free.bare, free.granted, free.quiet⟩

/-- In M-mode without locked entries, PMP refuses nothing. -/
theorem rvPmpCheck_unlocked {cpu : RvCpu}
    (unlocked : ∀ i, (cpu.csr.pmpcfgUnpacked i).getLsbD rvPmpcfgLBit = false) (paddr size : U64) :
    rvPmpCheck cpu paddr size true = 7 := by
  have goes : ∀ i, rvPmpEntry cpu paddr (paddr + size - 1) true i = none := by
    intro i
    simp [rvPmpEntry, rvPmpApplies, unlocked]
  rw [rvPmpCheck, List.findSome?_eq_none_iff.mpr fun i _ => goes i]
  rfl

theorem rvIsBare_off {cpu : RvCpu} (off : cpu.csr.satp = 0) (mode : RvAccess) :
    rvIsBare cpu mode = true := by
  have mode0 : rvSatpMode 0 = 0 := by decide
  rw [rvIsBare, off, mode0, beq_self_eq_true, Bool.or_true]

theorem rvInterruptCause_unasserted {cpu : RvCpu} (idle : cpu.irqPending = 0) :
    rvInterruptCause cpu = none := by
  simp [rvInterruptCause, rvInterruptTake, idle]

theorem Undisturbed.machine {cpu : RvCpu} (bare : ∀ mode, rvIsBare cpu mode = true)
    (level : cpu.privilege = 3)
    (unlocked : ∀ i, (cpu.csr.pmpcfgUnpacked i).getLsbD rvPmpcfgLBit = false)
    (quiet : rvInterruptCause cpu = none) (owned : U64 → Bool) : Undisturbed cpu owned := by
  refine ⟨bare, ?_, quiet⟩
  intro addr sizeExp mode _
  rw [doPmpCheck, level, beq_self_eq_true, rvPmpCheck_unlocked unlocked]
  cases mode <;> rfl

/-! ### Bytes -/

section Bytes

variable {mc : EmuConfig δ} {ram : U64 → U8} {mem : Rv64.Memory} {addr : U64} {n : Nat}

theorem RamHolds.low (holds : RamHolds mc ram mem)
    (held : ∀ i < n, mem.held (addr + BitVec.ofNat 64 i) = true) (pos : 0 < n) :
    mc.ramStart ≤ addr := by
  obtain ⟨byte, present⟩ := Option.isSome_iff_exists.mp (held 0 pos)
  rw [BitVec.add_zero] at present
  exact (holds addr byte present).1

/-- A range of bytes that are held does not wrap around. -/
theorem RamHolds.high (holds : RamHolds mc ram mem)
    (held : ∀ i < n, mem.held (addr + BitVec.ofNat 64 i) = true) (small : n ≤ 8) :
    addr.toNat + n ≤ mc.ramEnd.toNat ∨ n = 0 := by
  induction n with
  | zero => exact Or.inr rfl
  | succ n ih =>
      left
      obtain ⟨byte, present⟩ := Option.isSome_iff_exists.mp (held n (Nat.lt_succ_self n))
      have last : addr + BitVec.ofNat 64 n < mc.ramEnd := (holds _ byte present).2.1
      rcases ih (fun i inside => held i (Nat.lt_succ_of_lt inside)) (by omega) with below | rfl
      · bv_omega
      · bv_omega

/-- The bytes that the ISA loads are those of RAM. -/
theorem RamHolds.load (holds : RamHolds mc ram mem) {value : U64}
    (loaded : mem.load addr n = some value) :
    value = ramLoad ram (addr - mc.ramStart) n := by
  induction n generalizing addr value with
  | zero =>
      cases loaded
      rfl
  | succ n ih =>
      obtain ⟨low, first, tail⟩ := Option.bind_eq_some_iff.mp loaded
      obtain ⟨rest, later, rfl⟩ := Option.map_eq_some_iff.mp tail
      have next : addr + 1 - mc.ramStart = addr - mc.ramStart + 1 := index_add addr mc.ramStart 1
      rw [ramLoad, (holds addr low first).2.2, ih later, next]

/-- A store of the ISA and one to RAM agree. -/
theorem RamHolds.store (holds : RamHolds mc ram mem) {data : U64} {mem' : Rv64.Memory}
    (stored : mem.store addr data n = some mem') :
    RamHolds mc (ramStore ram (addr - mc.ramStart) data n) mem' := by
  intro a byte present
  have position : a - mc.ramStart - (addr - mc.ramStart) = a - addr := by bv_omega
  have before : mem.held a = true := by
    rw [← (Rv64.Memory.store_shape stored).held, Rv64.Memory.held, present]
    rfl
  obtain ⟨old, owned⟩ := Option.isSome_iff_exists.mp before
  obtain ⟨low, high, same⟩ := holds a old owned
  refine ⟨low, high, ?_⟩
  obtain ⟨_, rfl⟩ := Rv64.Memory.store_eq stored
  rw [ramStore, position]
  simp only [Rv64.Memory.write] at present
  split at present
  · next inside =>
      rw [if_pos inside]
      exact Option.some.inj present
  · next outside =>
      rw [if_neg outside, same]
      rw [owned] at present
      exact Option.some.inj present

/-- A store leaves bytes of RAM alone that are not writable. -/
theorem ramStore_unwritable {data : U64} {mem' : Rv64.Memory}
    (stored : mem.store addr data n = some mem') {a : U64} (foreign : mem.writable a = false) :
    ramStore ram (addr - mc.ramStart) data n (a - mc.ramStart) = ram (a - mc.ramStart) := by
  have position : a - mc.ramStart - (addr - mc.ramStart) = a - addr := by bv_omega
  rw [ramStore, position, if_neg]
  intro inside
  have present : mem.writable a = true := Rv64.within_range (P := fun a => mem.writable a = true)
    (Rv64.Memory.store_eq stored).1 inside
  rw [foreign] at present
  cases present

end Bytes

/-! ### Accesses -/

section Accesses

variable {mc : EmuConfig δ} {m : EmuMachine δ} {h : Nat} {mem : Rv64.Memory} {addr : U64}
  {sizeExp : Fin 4} {mode : RvAccess}

/-- An access to owned bytes is one transfer. -/
theorem rvAccessVirt_owned (holds : RamHolds mc m.ram mem) (free : Undisturbed (m.cpus h) mem.held)
    (held : ∀ i < 2 ^ sizeExp.val, mem.held (addr + BitVec.ofNat 64 i) = true) (data : U64) :
    rvAccessVirt mc m h addr data sizeExp mode =
      ramTransfer mc m addr (some data) (bit sizeExp.val) mode := by
  have size := accessSize_toNat sizeExp
  have pos : 0 < 2 ^ sizeExp.val := Nat.two_pow_pos _
  have small : 2 ^ sizeExp.val ≤ 8 := Nat.pow_le_pow_right (by decide) (by omega : _ ≤ 3)
  have permitted := free.granted addr sizeExp mode held
  have high := (holds.high held small).resolve_right (by omega)
  rw [← size] at high
  exact rvAccessVirt_ram (free.bare mode) permitted (ramHoldsRange_of_le (holds.low held pos) high)
    data

theorem rvAccessVirt_load (holds : RamHolds mc m.ram mem) (free : Undisturbed (m.cpus h) mem.held)
    (load : mode ≠ .store) {value : U64} (loaded : mem.load addr (2 ^ sizeExp.val) = some value) :
    rvAccessVirt mc m h addr 0 sizeExp mode =
      ⟨.ok, m, some value, [⟨addr, bit sizeExp.val, true⟩]⟩ := by
  have size := accessSize_toNat sizeExp
  have buffer : spliceLow 0 value (2 ^ sizeExp.val) = value := by simp [spliceLow]
  rw [rvAccessVirt_owned holds free (Rv64.Memory.held_of_load loaded), ramTransfer_load load, size,
    ← holds.load loaded, buffer]

theorem rvAccessVirt_store (holds : RamHolds mc m.ram mem) (free : Undisturbed (m.cpus h) mem.held)
    (held : ∀ i < 2 ^ sizeExp.val, mem.held (addr + BitVec.ofNat 64 i) = true) (data : U64) :
    rvAccessVirt mc m h addr data sizeExp .store =
      ⟨.ok, { m with ram := ramStore m.ram (addr - mc.ramStart) data (2 ^ sizeExp.val) },
        some data, [⟨addr, bit sizeExp.val, true⟩]⟩ := by
  rw [rvAccessVirt_owned holds free held, ramTransfer_store, accessSize_toNat]

end Accesses

/-! ### Fetches -/

/-- The words that halfwords expand to in the ISA. -/
def isaExpand (hw : U16) : Option U32 := (Rvc.expand hw).map Rvc.encode

/-- The hart is at a HINT that `rvDecompress` takes for a reserved halfword. -/
def AtRejectedHint (s : Rv64.Hart) : Prop :=
  ∃ low, s.mem.load s.pc 2 = some low ∧ (low.setWidth 16).extractLsb' 0 2 ≠ (3 : BitVec 2) ∧
    RejectedHint (low.setWidth 16)

/-- At a word of four bytes there is no halfword to reject. -/
theorem not_atRejectedHint {s : Rv64.Hart} {expand : U16 → Option U32} {word : U32}
    (fetched : s.fetch expand = some (word, 4)) : ¬AtRejectedHint s := by
  rintro ⟨low, loaded, short, _⟩
  rw [Rv64.Hart.fetch, loaded, Option.bind_some, if_pos short] at fetched
  obtain ⟨expansion, _, same⟩ := Option.map_eq_some_iff.mp fetched
  exact absurd (congrArg Prod.snd same) (by decide : (2 : U64) ≠ 4)

theorem InState.fetch {mc : EmuConfig δ} {m : EmuMachine δ} {h : Nat} {s : Rv64.Hart}
    (state : InState mc m h s) {word : U32} {len : U64}
    (fetched : s.fetch isaExpand = some (word, len)) (accepted : ¬AtRejectedHint s) :
    rvFetchInsn mc m h = rvFetched m h word len := by
  obtain ⟨low, first, tail⟩ := Option.bind_eq_some_iff.mp fetched
  have loads : rvAccessVirt mc m h s.pc 0 1 .insn = ⟨.ok, m, some low, [⟨s.pc, bit 1, true⟩]⟩ :=
    rvAccessVirt_load state.ram state.free (by decide) first
  simp only [rvFetchInsn, rvAccessVirt_pc, state.pc, loads, Option.getD_some, ne_eq,
    not_true_eq_false, if_false]
  simp only [ne_eq] at tail
  split at tail
  · next short =>
      obtain ⟨expansion, expanded, same⟩ := Option.map_eq_some_iff.mp tail
      cases same
      have other : ¬RejectedHint (low.setWidth 16) := fun hint => accepted ⟨low, first, short, hint⟩
      rw [isaExpand] at expanded
      rw [if_pos short, rvDecompress_eq _ other, expanded]
  · next long =>
      obtain ⟨high, second, same⟩ := Option.map_eq_some_iff.mp tail
      cases same
      have loadsHigh : rvAccessVirt mc m h (s.pc + 2) 0 1 .insn =
          ⟨.ok, m, some high, [⟨s.pc + 2, bit 1, true⟩]⟩ :=
        rvAccessVirt_load state.ram state.free (by decide) second
      rw [if_neg long]
      simp only [loadsHigh, Option.getD_some, not_true_eq_false, if_false]

end Riscmulator
