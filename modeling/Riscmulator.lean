import Riscmulator.Lib.BitField
import Riscmulator.Lib.Transition
import Riscmulator.Cpu
import Riscmulator.Csr
import Riscmulator.CsrWrite
import Riscmulator.Pmp
import Riscmulator.Fpu
import Riscmulator.Machine
import Riscmulator.Privileged
import Riscmulator.InterruptEnable
import Riscmulator.Paging
import Riscmulator.Frames
import Riscmulator.BusFrames
import Riscmulator.Insn
import Riscmulator.Base
import Riscmulator.Atomics
import Riscmulator.Float
import Riscmulator.Decompress
import Riscmulator.Step
import Riscmulator.Device.Plic
import Riscmulator.Device.Clint
import Riscmulator.Device.PlicClaims
import Riscmulator.Lib.Traced
import Riscmulator.Device.PlicBounds
import Riscmulator.Device.PlicGateway
import Riscmulator.Device.IrqLines
import Riscmulator.Device.Timer
import Riscmulator.RamBounds
import Riscmulator.Effects
import Riscmulator.Runs
import Riscmulator.HostMemory
import Riscmulator.Overrun
import Riscmulator.PrivLevels
import Riscmulator.Exclusive
import Riscmulator.LrSc
import Riscmulator.TlbFills
import Riscmulator.TlbAccess
import Riscmulator.PageTables
import Riscmulator.TlbAddress
import Riscmulator.TlbHistory
import Riscmulator.Sfence
import Riscmulator.TlbRepr
import Riscmulator.BareTlb
import Riscmulator.RawLookup
import Riscmulator.PageFaults
import Riscmulator.PmpGuard
import Riscmulator.PmpAccess
import Riscmulator.MemPrivilege
import Riscmulator.PmpLocks
import Riscmulator.TrapReturn
import Riscmulator.Isolation
import Riscmulator.InterruptChecks
import Riscmulator.Lib.Napot
import Riscmulator.PmpRegions
import Riscmulator.PmpSpec
import Riscmulator.Lib.Rv64
import Riscmulator.Lib.Rvc
import Riscmulator.StrictDecode
import Riscmulator.Expansion
import Riscmulator.Compressed
import Riscmulator.Outcomes
import Riscmulator.PreciseTraps
import Riscmulator.PcAlign
import Riscmulator.FpDirty
import Riscmulator.FpTracking
import Riscmulator.Lib.Attempts
import Riscmulator.DeviceLog
import Riscmulator.StoreParts
import Riscmulator.StoreCuts
import Riscmulator.StoreAtomic
import Riscmulator.Lib.Words
import Riscmulator.Lib.Rvm
import Riscmulator.Muldiv
import Riscmulator.Lib.Alu
import Riscmulator.BaseAlu
import Riscmulator.EncoderFields
import Riscmulator.StatusWrite
import Riscmulator.Zicsr
import Riscmulator.InterruptRouting
import Riscmulator.Device.MtimeWrite
import Riscmulator.Lib.Rva
import Riscmulator.Lib.Hart
import Riscmulator.Lib.Program
import Riscmulator.Lib.Bytes
import Riscmulator.RamBytes
import Riscmulator.AmoSemantics
import Riscmulator.IsaAccess
import Riscmulator.IsaSteps
import Riscmulator.Lib.Interleave
import Riscmulator.IsaHarts
import Riscmulator.MainLoop
import Riscmulator.HelloWorld
import Riscmulator.Lockstep
import Riscmulator.BusLockstep
import Riscmulator.PmpAgree
import Riscmulator.PmpConfinement
import Riscmulator.PmpIntegrity
import Riscmulator.AddressSpace
import Riscmulator.PageIsolation
import Riscmulator.PageConfinement
import Riscmulator.MachineGate
import Riscmulator.FpFlags
import Riscmulator.CsrRestore
import Riscmulator.DeviceSim
import Riscmulator.MmioMap
import Riscmulator.BusSteps
import Riscmulator.Device.Board
import Riscmulator.Device.Delivery
import Riscmulator.Device.ClintWrites
import Riscmulator.PageCross
import Riscmulator.Lib.Overlay
import Riscmulator.ByteParts
import Riscmulator.ByteAccess
import Riscmulator.Lib.Ieee
import Riscmulator.Lib.Rvfd
import Riscmulator.FpPatterns
import Riscmulator.FpMinMax
import Riscmulator.FpNan
import Riscmulator.FpBoxing
import Riscmulator.FpLegality
