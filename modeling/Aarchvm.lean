import Aarchvm.Lib.WordInterval
import Aarchvm.Lib.Run
import Aarchvm.Lib.Least
import Aarchvm.Lib.Stack
import Aarchvm.Lib.Bytes
import Aarchvm.Lib.Reader
import Aarchvm.Lib.Epoch
import Aarchvm.Lib.Pattern
import Aarchvm.Lib.Fields
import Aarchvm.Lib.Decoders
import Aarchvm.Lib.AddWithCarry
import Aarchvm.Lib.Stopping
import Aarchvm.Lib.Rounding
import Aarchvm.Lib.IntegerRounding
import Aarchvm.Lib.Dyadic
import Aarchvm.Lib.Positional
import Aarchvm.Lib.CountedLoop
import Aarchvm.Lib.Links
import Aarchvm.Lib.Ring
import Aarchvm.Lib.Fifo
import Aarchvm.Lib.Lfsr
import Aarchvm.Word
import Aarchvm.A64.Integer
import Aarchvm.A64.Float
import Aarchvm.A64.Loads
import Aarchvm.Bus.Ram
import Aarchvm.Bus.Map
import Aarchvm.Bus.Bounds
import Aarchvm.Bus.FastPath
import Aarchvm.Bus.Dirty
import Aarchvm.Bus.DirtySpans
import Aarchvm.Bus.RamBytes
import Aarchvm.Gic.State
import Aarchvm.Gic.Mmio
import Aarchvm.Gic.Bits
import Aarchvm.Gic.Registers
import Aarchvm.Gic.Select
import Aarchvm.Gic.Priority
import Aarchvm.Gic.Bitmap
import Aarchvm.Gic.Line
import Aarchvm.Gic.Level
import Aarchvm.Gic.Ownership
import Aarchvm.Gic.Epoch
import Aarchvm.Gic.Wire
import Aarchvm.Virtio.Queue
import Aarchvm.Virtio.Blk
import Aarchvm.Virtio.BlkImage
import Aarchvm.Virtio.Net
import Aarchvm.Virtio.Chain
import Aarchvm.Virtio.UsedLen
import Aarchvm.Virtio.GuestMemory
import Aarchvm.Virtio.QueueRun
import Aarchvm.Virtio.RingMemory
import Aarchvm.Virtio.Loopback
import Aarchvm.Virtio.Snapshot
import Aarchvm.Virtio.Restore
import Aarchvm.Virtio.HeaderWidth
import Aarchvm.Cpu.SystemRegisters
import Aarchvm.Cpu.Tlb
import Aarchvm.Cpu.State
import Aarchvm.Cpu.Exception
import Aarchvm.Cpu.Icc
import Aarchvm.Cpu.Cluster
import Aarchvm.Cpu.Delivery
import Aarchvm.Cpu.Handout
import Aarchvm.Cpu.IrqQuery
import Aarchvm.Cpu.View
import Aarchvm.Cpu.Drain
import Aarchvm.Cpu.Walk
import Aarchvm.Cpu.Translate
import Aarchvm.Cpu.WalkPage
import Aarchvm.Cpu.TlbFill
import Aarchvm.Cpu.TlbSound
import Aarchvm.Cpu.Tlbi
import Aarchvm.Cpu.WalkReads
import Aarchvm.Cpu.WalkFaults
import Aarchvm.Cpu.Memory
import Aarchvm.Cpu.Access
import Aarchvm.Cpu.Monitor
import Aarchvm.Cpu.Smp
import Aarchvm.Cpu.Exclusive
import Aarchvm.Cpu.Wakeup
import Aarchvm.Cpu.SpBanks
import Aarchvm.Cpu.Operands
import Aarchvm.Cpu.Vector
import Aarchvm.Cpu.Flags
import Aarchvm.Cpu.DataProcessing
import Aarchvm.Cpu.Predecode
import Aarchvm.Cpu.Effects
import Aarchvm.Cpu.Conditions
import Aarchvm.Cpu.Bitmask
import Aarchvm.Cpu.AddSub
import Aarchvm.Cpu.Crc
import Aarchvm.Cpu.Arithmetic
import Aarchvm.Cpu.BitOrder
import Aarchvm.Cpu.Extended
import Aarchvm.Cpu.Select
import Aarchvm.Cpu.Sources
import Aarchvm.Cpu.RegisterForms
import Aarchvm.Cpu.Saturate
import Aarchvm.Cpu.BigUInt
import Aarchvm.Cpu.BigUIntExact
import Aarchvm.Cpu.FpConvert
import Aarchvm.Cpu.FpRounding
import Aarchvm.Cpu.FpExact
import Aarchvm.Cpu.FpRoundToOdd
import Aarchvm.Cpu.FpRoundTrip
import Aarchvm.Cpu.FpToInt
import Aarchvm.Cpu.FpTiny
import Aarchvm.Cpu.FpTinyExact
import Aarchvm.Cpu.FpInteger
import Aarchvm.Cpu.LoadStore
import Aarchvm.Cpu.LoadStoreBodies
import Aarchvm.Cpu.LoadStoreForms
import Aarchvm.Cpu.ExclusiveDecode
import Aarchvm.Cpu.SocPort
import Aarchvm.Cpu.Atomic
import Aarchvm.Cpu.StoreValue
import Aarchvm.Cpu.Step
import Aarchvm.Cpu.SoftwareStep
import Aarchvm.Cpu.SpAlignment
import Aarchvm.Cpu.LoadStoreSteps
import Aarchvm.Cpu.PreciseFaults
import Aarchvm.Cpu.Branch
import Aarchvm.Cpu.DecodeCache
import Aarchvm.Cpu.PredecodedAccess
import Aarchvm.Cpu.PredecodedStep
import Aarchvm.Soc.Timer
import Aarchvm.Soc.Schedule
import Aarchvm.Soc.Idle
import Aarchvm.Soc.Quiet
import Aarchvm.Soc.TimerRun
import Aarchvm.Soc.TimerExact
import Aarchvm.Soc.Run
import Aarchvm.Soc.Lines
import Aarchvm.Soc.Deadline
import Aarchvm.Soc.Mirror
import Aarchvm.Soc.Window
