import MyCpu.Core.PipelinedCpu
import MyCpu.Bus.Axi4Lite
import MyCpu.Lib.Clocked
import MyCpu.Bus.BusSwitch
import MyCpu.Bus.Top
import MyCpu.Bus.SequentialBus
import MyCpu.Verified.BusDelivery
import MyCpu.Verified.MemoryStage
import MyCpu.Isa.Rv32im
import MyCpu.Verified.System
import MyCpu.Verified.IssueOnce
import MyCpu.Verified.RedirectOnce
import MyCpu.Verified.StallFreeze
import MyCpu.Verified.TrapOnce
import MyCpu.Verified.AluSoundness
import MyCpu.Verified.ByteLanes
import MyCpu.Verified.CorrectionKept
import MyCpu.Verified.Backend
import MyCpu.Verified.IdStage
import MyCpu.Verified.Phases
import MyCpu.Verified.HeldForever
import MyCpu.Verified.FetchProgress
import MyCpu.Verified.PeriodicRun
import MyCpu.Verified.Refinement
import MyCpu.Verified.PreciseInterrupts
import MyCpu.Verified.BusAnswers
import MyCpu.Isa.Zicsr
import MyCpu.Software.TrapEntry
import MyCpu.Software.Startup
import MyCpu.Verified.StartupRun
import MyCpu.Lib.SerialLine
import MyCpu.Peripheral.Uart
import MyCpu.Verified.Transmitter
import MyCpu.Verified.UartTransmit
import MyCpu.Verified.Receiver
import MyCpu.Verified.SerialRoundTrip
import MyCpu.Verified.UartReceive
import MyCpu.Peripheral.Vga
import MyCpu.Software.VgaUpload
import MyCpu.Verified.VgaStore
import MyCpu.Verified.VgaDisplay
import MyCpu.Verified.CounterPair
import MyCpu.Verified.CsrRead
import MyCpu.Verified.FrontEnd
import MyCpu.Isa.ZicsrMachine
import MyCpu.Verified.CsrStage
import MyCpu.Verified.Supply
import MyCpu.Verified.CsrSequence
import MyCpu.Verified.ValidWords
import MyCpu.Verified.VgaStream
import MyCpu.Lib.RunLength
import MyCpu.Software.Nyancat
import MyCpu.Verified.CodecRoundTrip
import MyCpu.Verified.NyancatAnimation
import MyCpu.Software.UartTerminal
import MyCpu.Verified.WireFormat
import MyCpu.Software.Tetris
import MyCpu.Software.TetrisDraw
import MyCpu.Lib.FullRows
import MyCpu.Verified.TetrisPlay
import MyCpu.Verified.TetrisCells
import MyCpu.Verified.BranchOperands
import MyCpu.Verified.MulDiv
import MyCpu.Lib.DirectMapped
import MyCpu.Verified.BranchTargets
import MyCpu.Lib.BoundedStack
import MyCpu.Verified.ReturnStack
import MyCpu.Lib.Recency
import MyCpu.Verified.IndirectTargets
import MyCpu.Software.SimMemory
import MyCpu.Verified.StoreThenLoad
import MyCpu.Verified.MasterHandshakes
import MyCpu.Verified.TrapOrder
import MyCpu.Verified.UartInterrupt
import MyCpu.Verified.VblankInterrupt
import MyCpu.Lib.WrappingCounter
import MyCpu.Verified.EventCounters
import MyCpu.Verified.RetirementCount
import MyCpu.Verified.BranchCount
import MyCpu.Lib.Compaction
import MyCpu.Verified.LineClearing
import MyCpu.Verified.LevelLaw
import MyCpu.Lib.Highest
import MyCpu.Verified.GridInvariant
import MyCpu.Verified.Landing
import MyCpu.Lib.ShiftXor
import MyCpu.Verified.TetrisBag
import MyCpu.Lib.Numeral
import MyCpu.Software.Shell
import MyCpu.Verified.ShellNumbers
import MyCpu.Verified.ShellPerf
import MyCpu.Lib.PackedBytes
import MyCpu.Verified.ShellLine
import MyCpu.Verified.ShellWords
import MyCpu.Lib.Painting
import MyCpu.Software.TRex
import MyCpu.Verified.TRexRedraw
import MyCpu.Verified.ForwardProgress
import MyCpu.Bus.Simulation
import MyCpu.Verified.SimulatedRun
import MyCpu.Software.ShellCommands
import MyCpu.Verified.ShellSession
import MyCpu.Verified.ShellDialogue
import MyCpu.Verified.TetrisScreen
import MyCpu.Software.VgaWindow
import MyCpu.Verified.WindowPicture
import MyCpu.Software.TetrisInput
import MyCpu.Verified.TetrisKeys
import MyCpu.Verified.NyancatScreen
import MyCpu.Verified.TRexScore
import MyCpu.Lib.Bracketed
import MyCpu.Software.TetrisTerminal
import MyCpu.Verified.ScoreLine
