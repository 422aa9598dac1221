import GreenRio.Acceptance
import GreenRio.Addresses
import GreenRio.Barrier
import GreenRio.BranchHistory
import GreenRio.BranchTargets
import GreenRio.ClintBus
import GreenRio.Commit
import GreenRio.CsrWriteRead
import GreenRio.EbiRoundTrip
import GreenRio.Endless
import GreenRio.Expanded
import GreenRio.Faults
import GreenRio.FenceOrder
import GreenRio.FetchFaults
import GreenRio.FetchedWords
import GreenRio.Gateway
import GreenRio.IllegalAccess
import GreenRio.IoTransfer
import GreenRio.Legality
import GreenRio.LineReads
import GreenRio.Liveness
import GreenRio.M2wBridge
import GreenRio.MulDivAnswers
import GreenRio.OldestTwo
import GreenRio.OnePortQueue
import GreenRio.Operands
import GreenRio.PendingWork
import GreenRio.PlicMemory
import GreenRio.PmpCheck
import GreenRio.Posted
import GreenRio.Privilege
import GreenRio.Processor
import GreenRio.Provenance
import GreenRio.Ptw
import GreenRio.Readiness
import GreenRio.RetiredCount
import GreenRio.Retirement
import GreenRio.ReturnAddress
import GreenRio.Routing
import GreenRio.Shootdown
import GreenRio.ShortDivision
import GreenRio.TestIoRoundTrip
import GreenRio.Trace
import GreenRio.Transfers
import GreenRio.Translation
import GreenRio.TrapEntry
import GreenRio.TrapReturn
import GreenRio.TrapVector
import GreenRio.TwoPortQueue
import GreenRio.UartTolerance
import GreenRio.UniqueMatch
import GreenRio.WbArbiter
