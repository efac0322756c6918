import NetworkAccess.Connections.Attend
import NetworkAccess.Connections.ClientTable
import NetworkAccess.Connections.Hub
import NetworkAccess.Connections.HubService
import NetworkAccess.Connections.Isolation
import NetworkAccess.Connections.LoopInvariant
import NetworkAccess.Connections.PollSet
import NetworkAccess.Connections.Reads
import NetworkAccess.Connections.Replay
import NetworkAccess.Connections.ServeCases
import NetworkAccess.Connections.Sessions
import NetworkAccess.Connections.Sockets
import NetworkAccess.Connections.WriteOrder
import NetworkAccess.Correctness.ArgumentVector
import NetworkAccess.Correctness.BinaryReplies
import NetworkAccess.Correctness.BlockAccounting
import NetworkAccess.Correctness.BlockSize
import NetworkAccess.Correctness.ClientReplies
import NetworkAccess.Correctness.ClientService
import NetworkAccess.Correctness.CommandBuffer
import NetworkAccess.Correctness.CoreRead
import NetworkAccess.Correctness.CoresVerdict
import NetworkAccess.Correctness.Delivery
import NetworkAccess.Correctness.ErrorReplies
import NetworkAccess.Correctness.ExactDispatch
import NetworkAccess.Correctness.HashReplies
import NetworkAccess.Correctness.HubRefinement
import NetworkAccess.Correctness.Independence
import NetworkAccess.Correctness.Interviews
import NetworkAccess.Correctness.ListReplies
import NetworkAccess.Correctness.LoadedFiles
import NetworkAccess.Correctness.MemoryWrites
import NetworkAccess.Correctness.PipelinedReplies
import NetworkAccess.Correctness.PortRange
import NetworkAccess.Correctness.RangeLists
import NetworkAccess.Correctness.RangeRelease
import NetworkAccess.Correctness.ReadBoundaries
import NetworkAccess.Correctness.Rejection
import NetworkAccess.Correctness.ReplyFraming
import NetworkAccess.Correctness.ReplyPanics
import NetworkAccess.Correctness.Representation
import NetworkAccess.Correctness.RequestAnswers
import NetworkAccess.Correctness.RequestReplies
import NetworkAccess.Correctness.Resynchronisation
import NetworkAccess.Correctness.RoundTrip
import NetworkAccess.Correctness.SavestateWalk
import NetworkAccess.Correctness.SessionIsolation
import NetworkAccess.Correctness.SharedDestination
import NetworkAccess.Correctness.SharedState
import NetworkAccess.Correctness.SlotReuse
import NetworkAccess.Correctness.SocketLedger
import NetworkAccess.Correctness.TableAgreement
import NetworkAccess.Correctness.Termination
import NetworkAccess.Correctness.WholeReplies
import NetworkAccess.Correctness.WriteAuthority
import NetworkAccess.Dummy.Answers
import NetworkAccess.Dummy.Emulator
import NetworkAccess.Dummy.Memory
import NetworkAccess.Dummy.Replies
import NetworkAccess.Dummy.Savestate
import NetworkAccess.Library.Buffered
import NetworkAccess.Library.Dialogue
import NetworkAccess.Library.Ensures
import NetworkAccess.Library.Fronts
import NetworkAccess.Library.Heap
import NetworkAccess.Library.LastWrite
import NetworkAccess.Library.Ledger
import NetworkAccess.Library.Lockstep
import NetworkAccess.Library.LossyText
import NetworkAccess.Library.Numerals
import NetworkAccess.Library.PrefixFree
import NetworkAccess.Library.Projection
import NetworkAccess.Library.Reaction
import NetworkAccess.Library.Recorded
import NetworkAccess.Library.Segments
import NetworkAccess.Library.ShortWrites
import NetworkAccess.Library.Stdio
import NetworkAccess.Library.SwapRemove
import NetworkAccess.Library.Sweep
import NetworkAccess.Library.WhileLoop
import NetworkAccess.Parser.ByteCases
import NetworkAccess.Parser.ByteParser
import NetworkAccess.Parser.ClientView
import NetworkAccess.Parser.GivenLines
import NetworkAccess.Parser.IterationCases
import NetworkAccess.Parser.Iterations
import NetworkAccess.Parser.Lockstep
import NetworkAccess.Parser.Observations
import NetworkAccess.Parser.Phases
import NetworkAccess.Parser.ReaderInvariant
import NetworkAccess.Parser.Refusals
import NetworkAccess.Parser.Runs
import NetworkAccess.Parser.Scripted
import NetworkAccess.Parser.Simulation
import NetworkAccess.Parser.StepInvariants
import NetworkAccess.Protocol.Defines
import NetworkAccess.Server.Arguments
import NetworkAccess.Server.BlockOrder
import NetworkAccess.Server.Client
import NetworkAccess.Server.Commands
import NetworkAccess.Server.MemoryArguments
import NetworkAccess.Server.PollLoop
import NetworkAccess.Server.Preprocess
import NetworkAccess.Server.Replies
import NetworkAccess.Server.Startup
import NetworkAccess.Server.TokenStores
import NetworkAccess.Validator.BufReader
import NetworkAccess.Validator.Checker
import NetworkAccess.Validator.CompleteReplies
import NetworkAccess.Validator.Conduct
import NetworkAccess.Validator.CoresList
import NetworkAccess.Validator.DecodedText
import NetworkAccess.Validator.Decoding
import NetworkAccess.Validator.GetReply
import NetworkAccess.Validator.Interview
import NetworkAccess.Validator.Judgements
import NetworkAccess.Validator.Lines
import NetworkAccess.Validator.Main
import NetworkAccess.Validator.Questions
import NetworkAccess.Validator.ReadCounts
import NetworkAccess.Validator.Reading
import NetworkAccess.Validator.Requests
import NetworkAccess.Validator.Sections
import NetworkAccess.Validator.Session
