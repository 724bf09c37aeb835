import KonaSoon.Lib.Outcome
import KonaSoon.Lib.Sequence
import KonaSoon.Lib.Rlp
import KonaSoon.Lib.Bytes
import KonaSoon.Lib.KeyedMap
import KonaSoon.Lib.OrderedMap
import KonaSoon.Mpt.Node
import KonaSoon.Mpt.Canonical
import KonaSoon.Mpt.Partial
import KonaSoon.Mpt.Insert
import KonaSoon.Mpt.Delete
import KonaSoon.Mpt.Encoding
import KonaSoon.Mpt.Codec
import KonaSoon.Mpt.Commitment
import KonaSoon.Mpt.History
import KonaSoon.Mpt.Refinement
import KonaSoon.Primitives.Account
import KonaSoon.Primitives.Blocks
import KonaSoon.Programs.Instruction
import KonaSoon.Programs.BridgeInstruction
import KonaSoon.Programs.L1BlockInfo
import KonaSoon.Primitives.NativeTx
import KonaSoon.Primitives.Labels
import KonaSoon.Primitives.Deposit
import KonaSoon.Derive.Batch
import KonaSoon.Derive.Pipeline
import KonaSoon.Derive.BatchQueue
import KonaSoon.Derive.Attributes
import KonaSoon.Derive.Rules
import KonaSoon.Derive.Accepted
import KonaSoon.Derive.Forgery
import KonaSoon.State.TrieDB
import KonaSoon.State.Updates
import KonaSoon.State.Runs
import KonaSoon.State.Builders
import KonaSoon.State.Reads
import KonaSoon.Svm.Accounts
import KonaSoon.Svm.Executor
import KonaSoon.Svm.Atomicity
import KonaSoon.Svm.Payer
import KonaSoon.Svm.Fees
import KonaSoon.Preimage.Alignment
import KonaSoon.Preimage.Caching
import KonaSoon.Derive.BankSize
import KonaSoon.Derive.Commitments
import KonaSoon.Derive.Delivery
import KonaSoon.Derive.ChannelReader
import KonaSoon.Derive.Stability
import KonaSoon.Derive.Selection
import KonaSoon.Derive.L1View
import KonaSoon.Derive.Driver
import KonaSoon.Derive.Recovery
import KonaSoon.Derive.Epochs
import KonaSoon.Da.Arrival
import KonaSoon.Lib.Merkle
import KonaSoon.Svm.BlockhashQueue
import KonaSoon.Svm.Entries
import KonaSoon.Svm.Binding
import KonaSoon.Derive.BatcherAddress
import KonaSoon.Lib.Abi
import KonaSoon.Programs.Pda
import KonaSoon.Programs.BridgeState
import KonaSoon.Programs.BridgeProcessor
import KonaSoon.Programs.Withdrawals
import KonaSoon.Programs.Solvency
import KonaSoon.Derive.BankQueue
import KonaSoon.Derive.BankService
import KonaSoon.Primitives.DepositLogs
import KonaSoon.Primitives.Aliases
import KonaSoon.Derive.AttributesOrder
import KonaSoon.Derive.SourceHashes
import KonaSoon.Derive.BatchValidator
import KonaSoon.Derive.BatchStream
import KonaSoon.Mpt.DecodeBounds
import KonaSoon.Lib.KeyOrder
import KonaSoon.Mpt.OrderedTrie
import KonaSoon.Mpt.ListWalker
import KonaSoon.Mpt.Failures
import KonaSoon.Da.Frames
import KonaSoon.Da.Readiness
import KonaSoon.Derive.SingleExact
import KonaSoon.Derive.Expansion
import KonaSoon.Derive.SpanDerivation
import KonaSoon.Derive.Expandable
import KonaSoon.Derive.SpanArithmetic
import KonaSoon.Primitives.DepositReads
import KonaSoon.Derive.SpanBuilder
import KonaSoon.Derive.SpanColumns
import KonaSoon.Derive.SpanRoundTrip
import KonaSoon.Derive.BitMaps
import KonaSoon.Driver.Cursor
import KonaSoon.Derive.ConfirmedBlocks
import KonaSoon.Svm.RawBlocks
import KonaSoon.Svm.PostedBlocks
import KonaSoon.Programs.InstructionRoundTrip
import KonaSoon.Derive.DepositRange
import KonaSoon.Lib.InPlace
import KonaSoon.Derive.ConfigUpdates
import KonaSoon.State.FailedBlocks
import KonaSoon.Svm.FailedFetches
import KonaSoon.Svm.Leaders
import KonaSoon.State.OverlayReads
import KonaSoon.Lib.Calls
import KonaSoon.Lib.Hex
import KonaSoon.Preimage.Hints
import KonaSoon.Host.Backend
import KonaSoon.Host.Sessions
import KonaSoon.Host.SingleChain
import KonaSoon.Host.Offline
import KonaSoon.Client.L1Provider
import KonaSoon.Client.L1Walk
import KonaSoon.Client.L1Lists
import KonaSoon.Driver.Core
import KonaSoon.Derive.FrameQueue
import KonaSoon.Da.Assembly
import KonaSoon.Derive.ChannelProvider
import KonaSoon.Derive.ChannelReaderStage
