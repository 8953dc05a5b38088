import Rex.Data.Machine
import Rex.Data.Ledger
import Rex.Data.Window
import Rex.Data.Text
import Rex.Data.LittleEndian
import Rex.Data.Procedure
import Rex.Data.Effect
import Rex.Data.Bytes
import Rex.Data.Bitset
import Rex.Data.OnesComplement
import Rex.Data.Shares
import Rex.Data.Interleaving
import Rex.Data.HashTable
import Rex.Data.ElementTable
import Rex.Data.Calls
import Rex.Data.BubbleSort
import Rex.Data.BinarySearch
import Rex.Panic.CleanupEntries
import Rex.Runtime.Cpu
import Rex.Runtime.Termination
import Rex.Runtime.Resources
import Rex.Runtime.Release
import Rex.Packet.HeaderView
import Rex.Packet.Alignment
import Rex.Packet.Context
import Rex.Packet.Program
import Rex.Packet.Checksum
import Rex.Log.LogBuf
import Rex.Map.RingBufEntry
import Rex.Librex.Elf
import Rex.Librex.Object
import Rex.Librex.Sections
import Rex.Librex.Readable
import Rex.Librex.Load
import Rex.Librex.Parsing
import Rex.Librex.Accounting
import Rex.Librex.Ownership
import Rex.Librex.Robust
import Rex.Librex.MapLayout
import Rex.Librex.MapTrip
import Rex.Map.Helpers
import Rex.Bmc.Cache
import Rex.Bmc.Rx
import Rex.Bmc.Request
import Rex.Bmc.Reply
import Rex.Bmc.Get
import Rex.Bmc.Filter
import Rex.Bmc.Tx
import Rex.Bmc.Update
import Rex.Bmc.History
import Rex.Bmc.Freshness
import Rex.Bmc.Records
import Rex.Bmc.Faithful
import Rex.Bmc.Transparent
import Rex.Bmc.Client
import Rex.Bmc.KeyLoop
import Rex.Bmc.ReplyFrame
import Rex.Bmc.Invalidate
import Rex.Bmc.KeyHash
import Rex.Bmc.Staged
import Rex.Bmc.Locks
import Rex.Bmc.Ready
import Rex.Bmc.Concurrent
import Rex.Bmc.Statistics
import Rex.Benchmark.RunBench
import Rex.Electrode.Common
import Rex.Electrode.Paxos
import Rex.Electrode.Prepare
import Rex.Electrode.Position
import Rex.Electrode.Stored
import Rex.Electrode.Trip
import Rex.Electrode.Broadcast
import Rex.Electrode.Quorum
import Rex.Electrode.Chain
import Rex.Electrode.Range
import Rex.Electrode.Racing
import Rex.Syscount.Trace
import Rex.Syscount.Tally
import Rex.Syscount.Report
import Rex.Syscount.Accesses
import Rex.Syscount.Walk
import Rex.TraceEvent.Symbols
import Rex.TraceEvent.Sample
import Rex.TraceEvent.Accesses
import Rex.TraceEvent.Drain
