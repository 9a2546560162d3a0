import OeAware.Schemes.Container
import OeAware.Schemes.Run
import OeAware.Schemes.Fair
import OeAware.Schemes.Windows
import OeAware.Schemes.Words
import OeAware.Schemes.Shares
import OeAware.Schemes.Wire
import OeAware.Schemes.Pointers
import OeAware.Schemes.Journal
import OeAware.Schemes.Loans
import OeAware.Schemes.Loops
import OeAware.Schemes.Pools
import OeAware.Schemes.TimedQueue
import OeAware.Schemes.Broker
import OeAware.Schemes.ByteMarks
import OeAware.Schemes.Cadence
import OeAware.Schemes.Chunks
import OeAware.Common.Topic
import OeAware.Common.Numbers
import OeAware.Common.Serialize
import OeAware.Common.Message
import OeAware.Common.Decoding
import OeAware.Common.Register
import OeAware.Data.Readers
import OeAware.Data.Plain
import OeAware.Data.Pmu
import OeAware.Data.Lists
import OeAware.Schemes.Deltas
import OeAware.Collect.NetInterface
import OeAware.Collect.CommandBase
import OeAware.Collect.CommandTables
import OeAware.Collect.KernelConfig
import OeAware.Collect.Pipelines
import OeAware.Collect.EnvInfo
import OeAware.Collect.ThreadCollector
import OeAware.Collect.ThreadLists
import OeAware.Analysis.Shared
import OeAware.Collect.DockerAdapt
import OeAware.Analysis.TableViews
import OeAware.Analysis.XcallView
import OeAware.Analysis.NumaView
import OeAware.Analysis.NetHirqView
import OeAware.Analysis.SmcDView
import OeAware.Analysis.Isolation
import OeAware.Analysis.Hwprobe
import OeAware.Analysis.Publishing
import OeAware.Tune.ClusterAffinity
import OeAware.Tune.Picking
import OeAware.Tune.Clusters
import OeAware.Tune.Scheduling
import OeAware.Tune.Calls
import OeAware.Tune.CpuLists
import OeAware.Tune.Effects
import OeAware.Tune.Lending
import OeAware.Tune.Matching
import OeAware.Tune.Migrating
import OeAware.Tune.IrqFrontEnd
import OeAware.Tune.Places
import OeAware.Tune.Recovering
import OeAware.Tune.Taking
import OeAware.Tune.Topology
import OeAware.Manager.State
import OeAware.Manager.Handler
import OeAware.Manager.Plugins
import OeAware.Manager.Effects
import OeAware.Manager.Outcomes
import OeAware.Manager.Sweep
import OeAware.Manager.Machine
import OeAware.Manager.Store
import OeAware.Manager.Views
import OeAware.Manager.Queue
import OeAware.Manager.Clock
import OeAware.Manager.Periods
import OeAware.Manager.Topics
import OeAware.Manager.Opening
import OeAware.Manager.Refusing
import OeAware.Manager.Unsubscribing
import OeAware.Manager.Removing
import OeAware.Manager.Closing
import OeAware.Manager.Alternating
import OeAware.Manager.Events
import OeAware.Manager.Keys
import OeAware.Manager.Ticks
import OeAware.Common.Yaml
import OeAware.Manager.EnableList
import OeAware.Tune.RealtimeConfig
import OeAware.Tune.RealtimeSwitches
import OeAware.Tune.CpuRanges
import OeAware.Tune.RealtimeProcs
import OeAware.Tune.KernelParams
import OeAware.Tune.Realtime
import OeAware.Tune.RealtimeCycles
import OeAware.Protocol.Stream
import OeAware.Protocol.Reading
import OeAware.Protocol.Reads
import OeAware.Protocol.Framing
import OeAware.Protocol.Timeouts
import OeAware.Protocol.Server
import OeAware.Protocol.Sending
import OeAware.Protocol.Requests
import OeAware.System.Threads
import OeAware.System.Guarding
import OeAware.System.Delivery
import OeAware.System.Histories
import OeAware.System.Callbacks
import OeAware.System.Codecs
import OeAware.System.Pairing
import OeAware.System.Parameters
import OeAware.System.Answering
import OeAware.System.Results
import OeAware.System.Names
import OeAware.System.Undecoded
import OeAware.Analysis.Collectors
import OeAware.System.Owners
import OeAware.Sdk.Client
import OeAware.Sdk.Replies
import OeAware.Sdk.Sessions
import OeAware.Tune.LoadBased
import OeAware.Tune.LoadShares
import OeAware.Tune.LoadTasks
import OeAware.Tune.BinaryElf
import OeAware.Tune.BinaryTune
import OeAware.Tune.BinaryMasks
import OeAware.Tune.BinaryRestore
import OeAware.Analysis.Rejected
import OeAware.Tune.XcallTune
import OeAware.Tune.ZbbTune
import OeAware.Tune.SmcCounts
import OeAware.Tune.SmcPorts
import OeAware.Tune.MultiNetPath
import OeAware.Common.Extract
import OeAware.Tune.DynamicSmtTune
import OeAware.Schemes.Restore
import OeAware.Tune.CoordinationBurst
import OeAware.Tune.CpuBurst
import OeAware.Tune.PreloadTune
import OeAware.Tune.SeepTune
import OeAware.Collect.PmuCollectors
import OeAware.Tune.SmcTune
import OeAware.System.CpuNodes
import OeAware.Tune.HardIrq
import OeAware.Schemes.Ledger
import OeAware.Analysis.Rounds
import OeAware.Analysis.RoundSums
import OeAware.Tune.UnixBenchTune
import OeAware.Collect.NetFlowKernel
import OeAware.Collect.NetFlowControl
import OeAware.Schemes.Settings
import OeAware.Analysis.AnalysisConfig
import OeAware.Collect.PmuTopics
