import SlakeHost.Lib.Memory
import SlakeHost.Lib.Slots
import SlakeHost.Lib.Text
import SlakeHost.Lib.Machine
import SlakeHost.Lib.Ledger
import SlakeHost.Lib.Schedule
import SlakeHost.Wire.Check
import SlakeHost.Wire.Graph
import SlakeHost.Wire.Compose
import SlakeHost.Wire.Emit
import SlakeHost.Abstract.Store
import SlakeHost.Properties.Invariant
import SlakeHost.Properties.FusedCheck
import SlakeHost.Properties.Emission
import SlakeHost.Properties.Bounds
import SlakeHost.Properties.ExactOnce
import SlakeHost.Properties.Readers
import SlakeHost.Properties.Refinement
import SlakeHost.Properties.Stages
import SlakeHost.Properties.Agreement
import SlakeHost.Properties.Reset
import SlakeHost.Spec.Emit
import SlakeHost.Subset.Units
import SlakeHost.Properties.Builds
import SlakeHost.Peer.HostTerm
import SlakeHost.Peer.HostFront
import SlakeHost.Peer.Grammar
import SlakeHost.Peer.HostGraph
import SlakeHost.Properties.ModuleOrder
import SlakeHost.Properties.Reading
import SlakeHost.Properties.LineReading
import SlakeHost.Properties.SourceFiles
import SlakeHost.Properties.SourceSets
import SlakeHost.Peer.HostKernelReduce
import SlakeHost.Peer.Evaluation
import SlakeHost.Properties.Reduction
import SlakeHost.Properties.MultImport
import SlakeHost.Peer.HostKernelStored
import SlakeHost.Peer.HostKernelBy
import SlakeHost.Peer.HostKernel
import SlakeHost.Peer.Typing
import SlakeHost.Properties.StoredTables
import SlakeHost.Properties.StoredProofs
import SlakeHost.Properties.KernelTyping
import SlakeHost.Properties.KernelFuel
import SlakeHost.Properties.KernelAnswers
import SlakeHost.Bench.Twins
import SlakeHost.Properties.Twins
import SlakeHost.Bench.Workloads
import SlakeHost.Properties.Workloads
import SlakeHost.Lib.Endian
import SlakeHost.Lib.X86
import SlakeHost.Lib.Elf
import SlakeHost.Peer.HostToolElf
import SlakeHost.Properties.ToolCode
import SlakeHost.Peer.SelfHostComplete
import SlakeHost.Properties.SelfHostMain
import SlakeHost.Properties.ToolElf
import SlakeHost.Lib.Parts
import SlakeHost.Properties.ToolChecks
import SlakeHost.Lib.Delimited
import SlakeHost.Properties.NativeBytes
