import Kubebpfbox.Lib.Bytes
import Kubebpfbox.Lib.GoString
import Kubebpfbox.Lib.HashMap
import Kubebpfbox.Lib.Slots
import Kubebpfbox.Http.SkBuff
import Kubebpfbox.Http.SocketFilter
import Kubebpfbox.Http.Equiv.Segment
import Kubebpfbox.Http.Equiv.Matching
import Kubebpfbox.Http.Equiv.Trace
import Kubebpfbox.Http.Equiv.AddressFilter
import Kubebpfbox.Endpoint2Pod.Basic
import Kubebpfbox.Endpoint2Pod.Equiv.Handlers
import Kubebpfbox.Endpoint2Pod.Equiv.Providers
import Kubebpfbox.Lib.Layout
import Kubebpfbox.Http.HttpPacket
import Kubebpfbox.Http.Ebpf
import Kubebpfbox.Http.Equiv.FilterKey
import Kubebpfbox.Http.Equiv.FilterSet
import Kubebpfbox.Http.Startup
import Kubebpfbox.Http.Equiv.Startup
import Kubebpfbox.Http.Equiv.Record
import Kubebpfbox.Http.Gather
import Kubebpfbox.Http.Equiv.Gather
import Kubebpfbox.Lib.Regexp
import Kubebpfbox.Lib.Text
import Kubebpfbox.Pid2Pod.Basic
import Kubebpfbox.Pid2Pod.Equiv.Pattern
import Kubebpfbox.Pid2Pod.Equiv.Attribution
import Kubebpfbox.Http.Equiv.LoadUrl
import Kubebpfbox.Http.Equiv.Url
import Kubebpfbox.Http.Equiv.Headers
import Kubebpfbox.Http.Equiv.Duration
import Kubebpfbox.Http.Equiv.PerPod
import Kubebpfbox.Influxdb.Basic
import Kubebpfbox.Lib.Outbox
import Kubebpfbox.Influxdb.Equiv.Buffer
import Kubebpfbox.Influxdb.Equiv.Points
import Kubebpfbox.Http.Equiv.TrafficPoints
import Kubebpfbox.Endpoint2Pod.Equiv.Update
import Kubebpfbox.Pid2Pod.Equiv.Tracking
import Kubebpfbox.Http.Equiv.RedValues
import Kubebpfbox.Http.Equiv.Heads
import Kubebpfbox.Http.Equiv.FinalStatus
import Kubebpfbox.Pid2Pod.Equiv.Layouts
import Kubebpfbox.Endpoint2Pod.Equiv.Completion
import Kubebpfbox.K8s.Agent
import Kubebpfbox.K8s.Equiv.Tombstones
import Kubebpfbox.Oomkill.OomKillProcess
import Kubebpfbox.Oomkill.OomkillEvent
import Kubebpfbox.Oomkill.Ebpf
import Kubebpfbox.Oomkill.Equiv.Decode
import Kubebpfbox.Lib.Queues
import Kubebpfbox.Lib.LastWrite
import Kubebpfbox.Lib.Machine
import Kubebpfbox.Lib.Lists
import Kubebpfbox.Lib.Channel
import Kubebpfbox.Http.Process
import Kubebpfbox.Http.Equiv.History
import Kubebpfbox.Http.Equiv.Pipelining
import Kubebpfbox.Http.Equiv.Pipeline
import Kubebpfbox.Http.Equiv.WellFormed
import Kubebpfbox.Endpoint2Pod.Equiv.LastWriter
import Kubebpfbox.Http.Equiv.Provenance
import Kubebpfbox.Http.Equiv.FilterIp
import Kubebpfbox.Http.Equiv.Progress
import Kubebpfbox.Pid2Pod.Process
import Kubebpfbox.Pid2Pod.Equiv.Process
import Kubebpfbox.Pid2Pod.Equiv.Provenance
import Kubebpfbox.Oomkill.Process
import Kubebpfbox.Oomkill.Metric
import Kubebpfbox.Oomkill.Equiv.Delivery
import Kubebpfbox.Tcpsynbl.DoEntry
import Kubebpfbox.Tcpsynbl.TcpsynblEvent
import Kubebpfbox.Tcpsynbl.Ebpf
import Kubebpfbox.Tcpsynbl.Equiv.Delivery
import Kubebpfbox.Tcpsynbl.Equiv.Points
import Kubebpfbox.Oomkill.Equiv.Attribution
import Kubebpfbox.Tcpsynbl.Equiv.Attribution
import Kubebpfbox.Main.Basic
import Kubebpfbox.Main.Equiv.Parties
import Kubebpfbox.Main.Equiv.Delivery
import Kubebpfbox.Main.Equiv.Progress
import Kubebpfbox.Main.Equiv.Sources
import Kubebpfbox.Main.Equiv.Attribution
import Kubebpfbox.Main.Equiv.Completeness
