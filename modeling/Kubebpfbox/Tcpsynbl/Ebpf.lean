import Kubebpfbox.Metric
import Kubebpfbox.Pid2Pod.Process
import Kubebpfbox.Tcpsynbl.TcpsynblEvent

/-!
# The SYN backlog plugin (`plugins/tcpsynbl`)

`decodeMapItem` is `DecodeMapItem`, from a record to an `Event`, `startTurn` one turn of the loop of
`Start`, and `covertMetric` what the loop of `Gather` sends.  The error `DecodeMapItem` returns is
always nil.
-/

namespace Kubebpfbox.Tcpsynbl

open Golang Pid2Pod

/-- `tcpsynbl.Event`. -/
structure Event where
  podName : GoString := []
  nodeName : GoString := []
  nameSpace : GoString := []
  podUID : GoString := []
  containerID : GoString := []
  containerName : GoString := []
  pid : UInt32
  comm : GoString
  maxAckBacklog : UInt32
  ackBacklog : UInt32
  deriving DecidableEq

/-- `getCommByPid`: the whole file, with the newline at its end. -/
def getCommByPid (proc : Proc) (pid : UInt32) : GoString :=
  match proc.comm pid with
  | .error _ => []
  | .ok comm => comm

/-- `DecodeMapItem`. -/
def decodeMapItem (proc : Proc) (p : Pid2Pod) (event : TcpsynblEvent) : Event :=
  let e : Event := {
    pid := event.pid
    comm := getCommByPid proc event.pid
    maxAckBacklog := event.maxAckBacklog
    ackBacklog := event.ackBacklog }
  match p.getPodInfoByPid proc.cgroup e.pid with
  | .error _ => e
  | .ok podInfo => { e with
      nameSpace := podInfo.nameSpace
      nodeName := podInfo.nodeName
      podName := podInfo.podName
      podUID := podInfo.podUID
      containerID := podInfo.containerID
      containerName := podInfo.containerName }

/-- The loop of `Start` for one record; the state holds what went into the channel.  A record that
is too short is logged. -/
def startTurn (proc : Proc) (p : Pid2Pod) (rawSample : List UInt8) : GoM (List Event) PUnit :=
  match TcpsynblEvent.read rawSample with
  | none => pure ⟨⟩
  | some event => modify fun ch => ch ++ [decodeMapItem proc p event]

/-- `Event.CovertMetric`; the two fields are stored as texts. -/
def Event.covertMetric (m : Event) : Metric :=
  ({ measurement := ascii "tcpsynbl" } : Metric)
    |>.addTags "poduid" m.podUID
    |>.addTags "podname" m.podName
    |>.addTags "nodename" m.nodeName
    |>.addTags "namespace" m.nameSpace
    |>.addTags "containerid" m.containerID
    |>.addTags "containername" m.containerName
    |>.addTags "pid" (itoa m.pid.toNat)
    |>.addTags "comm" m.comm
    |>.addField "maxackbacklog" (.string (itoa m.maxAckBacklog.toNat))
    |>.addField "ackbacklog" (.string (itoa m.ackBacklog.toNat))

/-- A call of one of the two kernel functions, with what the reads through its socket find and
whether the ring buffer has room for one more record. -/
inductive Hook where
  | tcpV4SynRecvSock (sk : Sock) (ringRoom : Bool)
  | tcpV6SynRecvSock (sk : Sock) (ringRoom : Bool)

/-- The record that a call puts into the ring buffer. -/
def Hook.record : Hook → Option TcpsynblInfo
  | tcpV4SynRecvSock sk ringRoom => if ringRoom then doEntry sk else none
  | tcpV6SynRecvSock sk ringRoom => if ringRoom then doEntryV6 sk else none

/-- The socket of the call. -/
def Hook.sock : Hook → Sock
  | tcpV4SynRecvSock sk _ => sk
  | tcpV6SynRecvSock sk _ => sk

/-- The ring buffer has room at the call. -/
def Hook.ringRoom : Hook → Bool
  | tcpV4SynRecvSock _ ringRoom => ringRoom
  | tcpV6SynRecvSock _ ringRoom => ringRoom

/-- The plugin. -/
def probe : Probe Hook TcpsynblInfo Event where
  record := Hook.record
  toBytes := TcpsynblInfo.toBytes
  startTurn := startTurn

end Kubebpfbox.Tcpsynbl
