import Kubebpfbox.Oomkill.OomkillEvent
import Kubebpfbox.Pid2Pod.Basic

/-!
# The loader of the OOM plugin (`plugins/oomkill/ebpf.go`)

`decodeMapItem` is `DecodeMapItem`, from a record to an `Event`, and `startTurn` one turn of the
loop of `Start`.  The error `DecodeMapItem` returns is always nil; what it can do besides is panic.
-/

namespace Kubebpfbox.Oomkill

open Golang

/-- `oomkill.Event`. -/
structure Event where
  podName : GoString := []
  nodeName : GoString := []
  nameSpace : GoString := []
  podUID : GoString := []
  containerID : GoString := []
  containerName : GoString := []
  pid : UInt32
  comm : GoString
  triggerPid : UInt32
  triggerComm : GoString
  message : GoString
  pages : UInt64
  deriving DecidableEq

/-- `s[:i]` of an array; a bound that is negative or too large panics. -/
def sliceTo {n : ℕ} (s : Vector UInt8 n) (i : ℤ) : Except Panic GoString :=
  if 0 ≤ i ∧ i ≤ n then .ok (s.toList.take i.toNat) else .error .indexOutOfRange

/-- `DecodeMapItem`. -/
def decodeMapItem (cgroup : UInt32 → Except GoString GoString) (p : Pid2Pod)
    (event : OomkillEvent) : Except Panic Event := do
  let triggerComm ← sliceTo event.fcomm (indexByte event.fcomm.toList 0)
  let comm ← sliceTo event.tcomm (indexByte event.tcomm.toList 0)
  let message ← sliceTo event.message (indexByte event.message.toList 0)
  let e : Event := {
    triggerPid := event.fpid
    triggerComm := if triggerComm = [] then ascii "unknown" else triggerComm
    pid := event.tpid
    comm := if comm = [] then ascii "unknown" else comm
    pages := event.pages
    message := if message = [] then ascii "Out of memory" else message }
  match p.getPodInfoByPid cgroup e.pid with
  | .error _ => return e
  | .ok podInfo =>
    return { e with
      nameSpace := podInfo.nameSpace
      nodeName := podInfo.nodeName
      podName := podInfo.podName
      podUID := podInfo.podUID
      containerID := podInfo.containerID
      containerName := podInfo.containerName }

/-- The loop of `Start` for one record; the state holds what went into the channel.  A record that
is too short is logged. -/
def startTurn (cgroup : UInt32 → Except GoString GoString) (p : Pid2Pod) (rawSample : List UInt8) :
    GoM (List Event) PUnit := do
  match OomkillEvent.read rawSample with
  | none => return
  | some event =>
    let oomkill ← GoM.eval (decodeMapItem cgroup p event)
    modify fun ch => ch ++ [oomkill]

end Kubebpfbox.Oomkill
