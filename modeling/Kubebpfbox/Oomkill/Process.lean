import Kubebpfbox.Oomkill.Ebpf
import Kubebpfbox.Pid2Pod.Process

/-!
# The OOM plugin as a whole (`ebpf/oomkill/oomkill.c`, `plugins/oomkill`)

The plugin is a `Probe` at the entry of `oom_kill_process`.
-/

namespace Kubebpfbox.Oomkill

open Golang Pid2Pod

/-- What the kernel program finds when it runs: the current task, the arguments of the kernel
function, and whether the ring buffer has room for one more record. -/
structure Hook where
  currentPidTgid : UInt64
  currentComm : Vector UInt8 taskCommLen
  oc : OomControl
  message : Option GoString
  ringRoom : Bool

/-- The record that a call puts into the ring buffer. -/
def Hook.record (c : Hook) : Option OomkillInfo :=
  if c.ringRoom then kprobeOomKillProcess c.currentPidTgid c.currentComm c.oc c.message else none

/-- The plugin. -/
def probe : Probe Hook OomkillInfo Event where
  record := Hook.record
  toBytes := OomkillInfo.toBytes
  startTurn proc p rawSample := startTurn proc.cgroup p rawSample

end Kubebpfbox.Oomkill
