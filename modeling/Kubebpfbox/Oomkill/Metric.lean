import Kubebpfbox.Metric
import Kubebpfbox.Oomkill.Ebpf

/-!
# The metrics of the OOM plugin (`plugins/oomkill/oomkill_metric.go`)
-/

namespace Kubebpfbox.Oomkill

open Golang

/-- `Event.CovertMetric`. -/
def Event.covertMetric (m : Event) : Metric :=
  ({ measurement := ascii "oomkill" } : Metric)
    |>.addTags "poduid" m.podUID
    |>.addTags "podname" m.podName
    |>.addTags "nodename" m.nodeName
    |>.addTags "namespace" m.nameSpace
    |>.addTags "containerid" m.containerID
    |>.addTags "containername" m.containerName
    |>.addTags "pid" (itoa m.pid.toNat)
    |>.addTags "comm" m.comm
    |>.addTags "triggerpid" (itoa m.triggerPid.toNat)
    |>.addTags "triggercomm" m.triggerComm
    |>.addTags "message" m.message
    |>.addField "pages" (.uint64 m.pages)

end Kubebpfbox.Oomkill
