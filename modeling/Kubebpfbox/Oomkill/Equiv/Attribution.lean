import Kubebpfbox.Oomkill.Equiv.Delivery
import Kubebpfbox.Oomkill.Metric
import Kubebpfbox.Pid2Pod.Equiv.Provenance

/-!
# The names in an OOM event

They are what the reader of the index finds for the pid (`names_withPod`), and the metric has them in
its tags (`names_in_tags`).
-/

namespace Kubebpfbox.Oomkill

open Golang Pid2Pod

/-- What an event says about the pod. -/
def Event.names (m : Event) : Names where
  nameSpace := m.nameSpace
  nodeName := m.nodeName
  podName := m.podName
  podUID := m.podUID
  containerID := m.containerID
  containerName := m.containerName

theorem names_withPod (cgroup : UInt32 → Except GoString GoString) (p : Pid2Pod) {e : Event}
    (he : e.names = {}) :
    (withPod cgroup p e).names = namesOf cgroup p (withPod cgroup p e).pid := by
  rw [(withPod_numbers cgroup p e).2.1]
  unfold withPod namesOf
  cases p.getPodInfoByPid cgroup e.pid with
  | error err => exact he
  | ok podInfo => rfl

/-- All tags of an event, in the order in which they are set. -/
def Event.tagList (m : Event) : List (GoString × GoString) :=
  m.names.tagList ++ [(ascii "pid", itoa m.pid.toNat), (ascii "comm", m.comm),
    (ascii "triggerpid", itoa m.triggerPid.toNat), (ascii "triggercomm", m.triggerComm),
    (ascii "message", m.message)]

theorem lookup_tags {m : Event} {e : GoString × GoString}
    (he : e ∈ m.tagList) : m.covertMetric.tags.lookup e.1 = some e.2 := by
  have hnodup : (m.tagList.map Prod.fst).Nodup := by
    show [ascii "poduid", ascii "podname", ascii "nodename", ascii "namespace",
      ascii "containerid", ascii "containername", ascii "pid", ascii "comm", ascii "triggerpid",
      ascii "triggercomm", ascii "message"].Nodup
    decide
  have htags : m.covertMetric.tags = GoMap.insertAll ∅ m.tagList := rfl
  rw [htags]
  exact GoMap.lookup_insertAll_of_nodup hnodup he

theorem names_in_tags (m : Event) :
    m.names.In m.covertMetric.tags :=
  fun _ he => lookup_tags (List.mem_append_left _ he)

theorem lookup_pid (m : Event) :
    m.covertMetric.tags.lookup (ascii "pid") = some (itoa m.pid.toNat) := by
  have hmem : (ascii "pid", itoa m.pid.toNat) ∈ m.tagList :=
    List.mem_append_right _ (List.mem_cons_self ..)
  exact lookup_tags hmem

end Kubebpfbox.Oomkill
