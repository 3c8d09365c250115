import Kubebpfbox.Pid2Pod.Equiv.Provenance
import Kubebpfbox.Tcpsynbl.Equiv.Delivery
import Kubebpfbox.Tcpsynbl.Equiv.Points

/-!
# The names in a SYN backlog event

They are what the reader of the index finds for the pid (`names_decodeMapItem`), and the metric has
them in its tags (`names_in_tags`).
-/

namespace Kubebpfbox.Tcpsynbl

open Golang Pid2Pod

/-- What an event says about the pod. -/
def Event.names (m : Event) : Names where
  nameSpace := m.nameSpace
  nodeName := m.nodeName
  podName := m.podName
  podUID := m.podUID
  containerID := m.containerID
  containerName := m.containerName

theorem names_decodeMapItem (proc : Proc) (p : Pid2Pod) (event : TcpsynblEvent) :
    (decodeMapItem proc p event).names
      = namesOf proc.cgroup p (decodeMapItem proc p event).pid := by
  rw [(decodeMapItem_numbers proc p event).1]
  unfold decodeMapItem namesOf
  dsimp only
  cases p.getPodInfoByPid proc.cgroup event.pid with
  | error err => rfl
  | ok podInfo => rfl

theorem lookup_tags {m : Event} {e : GoString × GoString} (he : e ∈ m.tagList) :
    m.covertMetric.tags.lookup e.1 = some e.2 := by
  rw [tags_covertMetric]
  exact GoMap.lookup_insertAll_of_nodup (nodup_tagList m) he

theorem tagList_eq (m : Event) : m.tagList = m.names.tagList
    ++ [(ascii "pid", itoa m.pid.toNat), (ascii "comm", m.comm)] := rfl

theorem names_in_tags (m : Event) : m.names.In m.covertMetric.tags := by
  intro e he
  apply lookup_tags
  rw [tagList_eq]
  exact List.mem_append_left _ he

theorem lookup_pid (m : Event) :
    m.covertMetric.tags.lookup (ascii "pid") = some (itoa m.pid.toNat) := by
  have hmem : (ascii "pid", itoa m.pid.toNat) ∈ m.tagList := by
    rw [tagList_eq]
    exact List.mem_append_right _ (List.mem_cons_self ..)
  exact lookup_tags hmem

end Kubebpfbox.Tcpsynbl
