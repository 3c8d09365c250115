import Kubebpfbox.Lib.LastWrite
import Kubebpfbox.Pid2Pod.Equiv.Attribution
import Kubebpfbox.Pid2Pod.Equiv.Process

/-!
# Where the names in an event come from

An entry of `Pods` is a cell (`LastWrite`): a notification about a pod of this node writes or clears
the cell of its UID (`lookup_effect`).  So the names of an event are empty or those that the last
notification about the UID gave, of the notifications handled before `Start` read the record
(`Runs.named`).

The UID is that of the path of the cgroup, in which it has no dash.  So on a cluster whose UIDs have
the canonical form no event names a pod at all (`not_namedBy_of_canonical`).
-/

namespace Kubebpfbox.Pid2Pod

open Golang GoM Kubebpfbox.Core Informer LastWrite

variable {nodeName uid : GoString} {pod : Pod}

/-! ### The index in a run -/

/-- What a notification does to the entry of a UID. -/
def writes (nodeName uid : GoString) : Event Pod → Option (Option Pod)
  | .add newPod => if newPod.nodeName = nodeName ∧ newPod.uid = uid then some (some newPod) else none
  | .update _ newPod =>
    if newPod.nodeName = nodeName ∧ newPod.uid = uid then some (some newPod) else none
  | .delete oldPod => if oldPod.nodeName = nodeName ∧ oldPod.uid = uid then some none else none

theorem lookup_stored (nodeName uid : GoString) (m : GoMap GoString Pod) (newPod : Pod) :
    Finmap.lookup uid (if newPod.nodeName ≠ nodeName then m else m.insert newPod.uid newPod)
      = (if newPod.nodeName = nodeName ∧ newPod.uid = uid then some (some newPod) else none).getD
        (m.lookup uid) := by
  by_cases hlocal : newPod.nodeName = nodeName
  · rw [if_neg (not_not.mpr hlocal)]
    by_cases huid : newPod.uid = uid
    · rw [if_pos ⟨hlocal, huid⟩, ← huid, Finmap.lookup_insert, Option.getD_some]
    · rw [if_neg fun h => huid h.2, Finmap.lookup_insert_of_ne _ (Ne.symm huid), Option.getD_none]
  · rw [if_pos hlocal, if_neg fun h => hlocal h.1, Option.getD_none]

/-- **One notification and one entry.** -/
theorem lookup_effect (nodeName uid : GoString) (m : GoMap GoString Pod) (e : Event Pod) :
    (effect nodeName m e).lookup uid = (writes nodeName uid e).getD (m.lookup uid) := by
  cases e with
  | add newPod => exact lookup_stored nodeName uid m newPod
  | update _ newPod => exact lookup_stored nodeName uid m newPod
  | delete oldPod =>
    rw [effect, writes]
    by_cases hlocal : oldPod.nodeName = nodeName
    · rw [if_neg (not_not.mpr hlocal)]
      by_cases huid : oldPod.uid = uid
      · rw [if_pos ⟨hlocal, huid⟩, ← huid, Finmap.lookup_erase, Option.getD_some]
      · rw [if_neg fun h => huid h.2, Finmap.lookup_erase_ne (Ne.symm huid), Option.getD_none]
    · rw [if_pos hlocal, if_neg fun h => hlocal h.1, Option.getD_none]

/-- Only the pod itself is written, under its UID. -/
theorem writes_eq_some_some {e : Event Pod} (h : writes nodeName uid e = some (some pod)) :
    e.Begins pod ∧ pod.nodeName = nodeName ∧ pod.uid = uid := by
  cases e with
  | add newPod =>
    rw [writes] at h
    split_ifs at h with hpod
    cases h
    exact ⟨rfl, hpod⟩
  | update oldPod newPod =>
    rw [writes] at h
    split_ifs at h with hpod
    cases h
    exact ⟨rfl, hpod⟩
  | delete oldPod =>
    rw [writes] at h
    split_ifs at h with hpod
    cases h

namespace Process

variable {C R E : Type} {probe : Probe C R E} {acts : List (Action C E)} {s : Process E}

/-- **The index in a run** is made of the notifications alone. -/
theorem Runs.lookup_pods (h : Runs probe nodeName {} acts s) (uid : GoString) :
    s.pid2pod.pods.lookup uid = cell (writes nodeName uid) (notifications acts) := by
  induction h with
  | nil => exact Finmap.lookup_empty _
  | concat _ hstep ih =>
    rw [notifications, Machines.filterMap_concat]
    cases hstep with
    | notification hg =>
      rw [gives_handle.mp hg, Action.notification?, Option.toList_some, cell_concat,
        ← notifications, ← ih]
      exact lookup_effect nodeName uid _ _
    | _ =>
      rw [Action.notification?, Option.toList_none, List.append_nil, ← notifications, ← ih]

end Process

/-! ### The names -/

/-- What an event says about the pod; empty texts if nothing. -/
structure Names where
  nameSpace : GoString := []
  nodeName : GoString := []
  podName : GoString := []
  podUID : GoString := []
  containerID : GoString := []
  containerName : GoString := []
  deriving DecidableEq

/-- The names of a pod and one of its containers. -/
def Names.ofPod (pod : Pod) (containerId : GoString) (status : ContainerStatus) : Names where
  nameSpace := pod.nameSpace
  nodeName := pod.nodeName
  podName := pod.name
  podUID := pod.uid
  containerID := containerId
  containerName := status.name

/-- The tags that name the pod and the container, in the order in which they are set. -/
def Names.tagList (n : Names) : List (GoString × GoString) :=
  [(ascii "poduid", n.podUID), (ascii "podname", n.podName), (ascii "nodename", n.nodeName),
    (ascii "namespace", n.nameSpace), (ascii "containerid", n.containerID),
    (ascii "containername", n.containerName)]

/-- The tags have these names. -/
def Names.In (n : Names) (tags : GoMap GoString GoString) : Prop :=
  ∀ e ∈ n.tagList, tags.lookup e.1 = some e.2

theorem Names.In.podName {n : Names} {tags : GoMap GoString GoString} (h : n.In tags) :
    tags.lookup (ascii "podname") = some n.podName :=
  h (ascii "podname", n.podName) (List.mem_cons_of_mem _ (List.mem_cons_self ..))

/-- What the reader finds for a pid. -/
def namesOf (cgroup : UInt32 → Except GoString GoString) (p : Pid2Pod) (pid : UInt32) : Names :=
  match p.getPodInfoByPid cgroup pid with
  | .error _ => {}
  | .ok podInfo => {
      nameSpace := podInfo.nameSpace
      nodeName := podInfo.nodeName
      podName := podInfo.podName
      podUID := podInfo.podUID
      containerID := podInfo.containerID
      containerName := podInfo.containerName }

theorem namesOf_eq_ofPod {cgroup : UInt32 → Except GoString GoString} {p : Pid2Pod} {pid : UInt32}
    {podId containerId : GoString} {status : ContainerStatus}
    (hids : lookupIdByPid cgroup pid = .ok (podId, containerId))
    (hpod : p.pods.lookup podId = some pod)
    (hname : containerNameOf containerId pod.containerStatuses = status.name)
    (hne : status.name ≠ []) : namesOf cgroup p pid = Names.ofPod pod containerId status := by
  unfold namesOf getPodInfoByPid
  simp only [hids, hpod, hname, if_neg hne]
  rfl

/-- The name found belongs to a status with the ID. -/
theorem exists_status_of_containerNameOf {containerId : GoString} {statuses : List ContainerStatus}
    (h : containerNameOf containerId statuses ≠ []) :
    ∃ status ∈ statuses, status.containerID = containerId ∧
      status.name = containerNameOf containerId statuses := by
  unfold containerNameOf at h ⊢
  induction statuses using List.reverseRecOn with
  | nil => exact absurd rfl h
  | append_singleton statuses status ih =>
    rw [List.foldl_append, List.foldl_cons, List.foldl_nil] at h ⊢
    by_cases hid : status.containerID = containerId
    · exact ⟨status, List.mem_append_right _ (List.mem_singleton_self _), hid, (if_pos hid).symm⟩
    · rw [if_neg hid] at h ⊢
      obtain ⟨status', hmem, hstatus'⟩ := ih h
      exact ⟨status', List.mem_append_left _ hmem, hstatus'⟩

/-- The reader finds nothing, or a pod of the index under the UID of the path and one of its
containers. -/
theorem namesOf_cases (cgroup : UInt32 → Except GoString GoString) (p : Pid2Pod) (pid : UInt32) :
    namesOf cgroup p pid = {} ∨
    ∃ podId containerId pod status, lookupIdByPid cgroup pid = .ok (podId, containerId) ∧
      p.pods.lookup podId = some pod ∧ status ∈ pod.containerStatuses ∧
      status.containerID = containerId ∧ status.name ≠ [] ∧
      namesOf cgroup p pid = Names.ofPod pod containerId status := by
  unfold namesOf getPodInfoByPid
  cases hids : lookupIdByPid cgroup pid with
  | error err => exact Or.inl rfl
  | ok ids =>
    obtain ⟨podId, containerId⟩ := ids
    cases hpod : p.pods.lookup podId with
    | none =>
      simp only [hpod]
      exact Or.inl trivial
    | some pod =>
      by_cases hname : containerNameOf containerId pod.containerStatuses = []
      · simp only [hpod, hname, if_true]
        exact Or.inl trivial
      · obtain ⟨status, hmem, hid, hstatus⟩ := exists_status_of_containerNameOf hname
        refine Or.inr ⟨podId, containerId, pod, status, rfl, hpod, hmem, hid, ?_, ?_⟩
        · rw [hstatus]
          exact hname
        · simp only [hpod, hname, if_false, Names.ofPod, hstatus]

/-- The names are those of a pod that the last notification about the UID of the path stored. -/
structure NamedBy (nodeName : GoString) (events : List (Event Pod))
    (cgroup : UInt32 → Except GoString GoString) (pid : UInt32) (names : Names) (pod : Pod)
    (status : ContainerStatus) : Prop where
  stored : ∃ n, WrittenAt (writes nodeName pod.uid) events n pod
  on_node : pod.nodeName = nodeName
  status_mem : status ∈ pod.containerStatuses
  cgroup : lookupIdByPid cgroup pid = .ok (pod.uid, status.containerID)
  names_eq : names = Names.ofPod pod status.containerID status

section Runs

variable {C R E : Type} {probe : Probe C R E} {acts : List (Process.Action C E)} {s : Process E}
  {cgroup : UInt32 → Except GoString GoString} {pid : UInt32}

theorem namedBy_of_names (h : Process.Runs probe nodeName {} acts s)
    (hne : namesOf cgroup s.pid2pod pid ≠ {}) :
    ∃ pod status, NamedBy nodeName (Process.notifications acts) cgroup pid
      (namesOf cgroup s.pid2pod pid) pod status := by
  obtain hnil | ⟨podId, containerId, pod, status, hids, hpod, hmem, rfl, -, hnames⟩ :=
    namesOf_cases cgroup s.pid2pod pid
  · exact absurd hnil hne
  · rw [Process.Runs.lookup_pods h] at hpod
    obtain ⟨n, hwritten⟩ := cell_eq_some_iff.mp hpod
    obtain ⟨e, he, hval⟩ := hwritten.write
    obtain ⟨-, hnode, rfl⟩ := writes_eq_some_some hval
    exact ⟨pod, status, ⟨n, hwritten⟩, hnode, hmem, hids, hnames⟩

/-- Every pod that comes has a UID in the canonical form. -/
def AllCanonical (events : List (Event Pod)) : Prop :=
  ∀ e ∈ events, ∀ pod, e.Begins pod → ∃ u : CanonicalUid, pod.uid = u.uid

theorem not_namedBy_of_canonical {events : List (Event Pod)} {names : Names} {pod : Pod}
    {status : ContainerStatus} (hcanonical : AllCanonical events) :
    ¬ NamedBy nodeName events cgroup pid names pod status := by
  intro hnamed
  obtain ⟨n, hwritten⟩ := hnamed.stored
  obtain ⟨e, he, hval⟩ := hwritten.write
  obtain ⟨u, hu⟩ := hcanonical e (List.mem_of_getElem? he) pod (writes_eq_some_some hval).1
  apply dash_not_mem_of_lookupIdByPid hnamed.cgroup
  rw [hu]
  exact u.dash_mem_uid

variable {Fits : R → Prop} {eventOf : Proc → Pid2Pod → R → E} {names : E → Names}
  {pidOf : E → UInt32}

/-- **The names of an event** are empty, or those of a pod that the last notification about it
stored, of the notifications handled before `Start` read the record: event number `k` is made by
read number `k`, of record number `k`. -/
theorem Process.Runs.named (hdec : probe.Decodes Fits eventOf)
    (hnames : ∀ proc p r, names (eventOf proc p r)
      = namesOf proc.cgroup p (pidOf (eventOf proc p r)))
    (h : Process.Runs probe nodeName {} acts s) {k : ℕ} {e : E}
    (he : (s.gathered ++ s.sending)[k]? = some e) :
    ∃ pre post proc rawSample t r, acts = pre ++ .read proc t.pid2pod rawSample [e] :: post ∧
      (Process.reads pre).length = k ∧ Process.ReadsNext probe nodeName pre t r rawSample ∧
      (names e = {} ∨ ∃ pod status,
        NamedBy nodeName (Process.notifications pre) proc.cgroup (pidOf e) (names e) pod status) := by
  obtain ⟨⟨r, k'⟩, hr, pre, post, proc, rawSample, t, rfl, hk, hread, rfl⟩ :=
    Lists.exists_of_forall₂_of_getElem? (Process.Runs.made hdec h).1 he
  obtain ⟨_, -, hpair⟩ := Option.map_eq_some_iff.mp ((List.getElem?_zipIdx ..).symm.trans hr)
  have hk' : k = k' := (Nat.zero_add k).symm.trans (congrArg Prod.snd hpair)
  refine ⟨pre, post, proc, rawSample, t, r, rfl, hk.trans hk'.symm, hread, ?_⟩
  rw [hnames]
  by_cases hne : namesOf proc.cgroup t.pid2pod (pidOf (eventOf proc t.pid2pod r)) = {}
  · exact Or.inl hne
  · exact Or.inr (namedBy_of_names hread.runs hne)

end Runs

end Kubebpfbox.Pid2Pod
