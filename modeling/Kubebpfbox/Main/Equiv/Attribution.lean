import Kubebpfbox.Main.Equiv.Sources
import Kubebpfbox.Oomkill.Equiv.Attribution
import Kubebpfbox.Tcpsynbl.Equiv.Attribution

/-!
# Which pods the points name

The points of the OOM plugin and of the SYN backlog plugin have six tags that say which container
they are about.  `points_attributed`: either all six are empty, or they are those of the pod that
the last notification about its UID gave, of the notifications that were handled before `Start` read
the record of the point.  Point number `k` of a plugin is that of its record number `k`, and of its
read number `k` (`MakesPoint`).

`points_name_no_pod`: when all UIDs have the canonical form, all six are empty in every point of
every run.
-/

namespace Kubebpfbox.Main.Agent

open Golang Influxdb
open Pid2Pod (Proc Names NamedBy)
open Pid2Pod.Process (ReadsNext notifications reads)

variable {P : Type} [Inhabited P] {parseIP : GoString → Http.NetIP} {nodeName : GoString}
  {api : PointApi P} {view : P → Point} {s s' : Agent P}
  {act : Action P} {acts : List (Action P)}

/-! ### The notifications -/

/-- The notification, if one is handled. -/
def Action.pod? : Action P → Option (Informer.Event Core.Pod)
  | pod e => some e
  | _ => none

/-- The notifications of the pod controller, in order. -/
def podEvents (acts : List (Action P)) : List (Informer.Event Core.Pod) :=
  acts.filterMap Action.pod?

theorem Step.notifications_eq (h : Step parseIP nodeName api s act s') :
    notifications act.oomkill?.toList = act.pod?.toList ∧
      notifications act.tcpsynbl?.toList = act.pod?.toList := by
  cases h with
  | oomkill _ hact _ => exact ⟨List.filterMap_cons_none hact, rfl⟩
  | tcpsynbl _ hact _ => exact ⟨rfl, List.filterMap_cons_none hact⟩
  | _ => exact ⟨rfl, rfl⟩

/-- Both plugins see the notifications of the pod controller. -/
theorem Runs.notifications_eq (h : Runs parseIP nodeName api s acts s') :
    notifications (acts.filterMap Action.oomkill?) = podEvents acts ∧
      notifications (acts.filterMap Action.tcpsynbl?) = podEvents acts := by
  induction h with
  | nil => exact ⟨rfl, rfl⟩
  | @concat acts t t' act _ hstep ih =>
    have happend : ∀ {C E : Type} (l l' : List (Pid2Pod.Process.Action C E)),
        notifications (l ++ l') = notifications l ++ notifications l' :=
      fun _ _ => List.filterMap_append
    obtain ⟨hoomkill, htcpsynbl⟩ := hstep.notifications_eq
    unfold podEvents at ih ⊢
    rw [Machines.filterMap_concat, Machines.filterMap_concat, Machines.filterMap_concat, happend,
      happend, ih.1, ih.2, hoomkill, htcpsynbl]
    exact ⟨rfl, rfl⟩

/-! ### The names in a point -/

/-- After these steps the `Start` of a plugin reads its record number `k`, finds these files of
`/proc`, and makes the event of which the plugin makes this point. -/
inductive MakesPoint (nodeName : GoString) (pre : List (Action P)) (k : ℕ) (proc : Proc)
    (q : Point) : Action P → Prop where
  | oomkill {t : Pid2Pod.Process Oomkill.Event} {r : Oomkill.OomkillInfo} {rawSample : List UInt8}
      {e : Oomkill.Event} {round : Option (List Metric)}
      (hk : (reads (pre.filterMap Action.oomkill?)).length = k)
      (hread : ReadsNext Oomkill.probe nodeName (pre.filterMap Action.oomkill?) t r rawSample)
      (hq : q = Point.ofMetric e.covertMetric) :
      MakesPoint nodeName pre k proc q (.oomkill (.read proc t.pid2pod rawSample [e]) round)
  | tcpsynbl {t : Pid2Pod.Process Tcpsynbl.Event} {r : Tcpsynbl.TcpsynblInfo}
      {rawSample : List UInt8} {e : Tcpsynbl.Event} {round : Option (List Metric)}
      (hk : (reads (pre.filterMap Action.tcpsynbl?)).length = k)
      (hread : ReadsNext Tcpsynbl.probe nodeName (pre.filterMap Action.tcpsynbl?) t r rawSample)
      (hq : q = Point.ofMetric e.covertMetric) :
      MakesPoint nodeName pre k proc q (.tcpsynbl (.read proc t.pid2pod rawSample [e]) round)

/-- When `Start` read record number `k`, of which it made the point, it found no names, or those of a
pod that the last notification about the UID in the cgroup of the process gave. -/
def Named (nodeName : GoString) (acts : List (Action P)) (k : ℕ) (q : Point) (pid : UInt32)
    (names : Names) : Prop :=
  ∃ pre act post proc, acts = pre ++ act :: post ∧ MakesPoint nodeName pre k proc q act ∧
    (names = {} ∨ ∃ pod status,
      NamedBy nodeName (podEvents pre) proc.cgroup pid names pod status)

/-- What holds of each of the two plugins: `g` are its steps. -/
theorem Runs.named {C R E : Type} {probe : Pid2Pod.Probe C R E} {Fits : R → Prop}
    {eventOf : Proc → Pid2Pod → R → E} (names : E → Names) {pidOf : E → UInt32}
    {g : Action P → Option (Pid2Pod.Process.Action C E)} {x : Pid2Pod.Process E} {k : ℕ} {e : E}
    {q : Point} (hdec : probe.Decodes Fits eventOf)
    (hnames : ∀ proc p r, names (eventOf proc p r)
      = Pid2Pod.namesOf proc.cgroup p (pidOf (eventOf proc p r)))
    (hpods : ∀ pre t, Runs parseIP nodeName api {} pre t →
      notifications (pre.filterMap g) = podEvents pre)
    (hmakes : ∀ pre act proc rawSample t r, g act = some (.read proc t.pid2pod rawSample [e]) →
      (reads (pre.filterMap g)).length = k →
      ReadsNext probe nodeName (pre.filterMap g) t r rawSample →
      MakesPoint nodeName pre k proc q act)
    (h : Runs parseIP nodeName api {} acts s)
    (hrun : Pid2Pod.Process.Runs probe nodeName {} (acts.filterMap g) x)
    (he : x.gathered[k]? = some e) : Named nodeName acts k q (pidOf e) (names e) := by
  have hlt : k < x.gathered.length := (List.getElem?_eq_some_iff.mp he).1
  obtain ⟨pre, post, proc, rawSample, t, r, hacts, hk, hread, hnamed⟩ :=
    hrun.named hdec hnames ((List.getElem?_append_left hlt).trans he)
  obtain ⟨pre', act, post', rfl, rfl, hact⟩ := Machines.exists_of_filterMap_eq_append_cons hacts
  obtain ⟨u, u', hpre, -⟩ := Machines.Runs.split h
  rw [hpods pre' u hpre] at hnamed
  exact ⟨pre', act, post', proc, rfl, hmakes pre' act proc rawSample t r hact hk hread, hnamed⟩

theorem Runs.named_oomkill (h : Runs parseIP nodeName api {} acts s) {k : ℕ} {e : Oomkill.Event}
    (he : s.oomkill.gathered[k]? = some e) :
    Named nodeName acts k (Point.ofMetric e.covertMetric) e.pid e.names := by
  refine Runs.named Oomkill.Event.names Oomkill.decodes_probe
    (fun proc p _ => Oomkill.names_withPod proc.cgroup p rfl)
    (fun _ _ hpre => (Runs.notifications_eq hpre).1) ?_ h (Runs.oomkill h) he
  intro pre act proc rawSample t r hact hk hread
  cases act with
  | oomkill act' round =>
    cases hact
    exact .oomkill hk hread rfl
  | _ => cases hact

theorem Runs.named_tcpsynbl (h : Runs parseIP nodeName api {} acts s) {k : ℕ} {e : Tcpsynbl.Event}
    (he : s.tcpsynbl.gathered[k]? = some e) :
    Named nodeName acts k (Point.ofMetric e.covertMetric) e.pid e.names := by
  refine Runs.named Tcpsynbl.Event.names Tcpsynbl.decodes_probe
    (fun proc p info => Tcpsynbl.names_decodeMapItem proc p info.toTcpsynblEvent)
    (fun _ _ hpre => (Runs.notifications_eq hpre).2) ?_ h (Runs.tcpsynbl h) he
  intro pre act proc rawSample t r hact hk hread
  cases act with
  | tcpsynbl act' round =>
    cases hact
    exact .tcpsynbl hk hread rfl
  | _ => cases hact

/-- Point number `k` of its measurement: its tags tell a pid, and the names that `Start` found when
it read record number `k`. -/
structure Tells (nodeName : GoString) (acts : List (Action P)) (k : ℕ) (q : Point) (pid : UInt32)
    (names : Names) : Prop where
  names_in : names.In q.tags
  pid_eq : q.tags.lookup (ascii "pid") = some (itoa pid.toNat)
  named : Named nodeName acts k q pid names

/-- The two measurements whose points are about a process. -/
def ofProcess (name : GoString) : Prop := name = ascii "oomkill" ∨ name = ascii "tcpsynbl"

theorem tags_ofMetric (m : Metric) : (Point.ofMetric m).tags = m.tags := rfl

omit [Inhabited P] in
/-- What holds of each of the two plugins: the points are made of its first events. -/
theorem exists_tells {E : Type} {metricOf : E → Metric} {names : E → Names} {pidOf : E → UInt32}
    {events : List E} {n k : ℕ} {q : Point} (hnames : ∀ e, (names e).In (metricOf e).tags)
    (hpid : ∀ e, (metricOf e).tags.lookup (ascii "pid") = some (itoa (pidOf e).toNat))
    (hnamed : ∀ e, events[k]? = some e →
      Named nodeName acts k (Point.ofMetric (metricOf e)) (pidOf e) (names e))
    (hq : ((events.take n).map fun e => Point.ofMetric (metricOf e))[k]? = some q) :
    ∃ pid names, Tells nodeName acts k q pid names := by
  obtain ⟨e, he, rfl⟩ := Lists.exists_of_getElem?_map_take hq
  refine ⟨pidOf e, names e, ?_, ?_, hnamed e he⟩
  · rw [tags_ofMetric]
    exact hnames e
  · rw [tags_ofMetric]
    exact hpid e

theorem Runs.tells_oomkill (hapi : PointApi.Lawful api view)
    (h : Runs parseIP nodeName api {} acts s) {k : ℕ} {q : Point}
    (hq : (pointsOf view "oomkill" s)[k]? = some q) :
    ∃ pid names, Tells nodeName acts k q pid names := by
  obtain ⟨n, hpoints⟩ := Runs.pointsOf_oomkill hapi h
  rw [hpoints] at hq
  exact exists_tells Oomkill.names_in_tags Oomkill.lookup_pid
    (fun _ he => Runs.named_oomkill h he) hq

theorem Runs.tells_tcpsynbl (hapi : PointApi.Lawful api view)
    (h : Runs parseIP nodeName api {} acts s) {k : ℕ} {q : Point}
    (hq : (pointsOf view "tcpsynbl" s)[k]? = some q) :
    ∃ pid names, Tells nodeName acts k q pid names := by
  obtain ⟨n, hpoints⟩ := Runs.pointsOf_tcpsynbl hapi h
  rw [hpoints] at hq
  exact exists_tells Tcpsynbl.names_in_tags Tcpsynbl.lookup_pid
    (fun _ he => Runs.named_tcpsynbl h he) hq

/-- **Every point about a process** names no pod, or the one that the last notification about the
UID in its cgroup gave, of the notifications handled before `Start` read the record of the point:
point number `k` is made of record number `k`. -/
theorem points_attributed (hapi : PointApi.Lawful api view)
    (h : Runs parseIP nodeName api {} acts s) {name : String} (hname : ofProcess (ascii name))
    {k : ℕ} {q : Point} (hq : (pointsOf view name s)[k]? = some q) :
    ∃ pid names, Tells nodeName acts k q pid names := by
  unfold pointsOf at hq
  rcases hname with heq | heq
  · rw [heq] at hq
    exact Runs.tells_oomkill hapi h hq
  · rw [heq] at hq
    exact Runs.tells_tcpsynbl hapi h hq

omit [Inhabited P] in
theorem exists_getElem?_pointsOf {p : P} (hp : p ∈ s.points) {name : String}
    (heq : (view p).measurement = ascii name) :
    ∃ k : ℕ, (pointsOf view name s)[k]? = some (view p) := by
  have hmem : view p ∈ pointsOf view name s :=
    List.mem_filter.mpr ⟨List.mem_map_of_mem hp, decide_eq_true heq⟩
  exact List.mem_iff_getElem?.mp hmem

/-- **No point names a pod** when the UIDs of all pods have the canonical form: the cgroup has them
without their dashes. -/
theorem points_name_no_pod (hapi : PointApi.Lawful api view)
    (h : Runs parseIP nodeName api {} acts s)
    (hcanonical : Pid2Pod.AllCanonical (podEvents acts)) {p : P} (hp : p ∈ s.points)
    (hname : ofProcess (view p).measurement) :
    ({} : Names).In (view p).tags := by
  obtain ⟨k, pid, names, htells⟩ : ∃ k pid names, Tells nodeName acts k (view p) pid names := by
    rcases hname with heq | heq
    · obtain ⟨k, hk⟩ := exists_getElem?_pointsOf hp heq
      exact ⟨k, Runs.tells_oomkill hapi h hk⟩
    · obtain ⟨k, hk⟩ := exists_getElem?_pointsOf hp heq
      exact ⟨k, Runs.tells_tcpsynbl hapi h hk⟩
  obtain ⟨pre, act, post, proc, rfl, -, hnil | ⟨pod, status, hnamed⟩⟩ := htells.named
  · rw [← hnil]
    exact htells.names_in
  · refine absurd hnamed (Pid2Pod.not_namedBy_of_canonical fun e he => hcanonical e ?_)
    rw [podEvents, List.filterMap_append]
    exact List.mem_append_left _ he

section Sample

open GoM Pid2Pod

/-- The index with one pod. -/
def onePod (pod : Core.Pod) : Pid2Pod := ⟨(∅ : GoMap GoString Core.Pod).insert pod.uid pod⟩

/-- A pod comes, and then there is an overflow. -/
theorem exists_runs_pod_overflow (proc : Proc) (pod : Core.Pod) :
    ∃ acts s, Runs Http.parseIPv4 pod.nodeName plainApi {} acts s ∧
      podEvents acts = [.add pod] ∧
      s.points = [Point.ofMetric (overflowMetric proc (onePod pod))] := by
  obtain ⟨acts, s, h, -, hmetrics, hnone, -⟩ :=
    exists_runs_overflow Http.parseIPv4 pod.nodeName proc (onePod pod)
  have hadd : Gives (handle pod.nodeName (.add pod)) {} ⟨⟩ (onePod pod) :=
    gives_handle.mpr (by rw [effect, if_neg (not_not.mpr rfl)]; rfl)
  have hpod : Runs Http.parseIPv4 pod.nodeName plainApi {} [.pod (.add pod)]
      { pid2pod := onePod pod } := Machines.Runs.nil.concat (.pod hadd)
  have hevents : podEvents acts = [] := by
    rw [← (Runs.notifications_eq h).1, hnone]
    rfl
  have hrun := Machines.Runs.append hpod h
  refine ⟨_, s, hrun, ?_, ?_⟩
  · rw [podEvents, List.filterMap_append, ← podEvents, ← podEvents, hevents]
    rfl
  · have hpoints := Runs.points_eq lawful_plainApi hrun
    rw [List.filterMap_append, List.map_id] at hpoints
    rw [hpoints]
    exact congrArg (List.map Point.ofMetric) hmetrics

/-- The pod of the documentation, had it the UID and the container ID of the cgroup. -/
def pathStatus : Core.ContainerStatus := { docsStatus with containerID := docsCid }

def pathPod : Core.Pod :=
  { docsPod with uid := docsUid.sliceUid, containerStatuses := [pathStatus] }

theorem containerNameOf_singleton (containerId : GoString) (status : Core.ContainerStatus) :
    containerNameOf containerId [status]
      = if status.containerID = containerId then status.name else [] := rfl

theorem namesOf_pathPod :
    namesOf docsCgroup (onePod pathPod) 14880 = Names.ofPod pathPod docsCid pathStatus := by
  have hfits : docsFile.Fits := ⟨by simp [docsFile], by decide +kernel⟩
  have hids : lookupIdByPid docsCgroup 14880 = .ok (docsUid.sliceUid, docsCid) :=
    docsFile.lookupIdByPid_contents docsRunning.idBytes hfits rfl
  have hpod : (onePod pathPod).pods.lookup docsUid.sliceUid = some pathPod :=
    Finmap.lookup_insert _
  have hname : containerNameOf docsCid pathPod.containerStatuses = pathStatus.name := by
    rw [show pathPod.containerStatuses = [pathStatus] from rfl, containerNameOf_singleton]
    exact if_pos rfl
  exact namesOf_eq_ofPod hids hpod hname (by decide)

/-- The files of the process. -/
def docsProc : Proc := ⟨docsCgroup, fun _ => .ok []⟩

theorem lookup_podname_overflow :
    (overflowMetric docsProc (onePod pathPod)).tags.lookup (ascii "podname")
      = some (ascii "app-0") := by
  have hin := (Tcpsynbl.names_in_tags (Tcpsynbl.decodeMapItem docsProc (onePod pathPod)
    fullInfo.toTcpsynblEvent)).podName
  rw [Tcpsynbl.names_decodeMapItem, (Tcpsynbl.decodeMapItem_numbers ..).1] at hin
  have hnames : namesOf docsProc.cgroup (onePod pathPod) fullInfo.toTcpsynblEvent.pid
      = Names.ofPod pathPod docsCid pathStatus := namesOf_pathPod
  rw [hnames] at hin
  exact hin

theorem points_attributed_of_one : ∃ acts s q pid names,
    Runs Http.parseIPv4 (ascii "node1") plainApi {} acts s ∧ pointsOf id "tcpsynbl" s = [q] ∧
      Tells (ascii "node1") acts 0 q pid names ∧ names ≠ {} := by
  obtain ⟨acts, s, h, -, hpoints⟩ := exists_runs_pod_overflow docsProc pathPod
  have hone : pointsOf id "tcpsynbl" s
      = [Point.ofMetric (overflowMetric docsProc (onePod pathPod))] := by
    rw [pointsOf, hpoints]
    exact List.filter_cons_of_pos (decide_eq_true rfl)
  obtain ⟨pid, names, htells⟩ := points_attributed lawful_plainApi h (Or.inr rfl)
    (show (pointsOf id "tcpsynbl" s)[0]? = some _ by rw [hone]; rfl)
  refine ⟨acts, s, _, pid, names, h, hone, htells, ?_⟩
  rintro rfl
  -- the tag of the pod name is not empty
  have hempty := htells.names_in.podName
  rw [tags_ofMetric, lookup_podname_overflow] at hempty
  cases hempty

theorem points_name_no_pod_of_one : ∃ acts s p,
    Runs Http.parseIPv4 (ascii "node1") plainApi {} acts s ∧
      podEvents acts = [.add docsPod] ∧ s.points = [p] ∧ ({} : Names).In p.tags := by
  obtain ⟨acts, s, h, hevents, hpoints⟩ :=
    exists_runs_pod_overflow docsProc docsPod
  refine ⟨acts, s, _, h, hevents, hpoints, points_name_no_pod lawful_plainApi h ?_
    (by rw [hpoints]; exact List.mem_singleton_self _) (Or.inr rfl)⟩
  rw [hevents]
  intro ev hev pod hpod
  rw [List.mem_singleton.mp hev] at hpod
  exact ⟨docsUid, congrArg Core.Pod.uid hpod⟩

end Sample

end Kubebpfbox.Main.Agent
