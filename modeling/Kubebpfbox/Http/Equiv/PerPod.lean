import Kubebpfbox.Http.Equiv.Gather

/-!
# Pods of the same name

A pod is named by its name space and its name, but `redMetric` has the name alone for its key.  Pods
of one name in two name spaces share an entry, which goes by the name space of the first record.

`perPod_iff` says when the metrics that are sent are those of single pods: in every run, exactly
when no window holds records of two pods of the same name.
-/

namespace Kubebpfbox.Http

open Golang Timed

/-- The pod of a record: its name space and its name. -/
def Traffic.pod (m : Traffic) : GoString × GoString := (m.nameSpace, m.podName)

/-- The metric of the entry has the tags of the pod. -/
def RED.Tags (v : RED) (p : GoString × GoString) : Prop :=
  v.covertMetric.tags.lookup (ascii "namespace") = some p.1 ∧
    v.covertMetric.tags.lookup (ascii "podname") = some p.2

instance (v : RED) (p : GoString × GoString) : Decidable (v.Tags p) :=
  inferInstanceAs (Decidable (_ ∧ _))

theorem RED.tags_iff {v : RED} {p : GoString × GoString} :
    v.Tags p ↔ v.nameSpace = p.1 ∧ v.podName = p.2 := by
  have hns : v.covertMetric.tags.lookup (ascii "namespace") = some v.nameSpace := by
    show Finmap.lookup (ascii "namespace") (Finmap.insert (ascii "servicename") _ _) = _
    rw [Finmap.lookup_insert_of_ne _ (by decide)]
    exact Finmap.lookup_insert _
  have hpod : v.covertMetric.tags.lookup (ascii "podname") = some v.podName := by
    show Finmap.lookup (ascii "podname") (Finmap.insert (ascii "servicename") _
      (Finmap.insert (ascii "namespace") _ (Finmap.insert (ascii "nodename") _ _))) = _
    rw [Finmap.lookup_insert_of_ne _ (by decide), Finmap.lookup_insert_of_ne _ (by decide),
      Finmap.lookup_insert_of_ne _ (by decide)]
    exact Finmap.lookup_insert _
  rw [RED.Tags, hns, hpod, Option.some.injEq, Option.some.injEq]

namespace Gather

/-- The metrics sent for the window `w` are those of single pods: one for every pod of a record,
with the counts of that pod's records, and no others. -/
structure PerPod (w : List Traffic) (vs : List RED) : Prop where
  one : ∀ p ∈ w.map Traffic.pod, ∃ v, vs.filter (RED.Tags · p) = [v] ∧
    v.requestCount = (ofKey Traffic.pod p w).length ∧
    v.errCount = (ofKey Traffic.pod p w).countP fun m => 499 < (atoi m.code).1
  only : ∀ v ∈ vs, ∃ p ∈ w.map Traffic.pod, v.Tags p

/-- No two pods of the window have the same name. -/
def NamesPods (w : List Traffic) : Prop :=
  ∀ m₁ ∈ w, ∀ m₂ ∈ w, m₁.podName = m₂.podName → m₁.nameSpace = m₂.nameSpace

instance (w : List Traffic) : Decidable (NamesPods w) :=
  inferInstanceAs (Decidable (∀ m₁ ∈ w, ∀ m₂ ∈ w, _ → _))

/-! ### One tick -/

section Tick

variable {w : List Traffic} {g g' : Gather} {vs : List RED}

/-- A metric goes by the names of a record it counts. -/
theorem exists_record_of_sent (h : Aggregates w g) (hstep : Step g .tick g')
    (hsent : g'.sent = g.sent ++ vs.map .red) :
    ∀ v ∈ vs, ∃ m ∈ w, v.nameSpace = m.nameSpace ∧ v.podName = m.podName := by
  intro v hv
  obtain ⟨v', hv', rfl⟩ := tally_of_sent h hstep hsent v hv
  obtain ⟨m, hhead, hid⟩ := identifies_of_tally hv'
  exact ⟨m, (mem_ofKey.mp (List.mem_of_head? hhead)).1, hid.nameSpace, hid.podName⟩

/-- Of two metrics no two go by the same pod name. -/
theorem Reports.eq_of_podName (h : Reports w vs) {v v' : RED} (hv : v ∈ vs) (hv' : v' ∈ vs)
    (hname : v.podName = v'.podName) : v = v' :=
  List.inj_on_of_nodup_map h.nodup hv hv' hname

/-- The metrics with the tags of a pod, when one of them has. -/
theorem Reports.filter_tags (h : Reports w vs) {v : RED} (hv : v ∈ vs) {p : GoString × GoString}
    (htags : v.Tags p) : vs.filter (RED.Tags · p) = [v] := by
  have hnodup : vs.Nodup := List.Nodup.of_map _ h.nodup
  have hmem : ∀ v', v' ∈ vs.filter (RED.Tags · p) ↔ v' = v := by
    intro v'
    rw [List.mem_filter, decide_eq_true_eq]
    constructor
    · rintro ⟨hv', htags'⟩
      rw [RED.tags_iff] at htags htags'
      exact h.eq_of_podName hv' hv (htags'.2.trans htags.2.symm)
    · rintro rfl
      exact ⟨hv, htags⟩
  exact List.perm_singleton.mp
    ((List.perm_ext_iff_of_nodup (hnodup.filter _) (List.nodup_singleton v)).mpr
      fun v' => (hmem v').trans List.mem_singleton.symm)

/-- A pod of the window has a metric that goes by its names. -/
theorem PerPod.exists_mem (hper : PerPod w vs) {m : Traffic} (hm : m ∈ w) :
    ∃ v ∈ vs, v.nameSpace = m.nameSpace ∧ v.podName = m.podName := by
  obtain ⟨v, hv, -⟩ := hper.one m.pod (List.mem_map_of_mem hm)
  have hmem : v ∈ vs.filter (RED.Tags · m.pod) := by
    rw [hv]
    exact List.mem_singleton_self v
  rw [List.mem_filter, decide_eq_true_eq, RED.tags_iff] at hmem
  exact ⟨v, hmem⟩

/-- Two pods of one name would have a metric each, and these go by one pod name. -/
theorem PerPod.namesPods (hper : PerPod w vs) (hreports : Reports w vs) : NamesPods w := by
  intro m₁ hm₁ m₂ hm₂ hname
  obtain ⟨v₁, hin₁, hns₁, hpod₁⟩ := hper.exists_mem hm₁
  obtain ⟨v₂, hin₂, hns₂, hpod₂⟩ := hper.exists_mem hm₂
  have heq : v₁ = v₂ :=
    hreports.eq_of_podName hin₁ hin₂ (hpod₁.trans (Eq.trans hname hpod₂.symm))
  calc m₁.nameSpace = v₁.nameSpace := hns₁.symm
    _ = v₂.nameSpace := by rw [heq]
    _ = m₂.nameSpace := hns₂

/-- Where the names tell the pods apart, the records of a pod name are those of the pod. -/
theorem NamesPods.ofKey_pod (hnames : NamesPods w) {m : Traffic} (hm : m ∈ w) :
    ofKey Traffic.podName m.podName w = ofKey Traffic.pod m.pod w := by
  refine ofKey_congr fun a ha => ?_
  rw [Traffic.pod, Traffic.pod, Prod.mk.injEq]
  exact ⟨fun heq => ⟨hnames a ha m hm heq, heq⟩, And.right⟩

/-- One tick: the metrics are those of single pods exactly when no two pods have the same name. -/
theorem perPod_tick_iff (h : Aggregates w g) (hstep : Step g .tick g')
    (hsent : g'.sent = g.sent ++ vs.map .red) : PerPod w vs ↔ NamesPods w := by
  have hrecord := exists_record_of_sent h hstep hsent
  obtain ⟨vs', hsent', -, hreports⟩ := step_tick h hstep
  obtain rfl : vs = vs' := eq_of_sent_eq (hsent.symm.trans hsent')
  refine ⟨fun hper => hper.namesPods hreports, fun hnames => ⟨fun p hp => ?_, fun v hv => ?_⟩⟩
  · obtain ⟨m, hm, rfl⟩ := List.mem_map.mp hp
    obtain ⟨v, hv, hname⟩ := List.mem_map.mp
      ((hreports.mem_iff m.podName).mpr (List.mem_map_of_mem hm))
    -- the metric of the pod's name goes by the name space of a record with that name
    obtain ⟨m', hm', hns', hpod'⟩ := hrecord v hv
    have hns : v.nameSpace = m.nameSpace :=
      hns'.trans (hnames m' hm' m hm (hpod'.symm.trans hname))
    have htally := hreports.tallies v hv
    rw [hname, hnames.ofKey_pod hm] at htally
    exact ⟨v, hreports.filter_tags hv (RED.tags_iff.mpr ⟨hns, hname⟩), htally.requestCount,
      htally.errCount⟩
  · obtain ⟨m, hm, hns, hpod⟩ := hrecord v hv
    exact ⟨m.pod, List.mem_map_of_mem hm, RED.tags_iff.mpr ⟨hns, hpod⟩⟩

end Tick

/-! ### Whole runs -/

/-- **RED metrics are those of single pods** at every tick of every run over the records and ticks
`l`, exactly when no window of `l` holds records of two pods of the same name. -/
theorem perPod_iff (l : List (Timed Traffic)) :
    (∀ l' g g', l' ++ [.tick] <+: l → Runs l' g → Step g .tick g' →
      ∃ vs, g'.sent = g.sent ++ vs.map .red ∧ PerPod (window l') vs) ↔
    ∀ l', l' ++ [.tick] <+: l → NamesPods (window l') :=
  forall_ticks_iff fun _ _ _ _ _ hagg hstep hsent => perPod_tick_iff hagg hstep hsent

/-- The pods `web-0` of two name spaces answer one request each. -/
def twoPods : List (Timed Traffic) :=
  [.value (webTraffic "default" "web" "200" 3), .value (webTraffic "shop" "web" "503" 5), .tick]

/-- They are reported as one. -/
theorem not_perPod_twoPods : ∃ g g', Runs (twoPods.take 2) g ∧ Step g .tick g' ∧
    ∀ vs, g'.sent = g.sent ++ vs.map .red → ¬ PerPod (window (twoPods.take 2)) vs :=
  exists_tick_not (fun _ _ _ hagg hstep hsent => perPod_tick_iff hagg hstep hsent) (by decide)

end Gather

end Kubebpfbox.Http
