import Kubebpfbox.Http.Equiv.Gather
import Kubebpfbox.Influxdb.Equiv.Points

/-!
# Records that share a point

The point of a record has thirteen tags, which is everything but the duration, and no time of its
own.  The records of one commit that agree in these, as those of one request repeated on one
connection do, leave one point (`traffic_points_iff`), that of the last of them
(`lookup_writePoint_traffic`).
-/

namespace Kubebpfbox.Http

open Golang Influxdb
open Gather (webTraffic)

/-! ### The tags of a record -/

/-- Two records agree in everything but the duration. -/
def Traffic.SameTags (t t' : Traffic) : Prop := { t with duration := t'.duration } = t'

instance (t t' : Traffic) : Decidable (t.SameTags t') := inferInstanceAs (Decidable (_ = _))

/-- The tags in the order in which they are set. -/
def Traffic.tagList (t : Traffic) : List (GoString × GoString) :=
  [(ascii "podname", t.podName), (ascii "nodename", t.nodeName), (ascii "namespace", t.nameSpace),
    (ascii "servicename", t.serviceName), (ascii "type", itoa t.type.toNat),
    (ascii "flow", itoaInt t.flow), (ascii "dstip", t.dstIP),
    (ascii "dstport", itoa t.dstPort.toNat), (ascii "srcip", t.srcIP),
    (ascii "srcport", itoa t.srcPort.toNat), (ascii "method", t.method), (ascii "url", t.url),
    (ascii "code", t.code)]

/-- The names of the tags. -/
def tagNames : List GoString :=
  [ascii "podname", ascii "nodename", ascii "namespace", ascii "servicename", ascii "type",
    ascii "flow", ascii "dstip", ascii "dstport", ascii "srcip", ascii "srcport", ascii "method",
    ascii "url", ascii "code"]

theorem measurement_covertMetric (t : Traffic) :
    t.covertMetric.measurement = ascii "traffic" := rfl

theorem tags_covertMetric (t : Traffic) : t.covertMetric.tags = GoMap.insertAll ∅ t.tagList := rfl

theorem map_fst_tagList (t : Traffic) : t.tagList.map Prod.fst = tagNames := rfl

theorem tagList_eq_iff {t t' : Traffic} : t.tagList = t'.tagList ↔ t.SameTags t' := by
  constructor
  · intro h
    simp only [Traffic.tagList, List.cons.injEq, Prod.mk.injEq, true_and, and_true] at h
    obtain ⟨hpod, hnode, hns, hservice, htype, hflow, hdstIP, hdstPort, hsrcIP, hsrcPort, hmethod,
      hurl, hcode⟩ := h
    -- the numbers are told apart by their texts
    have htype' : t.type = t'.type := UInt32.toNat.inj (itoa_injective htype)
    have hflow' : t.flow = t'.flow := itoaInt_injective hflow
    have hdstPort' : t.dstPort = t'.dstPort := UInt16.toNat.inj (itoa_injective hdstPort)
    have hsrcPort' : t.srcPort = t'.srcPort := UInt16.toNat.inj (itoa_injective hsrcPort)
    rw [Traffic.SameTags, hpod, hnode, hns, hservice, htype', hflow', hdstIP, hdstPort', hsrcIP,
      hsrcPort', hmethod, hurl, hcode]
  · intro h
    rw [← h]
    rfl

/-- Two records make points of the same tags exactly when they agree in everything but the
duration. -/
theorem tags_covertMetric_eq_iff {t t' : Traffic} :
    t.covertMetric.tags = t'.covertMetric.tags ↔ t.SameTags t' := by
  have hnodup : (t.tagList.map Prod.fst).Nodup := by
    rw [map_fst_tagList]
    decide
  rw [tags_covertMetric, tags_covertMetric, ← tagList_eq_iff]
  constructor
  · exact GoMap.insertAll_inj (map_fst_tagList t) hnodup
  · intro h
    rw [h]

/-! ### The points of a commit -/

theorem sameSeries_covertMetric_iff {t t' : Traffic} :
    SameSeries t.covertMetric t'.covertMetric ↔ t.SameTags t' := by
  have hname : t.covertMetric.measurement = t'.covertMetric.measurement := by
    rw [measurement_covertMetric, measurement_covertMetric]
  rw [SameSeries, tags_covertMetric_eq_iff, and_iff_right hname]

/-- The metrics of records, of which no two make the same point. -/
theorem pairwise_covertMetric_iff {ts : List Traffic} :
    ((ts.map Traffic.covertMetric).Pairwise fun m m' => ¬ SameSeries m m') ↔
      ts.Pairwise fun t t' => ¬ t.SameTags t' := by
  rw [List.pairwise_map]
  exact List.Pairwise.iff fun t t' => not_congr sameSeries_covertMetric_iff

/-- The duration that the database keeps is that of the last record with the same tags. -/
theorem lookup_writePoint_traffic (db : Database) (now : ℕ) {ts : List Traffic} {t : Traffic}
    (ht : t ∈ ts) :
    (db.writePoint now (ts.map fun t => Point.ofMetric t.covertMetric)).lookup
        ((Point.ofMetric t.covertMetric).id now)
      = (ts.filter fun t' => t'.SameTags t).getLast?.map fun t' => t'.covertMetric.fields := by
  have hlook := lookup_writePoint_of_mem db now (List.mem_map_of_mem (f := Traffic.covertMetric) ht)
  rw [List.map_map, List.filter_map, List.getLast?_map, Option.map_map] at hlook
  refine hlook.trans ?_
  congr 2
  exact List.filter_congr fun t' _ => decide_eq_decide.mpr sameSeries_covertMetric_iff

section Commit

variable {P : Type} [Inhabited P] {api : PointApi P} {view : P → Point}

/-- **Every record becomes its own stored point** exactly when no two records of the commit agree
in everything but the duration. -/
theorem traffic_points_iff (hapi : PointApi.Lawful api view) {ts : List Traffic}
    {s s₁ s₂ : System P} {es : List (Influxdb.Event P)} (hempty : s.influxdb.points.toList = [])
    (hrun : Influxdb.Runs api s es s₁) (hts : metrics es = ts.map Traffic.covertMetric)
    (hfail : Influxdb.Event.tick none ∉ es) (hcommit : Influxdb.Step api s₁ (.tick none) s₂) :
    ∃ batch, s₂.committed = s.committed ++ [batch] ∧ batch.length = ts.length ∧
      ∀ (db : Database) now,
        (db.writePoint now (batch.map view)).held now (batch.map view) = ts.length ↔
          ts.Pairwise fun t t' => ¬ t.SameTags t' := by
  obtain ⟨batch, hbatch, hlen, hheld⟩ := held_commit_iff hapi hempty hrun hfail hcommit
  rw [hts, List.length_map] at hlen hheld
  refine ⟨batch, hbatch, hlen, fun db now => ?_⟩
  rw [hheld db now]
  exact pairwise_covertMetric_iff

end Commit

theorem lawful_plainApi : PointApi.Lawful plainApi id := ⟨fun _ => rfl, fun _ _ _ => rfl,
  fun _ _ _ => rfl⟩

theorem traffic_points_iff_of_two : ∃ (es : List (Influxdb.Event Point)) (s₁ s₂ : System Point)
    (batch : List Point), Influxdb.Runs plainApi {} es s₁ ∧
    metrics es = [webTraffic "default" "web" "200" 3, webTraffic "default" "web" "503" 5].map
      Traffic.covertMetric ∧
    Influxdb.Event.tick none ∉ es ∧ Influxdb.Step plainApi s₁ (.tick none) s₂ ∧
    s₂.committed = [batch] ∧
    (Database.writePoint ∅ 0 batch).held 0 batch = 2 := by
  obtain ⟨es, s₁, s₂, hrun, hts, hfail, hcommit⟩ := exists_runs_commit plainApi {}
    ([webTraffic "default" "web" "200" 3, webTraffic "default" "web" "503" 5].map
      Traffic.covertMetric)
  obtain ⟨batch, hbatch, -, hheld⟩ :=
    traffic_points_iff lawful_plainApi rfl hrun hts hfail hcommit
  have htwo := (hheld ∅ 0).mpr (by decide)
  rw [List.map_id] at htwo
  exact ⟨es, s₁, s₂, batch, hrun, hts, hfail, hcommit, hbatch, htwo⟩

/-- One request, twice on one connection: the database holds one point. -/
theorem lost_point_of_repeated_request : ∃ (es : List (Influxdb.Event Point)) (s₁ s₂ : System Point)
    (batch : List Point), Influxdb.Runs plainApi {} es s₁ ∧
    metrics es = [webTraffic "default" "web" "200" 3, webTraffic "default" "web" "200" 5].map
      Traffic.covertMetric ∧
    Influxdb.Event.tick none ∉ es ∧ Influxdb.Step plainApi s₁ (.tick none) s₂ ∧
    s₂.committed = [batch] ∧
    (Database.writePoint ∅ 0 batch).held 0 batch ≠ 2 := by
  obtain ⟨es, s₁, s₂, hrun, hts, hfail, hcommit⟩ := exists_runs_commit plainApi {}
    ([webTraffic "default" "web" "200" 3, webTraffic "default" "web" "200" 5].map
      Traffic.covertMetric)
  obtain ⟨batch, hbatch, -, hheld⟩ := held_commit_iff lawful_plainApi rfl hrun hfail hcommit
  rw [hts, List.length_map] at hheld
  refine ⟨es, s₁, s₂, batch, hrun, hts, hfail, hcommit, hbatch, fun htwo => ?_⟩
  have hdiffer := (hheld ∅ 0).mp (by rw [List.map_id]; exact htwo)
  rw [pairwise_covertMetric_iff] at hdiffer
  revert hdiffer
  decide

end Kubebpfbox.Http
