import Kubebpfbox.Influxdb.Equiv.Buffer
import Mathlib.Data.Finset.Card

/-!
# What the database holds

A point without a time is given the time of the server when it is stored, and the database has one
point for a name, a set of tags and a time: a later one takes the place of an earlier one.

`Write` gives no point a time.  So of the metrics that one commit stores, those of one name and the
same tags leave a single point (`held_commit_iff`), with the fields of the last of them
(`lookup_writePoint_of_mem`).
-/

namespace Kubebpfbox.Influxdb

open Golang Outboxes

/-! ### The database -/

/-- What tells the points of the database apart. -/
structure PointId where
  measurement : GoString
  tags : GoMap GoString GoString
  time : ℕ
  deriving DecidableEq

/-- The identity of a point that is stored at the time `now`. -/
def Point.id (p : Point) (now : ℕ) : PointId := ⟨p.measurement, p.tags, p.time.getD now⟩

/-- The fields of every point. -/
abbrev Database := GoMap PointId (GoMap GoString FieldValue)

namespace Database

/-- A write request, at the time `now`. -/
def writePoint (db : Database) (now : ℕ) (batch : List Point) : Database :=
  db.insertAll (batch.map fun p => (p.id now, p.fields))

/-- How many points the database holds from a request of the time `now`. -/
def held (db : Database) (now : ℕ) (batch : List Point) : ℕ :=
  (db.keys.filter (· ∈ batch.map (Point.id · now))).card

/-- A request leaves one point for each identity in it. -/
theorem held_writePoint (db : Database) (now : ℕ) (batch : List Point) :
    (db.writePoint now batch).held now batch
      = ((batch.map (Point.id · now) : List PointId) : Multiset PointId).toFinset.card := by
  unfold held writePoint
  congr 1
  ext i
  have hkeys : (batch.map fun p => (p.id now, p.fields)).map Prod.fst
      = batch.map (Point.id · now) := by
    rw [List.map_map]
    rfl
  rw [Finset.mem_filter, Finmap.mem_keys, GoMap.mem_insertAll, hkeys, Multiset.mem_toFinset,
    Multiset.mem_coe]
  exact ⟨And.right, fun h => ⟨Or.inr h, h⟩⟩

theorem held_eq_length_iff (db : Database) (now : ℕ) (batch : List Point) :
    (db.writePoint now batch).held now batch = batch.length ↔
      (batch.map (Point.id · now)).Nodup := by
  rw [held_writePoint, ← List.length_map (f := (Point.id · now)), ← Multiset.coe_card,
    Multiset.toFinset_card_eq_card_iff_nodup, Multiset.coe_nodup]

/-- **The last point** of an identity is the one that is kept. -/
theorem lookup_writePoint (db : Database) (now : ℕ) (batch : List Point) (i : PointId) :
    (db.writePoint now batch).lookup i
      = ((batch.filter fun p => p.id now = i).getLast?.map Point.fields).or (db.lookup i) := by
  unfold writePoint
  rw [GoMap.lookup_insertAll, List.filter_map, List.getLast?_map, Option.map_map]
  rfl

end Database

/-! ### The points of the client library -/

/-- What the client library promises: a point has the name it is made with and no time, and the
tags and the fields that are added to it, the last one for each key. -/
structure PointApi.Lawful {P : Type} (api : PointApi P) (view : P → Point) : Prop where
  new : ∀ name, view (api.newPointWithMeasurement name) = { measurement := name }
  addTag : ∀ p k v, view (api.addTag p k v) = { view p with tags := (view p).tags.insert k v }
  addField : ∀ p k v,
    view (api.addField p k v) = { view p with fields := (view p).fields.insert k v }

/-- The point of a metric. -/
def Point.ofMetric (m : Metric) : Point where
  measurement := m.measurement
  tags := m.tags
  fields := m.fields

/-- Two metrics have one name and the same tags. -/
def SameSeries (m m' : Metric) : Prop := m.measurement = m'.measurement ∧ m.tags = m'.tags

instance (m m' : Metric) : Decidable (SameSeries m m') := inferInstanceAs (Decidable (_ ∧ _))

/-- The server gives the points of one request the same time. -/
theorem id_ofMetric_eq_iff {m m' : Metric} {now : ℕ} :
    (Point.ofMetric m).id now = (Point.ofMetric m').id now ↔ SameSeries m m' := by
  show PointId.mk m.measurement m.tags now = PointId.mk m'.measurement m'.tags now ↔ _
  rw [PointId.mk.injEq]
  exact ⟨fun h => ⟨h.1, h.2.1⟩, fun h => ⟨h.1, h.2, rfl⟩⟩

theorem held_ofMetric_iff (db : Database) (now : ℕ) (ms : List Metric) :
    (db.writePoint now (ms.map Point.ofMetric)).held now (ms.map Point.ofMetric) = ms.length ↔
      ms.Pairwise fun m m' => ¬ SameSeries m m' := by
  rw [← List.length_map (f := Point.ofMetric), Database.held_eq_length_iff, List.map_map,
    List.Nodup, List.pairwise_map]
  exact List.Pairwise.iff fun m m' => not_congr id_ofMetric_eq_iff

/-- Of the metrics of one name and the same tags, the fields of the last one stay. -/
theorem lookup_writePoint_of_mem (db : Database) (now : ℕ) {ms : List Metric} {m : Metric}
    (hm : m ∈ ms) :
    (db.writePoint now (ms.map Point.ofMetric)).lookup ((Point.ofMetric m).id now)
      = (ms.filter fun m' => SameSeries m' m).getLast?.map Metric.fields := by
  have hfilter : ((ms.map Point.ofMetric).filter fun p => p.id now = (Point.ofMetric m).id now)
      = (ms.filter fun m' => SameSeries m' m).map Point.ofMetric := by
    rw [List.filter_map]
    congr 1
    exact List.filter_congr fun m' _ => decide_eq_decide.mpr id_ofMetric_eq_iff
  -- there is one, so that what was stored before does not matter
  obtain ⟨last, hlast⟩ : ∃ last, (ms.filter fun m' => SameSeries m' m).getLast? = some last := by
    refine Option.ne_none_iff_exists'.mp fun hnone => ?_
    have hmem : m ∈ ms.filter fun m' => SameSeries m' m :=
      List.mem_filter.mpr ⟨hm, decide_eq_true ⟨rfl, rfl⟩⟩
    rw [List.getLast?_eq_none_iff.mp hnone] at hmem
    cases hmem
  rw [Database.lookup_writePoint, hfilter, List.getLast?_map, hlast]
  rfl

section Lawful

variable {P : Type} {api : PointApi P} {view : P → Point} (hapi : PointApi.Lawful api view)
include hapi

theorem view_addTags (p : P) (l : List (GoString × GoString)) :
    view (l.foldl (fun p e => api.addTag p e.1 e.2) p)
      = { view p with tags := (view p).tags.insertAll l } := by
  induction l generalizing p with
  | nil => rfl
  | cons e l ih =>
    rw [List.foldl_cons, ih, hapi.addTag]
    rfl

theorem view_addFields (p : P) (l : List (GoString × FieldValue)) :
    view (l.foldl (fun p e => api.addField p e.1 e.2) p)
      = { view p with fields := (view p).fields.insertAll l } := by
  induction l generalizing p with
  | nil => rfl
  | cons e l ih =>
    rw [List.foldl_cons, ih, hapi.addField]
    rfl

/-- In whatever order the maps are ranged over, the point has the tags and fields of the metric, and
no time. -/
theorem view_newPoint {m : Metric} {tagOrder fieldOrder : List GoString}
    (htags : m.tags.IsRange tagOrder) (hfields : m.fields.IsRange fieldOrder) :
    view (newPoint api m tagOrder fieldOrder) = Point.ofMetric m := by
  unfold newPoint
  rw [view_addFields hapi, view_addTags hapi, hapi.new]
  show Point.mk _ (GoMap.insertAll ∅ _) (GoMap.insertAll ∅ _) none = _
  rw [htags.insertAll_entriesIn, hfields.insertAll_entriesIn]
  rfl

variable [Inhabited P]

theorem Runs.map_view {s s' : System P} {es : List (Event P)} (h : Runs api s es s') :
    (written es).map view = (metrics es).map Point.ofMetric := by
  induction h with
  | nil => rfl
  | concat _ hstep ih =>
    unfold written metrics at ih ⊢
    rw [List.map_append, List.map_singleton, List.filterMap_append]
    cases hstep with
    | write htags hfields room =>
      rw [Event.op, puts_concat_put, List.map_append, List.map_singleton, ih,
        view_newPoint hapi htags hfields, List.map_append]
      rfl
    | tick err =>
      rw [Event.op, puts_concat_send, ih, List.map_append]
      exact (List.append_nil _).symm

/-- What a commit sends, when no commit succeeded since the buffer was empty. -/
theorem exists_batch {s s₁ s₂ : System P} {es : List (Event P)}
    (hempty : s.influxdb.points.toList = []) (hrun : Runs api s es s₁)
    (hfail : Event.tick none ∉ es) (hcommit : Step api s₁ (.tick none) s₂) :
    ∃ batch, s₂.committed = s.committed ++ [batch] ∧
      batch.map view = (metrics es).map Point.ofMetric := by
  have hnosend : Op.send true ∉ es.map Event.op := by
    intro hmem
    obtain ⟨e, he, hop⟩ := List.mem_map.mp hmem
    cases e with
    | write m p => cases hop
    | tick err =>
      rw [Event.op, Op.send.injEq, decide_eq_true_eq] at hop
      exact hfail (hop ▸ he)
  -- nothing was sent, so all that was written waits
  have hbuffer : s₁.outbox = { s.outbox with pending := s.outbox.pending ++ written es } := by
    rw [hrun.outbox_eq, Outbox.run_of_no_send _ hnosend]
    rfl
  have hstep : s₂.outbox = s₁.outbox.step (.send true) := outbox_step hcommit
  have hdelivered : s₂.committed = s.committed ++ [s.influxdb.points.toList ++ written es] := by
    rw [hbuffer] at hstep
    exact congrArg Outbox.delivered hstep
  refine ⟨written es, ?_, hrun.map_view hapi⟩
  rw [hdelivered, hempty, List.nil_append]

/-- The points that a commit leaves in the database are as many as the metrics exactly when no two
metrics have one name and the same tags. -/
theorem held_commit_iff {s s₁ s₂ : System P} {es : List (Event P)}
    (hempty : s.influxdb.points.toList = []) (hrun : Runs api s es s₁)
    (hfail : Event.tick none ∉ es) (hcommit : Step api s₁ (.tick none) s₂) :
    ∃ batch, s₂.committed = s.committed ++ [batch] ∧ batch.length = (metrics es).length ∧
      ∀ (db : Database) now,
        (db.writePoint now (batch.map view)).held now (batch.map view) = (metrics es).length ↔
        (metrics es).Pairwise fun m m' => ¬ SameSeries m m' := by
  obtain ⟨batch, hbatch, hview⟩ := exists_batch hapi hempty hrun hfail hcommit
  have hlen : (batch.map view).length = (metrics es).length := by
    rw [hview, List.length_map]
  refine ⟨batch, hbatch, (List.length_map ..).symm.trans hlen, fun db now => ?_⟩
  rw [hview]
  exact held_ofMetric_iff db now (metrics es)

end Lawful

end Kubebpfbox.Influxdb
