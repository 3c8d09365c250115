import Kubebpfbox.Influxdb.Equiv.Points
import Kubebpfbox.Tcpsynbl.Ebpf

/-!
# The points of overflows

The point of an overflow has eight tags, which is everything but the two lengths, and no time of its
own.  Nothing of an event gets lost on the way to its metric (`covertMetric_injective`), but of the
overflows of one process that one commit stores the database keeps the last
(`lookup_writePoint_overflow`).
-/

namespace Kubebpfbox.Tcpsynbl

open Golang Influxdb

/-- The tags in the order in which they are set. -/
def Event.tagList (m : Event) : List (GoString × GoString) :=
  [(ascii "poduid", m.podUID), (ascii "podname", m.podName), (ascii "nodename", m.nodeName),
    (ascii "namespace", m.nameSpace), (ascii "containerid", m.containerID),
    (ascii "containername", m.containerName), (ascii "pid", itoa m.pid.toNat),
    (ascii "comm", m.comm)]

/-- The fields in the order in which they are set. -/
def Event.fieldList (m : Event) : List (GoString × FieldValue) :=
  [(ascii "maxackbacklog", .string (itoa m.maxAckBacklog.toNat)),
    (ascii "ackbacklog", .string (itoa m.ackBacklog.toNat))]

/-- Two events agree in everything but the lengths: they are of one process. -/
def Event.SameProcess (m m' : Event) : Prop :=
  { m with maxAckBacklog := m'.maxAckBacklog, ackBacklog := m'.ackBacklog } = m'

instance (m m' : Event) : Decidable (m.SameProcess m') := inferInstanceAs (Decidable (_ = _))

theorem tags_covertMetric (m : Event) : m.covertMetric.tags = GoMap.insertAll ∅ m.tagList := rfl

theorem fields_covertMetric (m : Event) :
    m.covertMetric.fields = GoMap.insertAll ∅ m.fieldList := rfl

theorem nodup_tagList (m : Event) : (m.tagList.map Prod.fst).Nodup := by
  show [ascii "poduid", ascii "podname", ascii "nodename", ascii "namespace", ascii "containerid",
    ascii "containername", ascii "pid", ascii "comm"].Nodup
  decide

theorem nodup_fieldList (m : Event) : (m.fieldList.map Prod.fst).Nodup := by
  show [ascii "maxackbacklog", ascii "ackbacklog"].Nodup
  decide

theorem tagList_eq_iff {m m' : Event} : m.tagList = m'.tagList ↔ m.SameProcess m' := by
  constructor
  · intro h
    simp only [Event.tagList, List.cons.injEq, Prod.mk.injEq, true_and, and_true] at h
    obtain ⟨huid, hpod, hnode, hns, hcid, hcname, hpid, hcomm⟩ := h
    have hpid' : m.pid = m'.pid := UInt32.toNat.inj (itoa_injective hpid)
    rw [Event.SameProcess, huid, hpod, hnode, hns, hcid, hcname, hpid', hcomm]
  · intro h
    rw [← h]
    rfl

theorem tags_covertMetric_eq_iff {m m' : Event} :
    m.covertMetric.tags = m'.covertMetric.tags ↔ m.SameProcess m' := by
  rw [tags_covertMetric, tags_covertMetric, ← tagList_eq_iff]
  constructor
  · exact GoMap.insertAll_inj rfl (nodup_tagList m)
  · intro h
    rw [h]

/-- A metric tells the event it was made of. -/
theorem covertMetric_injective : Function.Injective Event.covertMetric := by
  intro m m' h
  have hsame : m.SameProcess m' := tags_covertMetric_eq_iff.mp (congrArg Metric.tags h)
  have hfields : m.fieldList = m'.fieldList := by
    have hmap := congrArg Metric.fields h
    rw [fields_covertMetric, fields_covertMetric] at hmap
    exact GoMap.insertAll_inj rfl (nodup_fieldList m) hmap
  simp only [Event.fieldList, List.cons.injEq, Prod.mk.injEq, true_and, and_true,
    FieldValue.string.injEq] at hfields
  obtain ⟨hmax, hack⟩ := hfields
  have hmax' : m.maxAckBacklog = m'.maxAckBacklog := UInt32.toNat.inj (itoa_injective hmax)
  have hack' : m.ackBacklog = m'.ackBacklog := UInt32.toNat.inj (itoa_injective hack)
  rw [Event.SameProcess, ← hmax', ← hack'] at hsame
  exact hsame

/-! ### The points of a commit -/

theorem sameSeries_covertMetric_iff {m m' : Event} :
    SameSeries m.covertMetric m'.covertMetric ↔ m.SameProcess m' := by
  have hname : m.covertMetric.measurement = m'.covertMetric.measurement := rfl
  rw [SameSeries, tags_covertMetric_eq_iff, and_iff_right hname]

theorem pairwise_covertMetric_iff {ms : List Event} :
    ((ms.map Event.covertMetric).Pairwise fun m m' => ¬ SameSeries m m') ↔
      ms.Pairwise fun m m' => ¬ m.SameProcess m' := by
  rw [List.pairwise_map]
  exact List.Pairwise.iff fun m m' => not_congr sameSeries_covertMetric_iff

/-- **The last overflow of a process** is the one whose lengths the database keeps. -/
theorem lookup_writePoint_overflow (db : Database) (now : ℕ) {ms : List Event} {m : Event}
    (hm : m ∈ ms) :
    (db.writePoint now ((ms.map Event.covertMetric).map Point.ofMetric)).lookup
        ((Point.ofMetric m.covertMetric).id now)
      = (ms.filter fun m' => m'.SameProcess m).getLast?.map fun m' => m'.covertMetric.fields := by
  have hlook := lookup_writePoint_of_mem db now (List.mem_map_of_mem (f := Event.covertMetric) hm)
  rw [List.filter_map, List.getLast?_map, Option.map_map] at hlook
  refine hlook.trans ?_
  congr 2
  exact List.filter_congr fun m' _ => decide_eq_decide.mpr sameSeries_covertMetric_iff

section Commit

variable {P : Type} [Inhabited P] {api : PointApi P} {view : P → Point}

/-- **Every overflow becomes its own stored point** exactly when no two of the commit are of one
process: of the overflows of one process only the last is kept.  And every event can be read back
from its metric. -/
theorem overflow_points_iff (hapi : PointApi.Lawful api view) {ms : List Event}
    {s s₁ s₂ : System P} {es : List (Influxdb.Event P)} (hempty : s.influxdb.points.toList = [])
    (hrun : Influxdb.Runs api s es s₁) (hms : metrics es = ms.map Event.covertMetric)
    (hfail : Influxdb.Event.tick none ∉ es) (hcommit : Influxdb.Step api s₁ (.tick none) s₂) :
    Function.Injective Event.covertMetric ∧
    ∃ batch, s₂.committed = s.committed ++ [batch] ∧ batch.length = ms.length ∧
      ∀ (db : Database) now,
        ((db.writePoint now (batch.map view)).held now (batch.map view) = ms.length ↔
          ms.Pairwise fun m m' => ¬ m.SameProcess m') ∧
        ∀ m ∈ ms,
          (db.writePoint now (batch.map view)).lookup ((Point.ofMetric m.covertMetric).id now)
            = (ms.filter fun m' => m'.SameProcess m).getLast?.map
                fun m' => m'.covertMetric.fields := by
  obtain ⟨batch, hbatch, hview⟩ := exists_batch hapi hempty hrun hfail hcommit
  have hlen : batch.length = ms.length := by
    rw [← List.length_map (f := view), hview, hms, List.length_map, List.length_map]
  refine ⟨covertMetric_injective, batch, hbatch, hlen, fun db now => ?_⟩
  rw [hview, hms]
  refine ⟨?_, fun m hm => lookup_writePoint_overflow db now hm⟩
  rw [← pairwise_covertMetric_iff, ← List.length_map (f := Event.covertMetric)]
  exact held_ofMetric_iff db now _

end Commit

/-- An overflow. -/
def overflowOf (pid ackBacklog : UInt32) : Event where
  pid := pid
  comm := ascii "nginx"
  maxAckBacklog := 128
  ackBacklog := ackBacklog

theorem overflow_points_iff_of_three : ∃ (es : List (Influxdb.Event Influxdb.Point))
    (s₁ s₂ : System Influxdb.Point) (batch : List Influxdb.Point), Influxdb.Runs plainApi {} es s₁ ∧
    metrics es = [overflowOf 14880 128, overflowOf 14881 129, overflowOf 14880 130].map
      Event.covertMetric ∧
    Influxdb.Step plainApi s₁ (.tick none) s₂ ∧ s₂.committed = [batch] ∧
    (Database.writePoint ∅ 0 batch).held 0 batch ≠ 3 ∧
    (Database.writePoint ∅ 0 batch).lookup
        ((Point.ofMetric (overflowOf 14880 128).covertMetric).id 0)
      = some (overflowOf 14880 130).covertMetric.fields := by
  have hapi : PointApi.Lawful plainApi id := ⟨fun _ => rfl, fun _ _ _ => rfl, fun _ _ _ => rfl⟩
  obtain ⟨es, s₁, s₂, hrun, hms, hfail, hcommit⟩ := exists_runs_commit plainApi {}
    ([overflowOf 14880 128, overflowOf 14881 129, overflowOf 14880 130].map Event.covertMetric)
  obtain ⟨-, batch, hbatch, -, hstored⟩ :=
    overflow_points_iff hapi rfl hrun hms hfail hcommit
  obtain ⟨hheld, hlast⟩ := hstored ∅ 0
  have hkept := hlast _ (List.mem_cons_self ..)
  rw [List.map_id] at hheld hkept
  refine ⟨es, s₁, s₂, batch, hrun, hms, hcommit, hbatch, fun hthree => ?_, hkept⟩
  exact absurd (hheld.mp hthree) (by decide)

end Kubebpfbox.Tcpsynbl
