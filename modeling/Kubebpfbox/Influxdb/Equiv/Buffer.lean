import Kubebpfbox.Influxdb.Basic
import Kubebpfbox.Lib.Aggregate
import Kubebpfbox.Lib.Outbox

/-!
# The write buffer is an outbox

The slice `Points` and the batches the database took are an `Outbox`: `Write` puts a point in and a
tick sends all of them (`outbox_step`).  So no point is lost, doubled or reordered
(`buffer_delivers`), whatever the clients write and whichever commits fail.
-/

namespace Kubebpfbox.Influxdb

open Golang Outboxes

variable {P : Type} [Inhabited P] {api : PointApi P}

/-! ### The abstraction -/

/-- What the system is for: the batches that are stored and the points still to be. -/
def System.outbox (s : System P) : Outbox P where
  delivered := s.committed
  pending := s.influxdb.points.toList

namespace Event

/-- What a step does to the outbox. -/
def op : Event P → Op P
  | write _ p => .put p
  | tick err => .send (err = none)

/-- The metric that is written, if one is. -/
def metric? : Event P → Option Metric
  | write m _ => some m
  | tick _ => none

end Event

/-- The points written so far. -/
def written (es : List (Event P)) : List P := puts (es.map Event.op)

/-- The metrics they were made of. -/
def metrics (es : List (Event P)) : List Metric := es.filterMap Event.metric?

/-- **Refinement**: one step of the system is one operation of the outbox. -/
theorem outbox_step {s s' : System P} {e : Event P} (h : Step api s e s') :
    s'.outbox = s.outbox.step e.op := by
  cases h with
  | write htags hfields room =>
    show Outbox.mk _ (s.influxdb.points.append _ room).toList = _
    rw [Slice.toList_append]
    rfl
  | tick err =>
    cases err with
    | some err => rfl
    | none =>
      show Outbox.mk _ (s.influxdb.points.truncate 0 _).toList = _
      rw [Slice.toList_truncate, List.take_zero]
      rfl

theorem Runs.outbox_eq {s s' : System P} {es : List (Event P)} (h : Runs api s es s') :
    s'.outbox = s.outbox.run (es.map Event.op) := by
  induction h with
  | nil => rfl
  | concat _ hstep ih => rw [outbox_step hstep, ih, List.map_append, List.map_singleton,
      Outbox.run_concat]

/-- A failed commit changes nothing. -/
theorem eq_of_tick_error {s s' : System P} {err : GoString} (h : Step api s (.tick (some err)) s') :
    s' = s := by
  cases h
  rfl

/-! ### Exactly once, in order -/

/-- Every metric can be written and every commit can succeed or fail, at any time. -/
theorem exists_step (s : System P) :
    (∀ m, ∃ p s', Step api s (.write m p) s') ∧ ∀ err, ∃ s', Step api s (.tick err) s' := by
  constructor
  · intro m
    obtain ⟨tagOrder, htags⟩ := GoMap.exists_isRange m.tags
    obtain ⟨fieldOrder, hfields⟩ := GoMap.exists_isRange m.fields
    exact ⟨_, _, .write htags hfields 0⟩
  · intro err
    exact ⟨_, .tick err⟩

/-- Any metrics can be written one after another. -/
theorem exists_runs_write (s : System P) (ms : List Metric) :
    ∃ es s', Runs api s es s' ∧ metrics es = ms ∧ Event.tick none ∉ es := by
  induction ms using List.reverseRecOn with
  | nil => exact ⟨[], s, .nil, rfl, List.not_mem_nil⟩
  | append_singleton ms m ih =>
    obtain ⟨es, s', hrun, hms, hfail⟩ := ih
    obtain ⟨p, s'', hstep⟩ := (exists_step s').1 m
    refine ⟨es ++ [.write m p], s'', hrun.concat hstep, ?_, ?_⟩
    · rw [metrics, List.filterMap_append, ← metrics, hms]
      rfl
    · rw [List.mem_append, not_or]
      exact ⟨hfail, by simp⟩

/-- Any metrics can be written and then committed. -/
theorem exists_runs_commit (api : PointApi P) (s : System P) (ms : List Metric) :
    ∃ es s₁ s₂, Runs api s es s₁ ∧ metrics es = ms ∧ Event.tick none ∉ es ∧
      Step api s₁ (.tick none) s₂ := by
  obtain ⟨es, s₁, hrun, hms, hfail⟩ := exists_runs_write s ms
  obtain ⟨s₂, hcommit⟩ := (exists_step s₁).2 none
  exact ⟨es, s₁, s₂, hrun, hms, hfail, hcommit⟩

/-- **The write buffer neither loses, doubles nor reorders points**: after every run, what was
committed and what is left are what was written, and a failed commit leaves `Points` alone. -/
theorem buffer_delivers {es : List (Event P)} {s : System P} (h : Runs api {} es s) :
    s.committed.flatten ++ s.influxdb.points.toList = written es ∧
      ∀ err s', Step api s (.tick (some err)) s' →
        s'.influxdb.points = s.influxdb.points ∧ s'.committed = s.committed := by
  refine ⟨?_, fun err s' hstep => ?_⟩
  · have hdelivers := Outbox.run_delivers ({} : System P).outbox (es.map Event.op)
    rw [← h.outbox_eq] at hdelivers
    exact hdelivers
  · rw [eq_of_tick_error hstep]
    exact ⟨rfl, rfl⟩

/-- Points that are sent as they are, without a time. -/
structure Point where
  measurement : GoString
  tags : GoMap GoString GoString := ∅
  fields : GoMap GoString FieldValue := ∅
  time : Option ℕ := none

instance : Inhabited Point := ⟨{ measurement := [] }⟩

/-- A client library with such points. -/
def plainApi : PointApi Point where
  newPointWithMeasurement name := { measurement := name }
  addTag p k v := { p with tags := p.tags.insert k v }
  addField p k v := { p with fields := p.fields.insert k v }

/-- A write, a commit that fails, a write of another metric, and a commit that does not. -/
theorem buffer_delivers_of_retry : ∃ (p q : Point) (s : System Point),
    Runs plainApi {} [.write { measurement := ascii "red" } p, .tick (some (ascii "timeout")),
      .write { measurement := ascii "traffic" } q, .tick none] s ∧
      p.measurement = ascii "red" ∧ q.measurement = ascii "traffic" ∧
      s.committed.flatten ++ s.influxdb.points.toList = [p, q] := by
  have hrange : (∅ : GoMap GoString GoString).IsRange [] := by decide
  have hfields : (∅ : GoMap GoString FieldValue).IsRange [] := by decide
  have hrun : Runs plainApi {} _ _ := (((Runs.nil.concat
    (Step.write (m := { measurement := ascii "red" }) hrange hfields 3)).concat
      (.tick (some (ascii "timeout")))).concat
      (Step.write (m := { measurement := ascii "traffic" }) hrange hfields 0)).concat (.tick none)
  exact ⟨_, _, _, hrun, rfl, rfl, (buffer_delivers hrun).1⟩

end Kubebpfbox.Influxdb
