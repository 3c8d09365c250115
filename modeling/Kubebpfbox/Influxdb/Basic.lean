import Kubebpfbox.Lib.Slice
import Kubebpfbox.Metric

/-!
# The write buffer (`internal/influxdb/influxdb.go`)

`Write` makes a point of a metric and appends it to `Points`; every three seconds `Run` commits all
of them with one `WritePoint`, and clears `Points` when that succeeds.  Both hold the mutex for all
they do, so each is one step of the system.

The points are those of the client library, which is a parameter (`PointApi`).  `WritePoint` stores
all points or none, and an error it returns is one of the inputs of a step.
-/

namespace Kubebpfbox

open Golang

/-- What `Write` calls of the client library. -/
structure PointApi (P : Type) where
  newPointWithMeasurement : GoString → P
  addTag : P → GoString → GoString → P
  addField : P → GoString → FieldValue → P

/-- `Influxdb`. -/
structure Influxdb (P : Type) where
  points : Slice P := ∅

namespace Influxdb

variable {P : Type} (api : PointApi P)

/-- The point `Write` makes of a metric, with the orders in which it ranges over the tags and the
fields. -/
def newPoint (m : Metric) (tagOrder fieldOrder : List GoString) : P :=
  let p := api.newPointWithMeasurement m.measurement
  let p := (m.tags.entriesIn tagOrder).foldl (fun p e => api.addTag p e.1 e.2) p
  (m.fields.entriesIn fieldOrder).foldl (fun p e => api.addField p e.1 e.2) p

/-- `Write`; `room` is what `append` asks the runtime for. -/
def write [Inhabited P] (i : Influxdb P) (m : Metric) (tagOrder fieldOrder : List GoString)
    (room : ℕ) : Influxdb P :=
  { i with points := i.points.append (newPoint api m tagOrder fieldOrder) room }

/-- `ClearPoints`. -/
def clearPoints (i : Influxdb P) : Influxdb P :=
  { i with points := i.points.truncate 0 (Nat.zero_le _) }

/-- `Commit`, with the error `WritePoint` returns. -/
def commit (i : Influxdb P) (err : Option GoString) : Influxdb P × Option GoString :=
  match err with
  | some err => (i, some err)
  | none => (i.clearPoints, none)

/-- The buffer, and the batches of points the database took. -/
structure System (P : Type) where
  influxdb : Influxdb P := {}
  committed : List (List P) := []

/-- A call of `Write`, with the point it made, or a tick, with the error of `WritePoint`. -/
inductive Event (P : Type) where
  | write (m : Metric) (p : P)
  | tick (err : Option GoString)

/-- One step of the system. -/
inductive Step [Inhabited P] : System P → Event P → System P → Prop where
  | write {s : System P} {m : Metric} {tagOrder fieldOrder : List GoString}
      (htags : m.tags.IsRange tagOrder) (hfields : m.fields.IsRange fieldOrder) (room : ℕ) :
      Step s (.write m (newPoint api m tagOrder fieldOrder))
        { s with influxdb := s.influxdb.write api m tagOrder fieldOrder room }
  | tick {s : System P} (err : Option GoString) :
      Step s (.tick err)
        { influxdb := (s.influxdb.commit err).1
          committed :=
            if err = none then s.committed ++ [s.influxdb.points.toList] else s.committed }

/-- The steps lead from one state to the other. -/
inductive Runs [Inhabited P] (s : System P) : List (Event P) → System P → Prop where
  | nil : Runs s [] s
  | concat {es : List (Event P)} {s' s'' : System P} {e : Event P} (h : Runs s es s')
      (hstep : Step api s' e s'') : Runs s (es ++ [e]) s''

end Influxdb

end Kubebpfbox
