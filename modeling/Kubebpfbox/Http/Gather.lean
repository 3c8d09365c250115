import Kubebpfbox.Http.Metrics
import Kubebpfbox.Lib.Aggregate

/-!
# `Http.Gather` (`plugins/http/http.go`)

The `select` loop of `Gather` receives a `Traffic` from its channel, or a tick of `calTicker`.  It
keeps one `RED` for every pod name in `redMetric`, and sends metrics to the channel `c`: the metric
of every `Traffic` at once, and at a tick the metric of every `RED`, which it deletes while it
ranges over the map.

The counts are integers without a bound and the `float32` quotients are exact.  `sent` keeps the
values behind the metrics, because the metric of a `RED` no longer tells its counts.
-/

namespace Kubebpfbox.Http

open Golang

/-- `int(f)` for a `float32`: the fraction is cut off. -/
def truncate (q : ℚ) : ℤ := q.num.tdiv q.den

/-- `isErr`. -/
def isErr (m : Traffic) : ℤ := if 499 < (atoi m.code).1 then 1 else 0

namespace RED

/-- The entry for the first record of a pod.  `ServiceName` is set from `m.NameSpace`. -/
def ofTraffic (m : Traffic) : RED where
  podName := m.podName
  nodeName := m.nodeName
  nameSpace := m.nameSpace
  serviceName := m.nameSpace
  requestCount := 1
  errCount := isErr m
  durationCount := truncate m.duration

/-- The entry after one more record. -/
def add (v : RED) (m : Traffic) : RED :=
  { v with
    requestCount := v.requestCount + 1
    errCount := v.errCount + isErr m
    durationCount := v.durationCount + truncate m.duration }

/-- The entry with `QPS`, `ErrRate` and `Duration` computed. -/
def withRates (v : RED) : RED :=
  { v with
    qps := v.requestCount / 60
    errRate := v.errCount / v.requestCount * 100
    duration := v.durationCount / v.requestCount }

end RED

/-- A value whose `CovertMetric` is sent to `c`. -/
inductive Sent where
  | traffic (m : Traffic)
  | red (v : RED)
  deriving DecidableEq

namespace Sent

/-- What the channel gets. -/
def covertMetric : Sent → Metric
  | traffic m => m.covertMetric
  | red v => v.covertMetric

/-- The `RED`, if it is one. -/
def red? : Sent → Option RED
  | traffic _ => none
  | red v => some v

end Sent

/-- The map of the loop and what has been sent. -/
structure Gather where
  redMetric : GoMap GoString RED := ∅
  sent : List Sent := []

namespace Gather

/-- `case m := <-ch`. -/
def receive (g : Gather) (m : Traffic) : Gather where
  redMetric := g.redMetric.upsert m.podName (RED.ofTraffic m) fun v => v.add m
  sent := g.sent ++ [.traffic m]

/-- The body of the `range` loop for the key `k`; a key that is no longer there is not visited. -/
def flush (g : Gather) (k : GoString) : Gather :=
  match g.redMetric.lookup k with
  | some v =>
    { redMetric := g.redMetric.erase k
      sent := g.sent ++ [.red v.withRates] }
  | none => g

/-- `case <-calTicker.C`, with `order` the order of the `range` loop. -/
def tick (g : Gather) (order : List GoString) : Gather := order.foldl flush g

/-- One round of the loop. -/
inductive Step : Gather → Timed Traffic → Gather → Prop where
  | receive {g : Gather} (m : Traffic) : Step g (.value m) (g.receive m)
  | tick {g : Gather} {order : List GoString} (h : g.redMetric.IsRange order) :
      Step g .tick (g.tick order)

/-- The rounds lead from the start of the loop to the state. -/
inductive Runs : List (Timed Traffic) → Gather → Prop where
  | nil : Runs [] {}
  | concat {l : List (Timed Traffic)} {g g' : Gather} {t : Timed Traffic} (h : Runs l g)
      (hstep : Step g t g') : Runs (l ++ [t]) g'

end Gather

end Kubebpfbox.Http
