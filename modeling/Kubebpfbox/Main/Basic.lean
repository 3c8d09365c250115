import Kubebpfbox.Http.Process
import Kubebpfbox.Influxdb.Basic
import Kubebpfbox.Lib.Channel
import Kubebpfbox.Oomkill.Metric
import Kubebpfbox.Oomkill.Process
import Kubebpfbox.Tcpsynbl.Ebpf

/-!
# The agent as a whole (`main.go`)

`main` starts the two informers and the loops of `Gather` of the three plugins, which send their
metrics to one channel with room for 1000 of them.  The loop of `main` takes a metric from the
channel and writes it to the database client, which commits what it has every three seconds.

All of this is one machine, whose steps are those of the parties:

* A plugin takes its steps as before (`Http.Process`, `Pid2Pod.Process`).  In a round of its loop
  `Gather` sends some metrics; it begins the next round when all of them are in the channel.  The
  state of a loop is its own, so that the whole round is done at once, and then the metrics wait.
* The two plugins that find the pod by the pid read one index.
* Between taking a metric and writing it, `main` has it in hand (`received`).
-/

namespace Kubebpfbox.Main

open Golang GoM Kubebpfbox.Core Informer Channels
open Pid2Pod (Pipe)

/-- The plugins that register themselves (`plugins/all.go`). -/
inductive Plugin where
  | http
  | oomkill
  | tcpsynbl
  deriving DecidableEq, Repr

instance : Fintype Plugin := ⟨{.http, .oomkill, .tcpsynbl}, fun p => by cases p <;> decide⟩

/-- `make(chan metric.Metric, 1000)`. -/
abbrev room : ℕ := 1000

/-- The state of the agent. -/
structure Agent (P : Type) where
  http : Http.Process := {}
  pid2pod : Pid2Pod := {}
  oomkill : Pipe Oomkill.Event := {}
  tcpsynbl : Pipe Tcpsynbl.Event := {}
  /-- the channel `ch`, and what each `Gather` waits with -/
  ch : Channel Plugin Metric := {}
  /-- what `main` has taken from `ch` and not yet written -/
  received : Option Metric := none
  db : Influxdb.System P := {}

namespace Agent

variable {P : Type}

/-- The OOM plugin and the index it reads. -/
def oomkillProcess (s : Agent P) : Pid2Pod.Process Oomkill.Event :=
  { s.oomkill with pid2pod := s.pid2pod }

/-- The SYN backlog plugin and the index it reads. -/
def tcpsynblProcess (s : Agent P) : Pid2Pod.Process Tcpsynbl.Event :=
  { s.tcpsynbl with pid2pod := s.pid2pod }

/-- A step and what it saw.  A step of a plugin may be a round of its `Gather`, which sends some
metrics. -/
inductive Action (P : Type) where
  /-- a notification of the pod controller -/
  | pod (e : Event Pod)
  | http (act : Http.Process.Action) (round : Option (List Metric))
  | oomkill (act : Pid2Pod.Process.Action Oomkill.Hook Oomkill.Event) (round : Option (List Metric))
  | tcpsynbl (act : Pid2Pod.Process.Action Tcpsynbl.Hook Tcpsynbl.Event)
      (round : Option (List Metric))
  /-- the next metric of a plugin goes into `ch` -/
  | send (plugin : Plugin) (m : Metric)
  /-- `main` takes a metric from `ch` -/
  | receive (m : Metric)
  /-- `db.Write` -/
  | write (m : Metric) (p : P)
  /-- a tick of `Run`, with the error of `WritePoint` -/
  | commit (err : Option GoString)

/-- What a round of the HTTP plugin sends: the metrics of what came since the last one. -/
def httpRound (s : Http.Process) (act : Http.Process.Action) (s' : Http.Process) :
    Option (List Metric) :=
  act.timed?.map fun _ => (s'.gather.sent.drop s.gather.sent.length).map Http.Sent.covertMetric

/-- The channel after a step of a plugin. -/
inductive Offers (plugin : Plugin) : Option (List Metric) → Channel Plugin Metric →
    Channel Plugin Metric → Prop where
  | idle {ch : Channel Plugin Metric} : Offers plugin none ch ch
  | round {ch ch' : Channel Plugin Metric} {ms : List Metric}
      (h : Channels.Step room ch (.offer plugin ms) ch') : Offers plugin (some ms) ch ch'

variable [Inhabited P] (parseIP : GoString → Http.NetIP) (nodeName : GoString)
  (api : PointApi P)

/-- One step of one of the parties. -/
inductive Step : Agent P → Action P → Agent P → Prop where
  | pod {s : Agent P} {e : Event Pod} {p : Pid2Pod}
      (h : (Pid2Pod.handle nodeName e).Gives s.pid2pod ⟨⟩ p) :
      Step s (.pod e) { s with pid2pod := p }
  | http {s : Agent P} {act : Http.Process.Action} {x : Http.Process} {ch : Channel Plugin Metric}
      (h : Http.Process.Step parseIP nodeName s.http act x)
      (hoffers : Offers .http (httpRound s.http act x) s.ch ch) :
      Step s (.http act (httpRound s.http act x)) { s with http := x, ch }
  | oomkill {s : Agent P} {act : Pid2Pod.Process.Action Oomkill.Hook Oomkill.Event}
      {x : Pipe Oomkill.Event} {ch : Channel Plugin Metric}
      (h : Pid2Pod.Process.Step Oomkill.probe nodeName s.oomkillProcess act
        { x with pid2pod := s.pid2pod })
      (hact : act.notification? = none)
      (hoffers : Offers .oomkill (act.receive?.map fun e => [e.covertMetric]) s.ch ch) :
      Step s (.oomkill act (act.receive?.map fun e => [e.covertMetric]))
        { s with oomkill := x, ch }
  | tcpsynbl {s : Agent P} {act : Pid2Pod.Process.Action Tcpsynbl.Hook Tcpsynbl.Event}
      {x : Pipe Tcpsynbl.Event} {ch : Channel Plugin Metric}
      (h : Pid2Pod.Process.Step Tcpsynbl.probe nodeName s.tcpsynblProcess act
        { x with pid2pod := s.pid2pod })
      (hact : act.notification? = none)
      (hoffers : Offers .tcpsynbl (act.receive?.map fun e => [e.covertMetric]) s.ch ch) :
      Step s (.tcpsynbl act (act.receive?.map fun e => [e.covertMetric]))
        { s with tcpsynbl := x, ch }
  | send {s : Agent P} {plugin : Plugin} {m : Metric} {ch : Channel Plugin Metric}
      (h : Channels.Step room s.ch (.send plugin m) ch) :
      Step s (.send plugin m) { s with ch }
  | receive {s : Agent P} {m : Metric} {ch : Channel Plugin Metric}
      (hreceived : s.received = none) (h : Channels.Step room s.ch (.receive m) ch) :
      Step s (.receive m) { s with ch, received := some m }
  | write {s : Agent P} {m : Metric} {p : P} {db : Influxdb.System P}
      (hreceived : s.received = some m) (h : Influxdb.Step api s.db (.write m p) db) :
      Step s (.write m p) { s with received := none, db }
  | commit {s : Agent P} {err : Option GoString} {db : Influxdb.System P}
      (h : Influxdb.Step api s.db (.tick err) db) : Step s (.commit err) { s with db }

/-- The steps lead from one state to the other. -/
abbrev Runs : Agent P → List (Action P) → Agent P → Prop :=
  Machines.Runs (Step parseIP nodeName api)

/-! ### The parties of a run -/

namespace Action

/-- The step of the HTTP plugin, if it is one. -/
def http? : Action P → Option Http.Process.Action
  | http act _ => some act
  | _ => none

/-- The step the OOM plugin sees, if it sees one. -/
def oomkill? : Action P → Option (Pid2Pod.Process.Action Oomkill.Hook Oomkill.Event)
  | pod e => some (.notification e)
  | oomkill act _ => some act
  | _ => none

/-- The step the SYN backlog plugin sees, if it sees one. -/
def tcpsynbl? : Action P → Option (Pid2Pod.Process.Action Tcpsynbl.Hook Tcpsynbl.Event)
  | pod e => some (.notification e)
  | tcpsynbl act _ => some act
  | _ => none

/-- The step of the channel, if it is one. -/
def ch? : Action P → Option (Channels.Action Plugin Metric)
  | http _ round => round.map (.offer .http)
  | oomkill _ round => round.map (.offer .oomkill)
  | tcpsynbl _ round => round.map (.offer .tcpsynbl)
  | send plugin m => some (.send plugin m)
  | receive m => some (.receive m)
  | pod _ => none
  | write _ _ => none
  | commit _ => none

/-- The step of the database client, if it is one. -/
def db? : Action P → Option (Influxdb.Event P)
  | write m p => some (.write m p)
  | commit err => some (.tick err)
  | _ => none

end Action

/-- The order in which the plugins put their metrics into `ch`. -/
def sends (acts : List (Action P)) : List (Plugin × Metric) :=
  Channels.sends (acts.filterMap Action.ch?)

/-- All that a plugin has sent or is going to send. -/
def produced (s : Agent P) : Plugin → List Metric
  | .http => s.http.gather.sent.map Http.Sent.covertMetric
  | .oomkill => s.oomkill.gathered.map Oomkill.Event.covertMetric
  | .tcpsynbl => s.tcpsynbl.gathered.map Tcpsynbl.Event.covertMetric

end Agent

end Kubebpfbox.Main
