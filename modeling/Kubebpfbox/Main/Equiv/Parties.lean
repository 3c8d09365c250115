import Kubebpfbox.Http.Equiv.Gather
import Kubebpfbox.Influxdb.Equiv.Buffer
import Kubebpfbox.Main.Basic

/-!
# The parties of a run

A run of the agent is a run of each of its parties, so that what was proved of them holds of the
agent: `Runs.http`, `Runs.oomkill`, `Runs.tcpsynbl`, `Runs.ch` and `Runs.db`.

`Runs.offered_eq` and `Runs.received_eq` are what holds the parties together: what a plugin offers
to the channel is what it has produced, and what `main` takes out is what it writes.
-/

namespace Kubebpfbox.Main.Agent

open Golang Channels

variable {P : Type} [Inhabited P] {parseIP : GoString → Http.NetIP} {nodeName : GoString}
  {api : PointApi P} {s s' : Agent P} {act : Action P}
  {acts : List (Action P)}

/-! ### Runs of the parties -/

theorem Runs.http (h : Runs parseIP nodeName api s acts s') :
    Http.Process.Runs parseIP nodeName s.http (acts.filterMap Action.http?) s'.http := by
  refine Machines.Runs.project (f := Agent.http) ?_ ?_ h
  · intro s act s' b hstep hact
    cases hstep with
    | http h _ =>
      cases hact
      exact h
    | _ => cases hact
  · intro s act s' hstep hact
    cases hstep with
    | http _ _ => cases hact
    | _ => rfl

theorem Runs.oomkill (h : Runs parseIP nodeName api s acts s') :
    Pid2Pod.Process.Runs Oomkill.probe nodeName s.oomkillProcess
      (acts.filterMap Action.oomkill?) s'.oomkillProcess := by
  refine Machines.Runs.project (f := Agent.oomkillProcess) ?_ ?_ h
  · intro s act s' b hstep hact
    cases hstep with
    | pod h =>
      cases hact
      exact .notification h
    | oomkill h _ _ =>
      cases hact
      exact h
    | _ => cases hact
  · intro s act s' hstep hact
    cases hstep with
    | pod _ => cases hact
    | oomkill _ _ _ => cases hact
    | _ => rfl

theorem Runs.tcpsynbl (h : Runs parseIP nodeName api s acts s') :
    Pid2Pod.Process.Runs Tcpsynbl.probe nodeName s.tcpsynblProcess
      (acts.filterMap Action.tcpsynbl?) s'.tcpsynblProcess := by
  refine Machines.Runs.project (f := Agent.tcpsynblProcess) ?_ ?_ h
  · intro s act s' b hstep hact
    cases hstep with
    | pod h =>
      cases hact
      exact .notification h
    | tcpsynbl h _ _ =>
      cases hact
      exact h
    | _ => cases hact
  · intro s act s' hstep hact
    cases hstep with
    | pod _ => cases hact
    | tcpsynbl _ _ _ => cases hact
    | _ => rfl

/-- A step of a plugin is an offer or leaves the channel as it is. -/
theorem Offers.project {plugin : Plugin} {round : Option (List Metric)}
    {ch ch' : Channel Plugin Metric} (h : Offers plugin round ch ch') :
    (∀ b, round.map (Channels.Action.offer plugin) = some b → Channels.Step room ch b ch') ∧
      (round.map (Channels.Action.offer plugin (α := Metric)) = none → ch' = ch) := by
  cases h with
  | idle => exact ⟨fun b hb => (by cases hb), fun _ => rfl⟩
  | round h =>
    refine ⟨fun b hb => ?_, fun hnone => by cases hnone⟩
    cases hb
    exact h

theorem Runs.ch (h : Runs parseIP nodeName api s acts s') :
    Channels.Runs room s.ch (acts.filterMap Action.ch?) s'.ch := by
  refine Machines.Runs.project (f := Agent.ch) ?_ ?_ h
  · intro s act s' b hstep hact
    cases hstep with
    | http _ hoffers => exact hoffers.project.1 b hact
    | oomkill _ _ hoffers => exact hoffers.project.1 b hact
    | tcpsynbl _ _ hoffers => exact hoffers.project.1 b hact
    | send h =>
      cases hact
      exact h
    | receive _ h =>
      cases hact
      exact h
    | _ => cases hact
  · intro s act s' hstep hact
    cases hstep with
    | http _ hoffers => exact hoffers.project.2 hact
    | oomkill _ _ hoffers => exact hoffers.project.2 hact
    | tcpsynbl _ _ hoffers => exact hoffers.project.2 hact
    | send _ => cases hact
    | receive _ _ => cases hact
    | _ => rfl

theorem influxdb_runs {x x' : Influxdb.System P} {es : List (Influxdb.Event P)}
    (h : Machines.Runs (Influxdb.Step api) x es x') : Influxdb.Runs api x es x' := by
  induction h with
  | nil => exact .nil
  | concat _ hstep ih => exact ih.concat hstep

theorem Runs.db (h : Runs parseIP nodeName api s acts s') :
    Influxdb.Runs api s.db (acts.filterMap Action.db?) s'.db := by
  refine influxdb_runs (Machines.Runs.project (f := Agent.db) ?_ ?_ h)
  · intro s act s' b hstep hact
    cases hstep with
    | write _ h =>
      cases hact
      exact h
    | commit h =>
      cases hact
      exact h
    | _ => cases hact
  · intro s act s' hstep hact
    cases hstep with
    | write _ _ => cases hact
    | commit _ => cases hact
    | _ => rfl

/-! ### What holds them together -/

/-- `Gather` sends more and more. -/
theorem prefix_sent {x x' : Http.Process} {act : Http.Process.Action}
    (h : Http.Process.Step parseIP nodeName x act x') : x.gather.sent <+: x'.gather.sent := by
  cases h with
  | receive _ => exact List.prefix_append _ _
  | tick horder =>
    rw [Http.Gather.tick_eq horder.1]
    exact List.prefix_append _ _
  | _ => exact List.prefix_rfl

theorem gather_of_timed_eq_none {x x' : Http.Process} {act : Http.Process.Action}
    (h : Http.Process.Step parseIP nodeName x act x') (hact : act.timed? = none) :
    x'.gather = x.gather := by
  cases h with
  | receive _ => cases hact
  | tick _ => cases hact
  | _ => rfl

theorem offered_toList_offer (plugin plugin' : Plugin) (round : Option (List Metric)) :
    offered plugin (round.map (Channels.Action.offer plugin')).toList
      = if plugin' = plugin then round.getD [] else [] := by
  cases round with
  | none => exact (ite_self _).symm
  | some ms => exact List.append_nil _

/-- What the HTTP plugin offers is what it has sent since. -/
theorem map_sent_eq {x x' : Http.Process} {act : Http.Process.Action}
    (h : Http.Process.Step parseIP nodeName x act x') :
    x'.gather.sent.map Http.Sent.covertMetric
      = x.gather.sent.map Http.Sent.covertMetric ++ (httpRound x act x').getD [] := by
  unfold httpRound
  cases hact : act.timed? with
  | none =>
    rw [gather_of_timed_eq_none h hact]
    exact (List.append_nil _).symm
  | some t =>
    rw [Option.map_some, Option.getD_some, ← List.map_append]
    congr 1
    exact (List.prefix_iff_eq_append.mp (prefix_sent h)).symm

/-- The events of a plugin are those its `Gather` takes. -/
theorem gathered_eq {C R E : Type} {probe : Pid2Pod.Probe C R E} {x x' : Pid2Pod.Process E}
    {act : Pid2Pod.Process.Action C E} (h : Pid2Pod.Process.Step probe nodeName x act x')
    (f : E → Metric) : x'.gathered.map f
      = x.gathered.map f ++ (act.receive?.map fun e => [f e]).getD [] := by
  cases h with
  | receive _ => exact List.map_append
  | _ => exact (List.append_nil _).symm

theorem Step.produced_eq (h : Step parseIP nodeName api s act s') (plugin : Plugin) :
    s'.produced plugin = s.produced plugin ++ offered plugin act.ch?.toList := by
  cases h with
  | http h _ =>
    rw [Action.ch?, offered_toList_offer]
    cases plugin with
    | http => exact map_sent_eq h
    | _ => exact (List.append_nil _).symm
  | oomkill h _ _ =>
    rw [Action.ch?, offered_toList_offer]
    cases plugin with
    | oomkill => exact gathered_eq h _
    | _ => exact (List.append_nil _).symm
  | tcpsynbl h _ _ =>
    rw [Action.ch?, offered_toList_offer]
    cases plugin with
    | tcpsynbl => exact gathered_eq h _
    | _ => exact (List.append_nil _).symm
  | _ =>
    cases plugin <;> exact (List.append_nil _).symm

theorem offered_append (plugin : Plugin) (l l' : List (Channels.Action Plugin Metric)) :
    offered plugin (l ++ l') = offered plugin l ++ offered plugin l' := List.flatMap_append

/-- What a plugin has offered to the channel is what it has produced. -/
theorem Runs.offered_eq (h : Runs parseIP nodeName api {} acts s) (plugin : Plugin) :
    offered plugin (acts.filterMap Action.ch?) = s.produced plugin := by
  induction h with
  | nil => cases plugin <;> rfl
  | concat _ hstep ih =>
    rw [Machines.filterMap_concat, offered_append, ih, hstep.produced_eq plugin]

theorem received_toList_offer (plugin : Plugin) (round : Option (List Metric)) :
    Channels.received (round.map (Channels.Action.offer plugin)).toList = [] := by
  cases round <;> rfl

theorem Step.received_eq (h : Step parseIP nodeName api s act s') :
    s.received.toList ++ Channels.received act.ch?.toList
      = Influxdb.metrics act.db?.toList ++ s'.received.toList := by
  cases h with
  | http _ _ =>
    rw [Action.ch?, received_toList_offer]
    exact List.append_nil _
  | oomkill _ _ _ =>
    rw [Action.ch?, received_toList_offer]
    exact List.append_nil _
  | tcpsynbl _ _ _ =>
    rw [Action.ch?, received_toList_offer]
    exact List.append_nil _
  | receive hreceived _ =>
    rw [hreceived]
    rfl
  | write hreceived _ =>
    rw [hreceived]
    rfl
  | _ => exact List.append_nil _

/-- What `main` has taken out of the channel is what it has written, and what it has in hand. -/
theorem Runs.received_eq (h : Runs parseIP nodeName api {} acts s) :
    Channels.received (acts.filterMap Action.ch?)
      = Influxdb.metrics (acts.filterMap Action.db?) ++ s.received.toList := by
  induction h with
  | nil => rfl
  | @concat acts t t' act _ hstep ih =>
    have hreceived : Channels.received (acts.filterMap Action.ch? ++ act.ch?.toList)
        = Channels.received (acts.filterMap Action.ch?) ++ Channels.received act.ch?.toList :=
      List.filterMap_append
    have hmetrics : Influxdb.metrics (acts.filterMap Action.db? ++ act.db?.toList)
        = Influxdb.metrics (acts.filterMap Action.db?) ++ Influxdb.metrics act.db?.toList :=
      List.filterMap_append
    rw [Machines.filterMap_concat, Machines.filterMap_concat, hreceived, hmetrics, ih,
      List.append_assoc, hstep.received_eq, List.append_assoc]

end Kubebpfbox.Main.Agent
