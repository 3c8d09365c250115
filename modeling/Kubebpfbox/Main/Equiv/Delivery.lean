import Kubebpfbox.Http.Equiv.FilterKey
import Kubebpfbox.Influxdb.Equiv.Points
import Kubebpfbox.Main.Equiv.Parties
import Kubebpfbox.Tcpsynbl.Equiv.Delivery

/-!
# From the plugins to the database

`metrics_delivered`: in every state of every run, what the plugins have produced is in the database,
in the buffer of the client, in the hand of `main`, in the channel or with a `Gather` that waits,
each metric in one of these places and once, and those of one plugin in its order.
-/

namespace Kubebpfbox.Main.Agent

open Golang Channels Influxdb Outboxes

variable {P : Type} [Inhabited P] {parseIP : GoString → Http.NetIP} {nodeName : GoString}
  {api : PointApi P} {view : P → Point} {s s' : Agent P}
  {acts : List (Action P)}

/-- The points that the client was given, committed or not. -/
def points (s : Agent P) : List P := s.db.committed.flatten ++ s.db.influxdb.points.toList

/-- Where the metrics are: `written` are in the database or in the buffer of the client, `rest` is
on the way. -/
structure Delivery (view : P → Point) (s : Agent P)
    (written rest : List (Plugin × Metric)) : Prop where
  points_eq : s.points.map view = written.map fun x => Point.ofMetric x.2
  rest_eq : rest.map Prod.snd = s.received.toList ++ s.ch.buffer
  produced_eq : ∀ plugin, s.produced plugin
    = ofSender plugin written ++ ofSender plugin rest ++ s.ch.waiting plugin
  length_buffer_le : s.ch.buffer.length ≤ room

theorem Runs.points_eq (hapi : PointApi.Lawful api view)
    (h : Runs parseIP nodeName api {} acts s) :
    s.points.map view = (metrics (acts.filterMap Action.db?)).map Point.ofMetric := by
  have hdb := Runs.db h
  have hcontents := Outbox.run_delivers ({} : System P).outbox
    ((acts.filterMap Action.db?).map Influxdb.Event.op)
  rw [← hdb.outbox_eq] at hcontents
  have hpoints : s.points = written (acts.filterMap Action.db?) := hcontents
  rw [hpoints, hdb.map_view hapi]

/-- How many metrics `main` has written. -/
def writtenCount (acts : List (Action P)) : ℕ := (metrics (acts.filterMap Action.db?)).length

/-- What `main` has written came through the channel first. -/
theorem Runs.delivery (hapi : PointApi.Lawful api view)
    (h : Runs parseIP nodeName api {} acts s) :
    Delivery view s ((sends acts).take (writtenCount acts))
      ((sends acts).drop (writtenCount acts)) := by
  set n := writtenCount acts with hn
  have hqueue : (sends acts).map Prod.snd
      = metrics (acts.filterMap Action.db?) ++ (s.received.toList ++ s.ch.buffer) := by
    have hch := Channels.Runs.sends_eq (Runs.ch h)
    rw [Runs.received_eq h, List.append_assoc] at hch
    exact hch
  have hwritten : ((sends acts).take n).map Prod.snd = metrics (acts.filterMap Action.db?) := by
    rw [List.map_take, hqueue, List.take_left' hn.symm]
  refine ⟨?_, ?_, ?_, ?_⟩
  · rw [Runs.points_eq hapi h, ← hwritten, List.map_map]
    rfl
  · rw [List.map_drop, hqueue, List.drop_left' hn.symm]
  · intro plugin
    have hoffered := Channels.Runs.offered_eq (Runs.ch h) plugin
    rw [Runs.offered_eq h plugin] at hoffered
    rw [← ofSender_append, List.take_append_drop]
    exact hoffered
  · exact Channels.Runs.length_buffer_le (Runs.ch h) (Nat.zero_le _)

/-- **Nothing is lost, doubled or reordered** between the plugins and the database. -/
theorem metrics_delivered (hapi : PointApi.Lawful api view)
    (h : Runs parseIP nodeName api {} acts s) :
    ∃ written rest, sends acts = written ++ rest ∧ Delivery view s written rest :=
  ⟨_, _, (List.take_append_drop ..).symm, Runs.delivery hapi h⟩

section Sample

open Tcpsynbl (fullSock decodes_probe)
open Pid2Pod (Proc)

theorem lawful_plainApi : PointApi.Lawful plainApi id :=
  ⟨fun _ => rfl, fun _ _ _ => rfl, fun _ _ _ => rfl⟩

/-- The record of the overflow. -/
def fullInfo : Tcpsynbl.TcpsynblInfo := ⟨14880, 128, 129⟩

/-- The metric of the overflow, with these files and this index. -/
def overflowMetric (proc : Proc) (pid2pod : Pid2Pod) : Metric :=
  (Tcpsynbl.decodeMapItem proc pid2pod fullInfo.toTcpsynblEvent).covertMetric

/-- The way of one overflow through the agent. -/
theorem exists_runs_overflow (parseIP : GoString → Http.NetIP) (nodeName : GoString)
    (proc : Proc) (pid2pod : Pid2Pod) : ∃ acts s,
    Runs parseIP nodeName plainApi { pid2pod } acts s ∧
      sends acts = [(.tcpsynbl, overflowMetric proc pid2pod)] ∧
      metrics (acts.filterMap Action.db?) = [overflowMetric proc pid2pod] ∧
      acts.filterMap Action.oomkill? = [] ∧ s.received = none ∧ s.ch.buffer = [] := by
  set e := Tcpsynbl.decodeMapItem proc pid2pod fullInfo.toTcpsynblEvent with he
  have hgives := (decodes_probe proc pid2pod fullInfo (fun _ => 0) [e]).mpr ⟨trivial, rfl⟩
  have h₁ : Runs parseIP nodeName plainApi { pid2pod } _ _ := Machines.Runs.nil.concat
    (.tcpsynbl (.hook (Tcpsynbl.Hook.tcpV6SynRecvSock fullSock true) fun _ => 0) rfl .idle)
  have h₂ := Machines.Runs.concat h₁ (.tcpsynbl (.read proc rfl rfl hgives) rfl .idle)
  have h₃ := Machines.Runs.concat h₂ (.tcpsynbl (.receive rfl) rfl (.round (.offer _ rfl)))
  have h₄ := Machines.Runs.concat h₃
    (@Step.send _ _ _ _ _ _ .tcpsynbl _ _ (.send rfl (Nat.zero_lt_succ _)))
  have h₅ := Machines.Runs.concat h₄ (.receive rfl (.receive rfl))
  obtain ⟨p, db, hdb⟩ := (@Influxdb.exists_step _ _ plainApi _).1 e.covertMetric
  exact ⟨_, _, Machines.Runs.concat h₅ (.write rfl hdb), rfl, rfl, rfl, rfl, rfl⟩

theorem metrics_delivered_of_one : ∃ acts s m,
    Runs Http.parseIPv4 (ascii "node1") plainApi {} acts s ∧
      s.points = [Point.ofMetric m] ∧ sends acts = [(.tcpsynbl, m)] := by
  obtain ⟨acts, s, h, hsends, -, -, hreceived, hbuffer⟩ :=
    exists_runs_overflow Http.parseIPv4 (ascii "node1") default {}
  obtain ⟨written, rest, heq, hdelivery⟩ := metrics_delivered lawful_plainApi h
  have hrest := hdelivery.rest_eq
  rw [hreceived, hbuffer] at hrest
  obtain rfl : rest = [] := List.map_eq_nil_iff.mp hrest
  rw [hsends, List.append_nil] at heq
  have hpoints := hdelivery.points_eq
  rw [← heq, List.map_id] at hpoints
  exact ⟨acts, s, _, h, hpoints, hsends⟩

end Sample

end Kubebpfbox.Main.Agent
