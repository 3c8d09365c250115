import Mathlib.Data.List.ReduceOption
import Kubebpfbox.Main.Equiv.Progress
import Kubebpfbox.Main.Equiv.Sources

/-!
# Nothing that happened is missing

`points_are_occurrences` says that the points are made of what happened.  This is the converse, for
the states in which nothing waits (`Drained`), which can be reached by `agent_drains_iff`.

`occurrences_are_points`: there every record of an OOM kill and of an overflow has its point, in
order; every record of an exchange was read, and has its point if the index knew the endpoint at
that moment; and every tick of `Gather` has a point for every pod of the window it closed.
-/

namespace Kubebpfbox.Main.Agent

open Golang Influxdb Lists Timed
open Http (Traffic RED Outcome submissions)
open Http.Gather (Closes)
open Http.Process (frames timeds)
open Pid2Pod.Process (submitting)

variable {P : Type} [Inhabited P] {parseIP : GoString → Http.NetIP} {nodeName : GoString}
  {api : PointApi P} {view : P → Point} {s : Agent P}
  {acts : List (Action P)}

/-- **Everything that happened is in the database**, when nothing waits; with durations as exact
rationals and counters without a bound. -/
theorem occurrences_are_points (hapi : PointApi.Lawful api view)
    (h : Runs parseIP nodeName api {} acts s) (hdrained : s.Drained) :
    (∃ os, List.Forall₂ (Outcome parseIP nodeName (acts.filterMap Action.http?))
        (submissions ∅ (frames (acts.filterMap Action.http?))) os ∧
      pointsOf view "traffic" s = os.reduceOption.map fun m => Point.ofMetric m.covertMetric) ∧
    List.Forall₂ (fun c p => ∃ e, c.Reports e ∧ p = Point.ofMetric e.covertMetric)
      (submitting Oomkill.probe (acts.filterMap Action.oomkill?)) (pointsOf view "oomkill" s) ∧
    List.Forall₂ (fun c p => ∃ e, c.Reports e ∧ p = Point.ofMetric e.covertMetric)
      (submitting Tcpsynbl.probe (acts.filterMap Action.tcpsynbl?)) (pointsOf view "tcpsynbl" s) ∧
    ∃ vss, List.Forall₂ Closes (closed (timeds (acts.filterMap Action.http?))) vss ∧
      pointsOf view "red" s = vss.flatten.map fun v => Point.ofMetric v.covertMetric := by
  have hhttp : Http.Process.Runs parseIP nodeName {} _ s.http := Runs.http h
  refine ⟨?_, ?_, ?_, ?_⟩
  · obtain ⟨done, waiting, os, hsub, hlen, hall, hos⟩ := hhttp.exists_outcomes
    rw [hdrained.http.1, List.length_nil, List.length_eq_zero_iff] at hlen
    rw [hdrained.http.2, Option.toList_none, List.append_nil] at hos
    refine ⟨os, ?_, ?_⟩
    · rw [hsub, hlen, List.append_nil]
      exact hall
    · rw [Runs.pointsOf_traffic_of_drained hapi h hdrained, hos]
  · have hrun : Pid2Pod.Process.Runs Oomkill.probe nodeName {} _ s.oomkillProcess := Runs.oomkill h
    have hall := hrun.reported_of_drained Oomkill.decodes_probe
      (fun _ _ hrecord proc p => Oomkill.Hook.reports_eventOf hrecord proc.cgroup p)
      hdrained.oomkill
    rw [Runs.pointsOf_oomkill_of_drained hapi h hdrained, List.forall₂_map_right_iff]
    exact hall.imp fun c e he => ⟨e, he, rfl⟩
  · have hrun : Pid2Pod.Process.Runs Tcpsynbl.probe nodeName {} _ s.tcpsynblProcess :=
      Runs.tcpsynbl h
    have hall := hrun.reported_of_drained Tcpsynbl.decodes_probe
      (fun _ _ hrecord proc p => Tcpsynbl.Hook.reports_decodeMapItem hrecord proc p)
      hdrained.tcpsynbl
    rw [Runs.pointsOf_tcpsynbl_of_drained hapi h hdrained, List.forall₂_map_right_iff]
    exact hall.imp fun c e he => ⟨e, he, rfl⟩
  · obtain ⟨vss, hall, hreds⟩ := hhttp.gather.exists_closes
    refine ⟨vss, hall, ?_⟩
    rw [Runs.pointsOf_red_of_drained hapi h hdrained, hreds]

section Sample

open Endpoint2Pod (node)
open Http (parseIPv4)
open Oomkill (shortKill)

/-- An exchange and an OOM kill. -/
theorem occurrences_are_points_of_two : ∃ (acts : List (Action Point)) (s : Agent Point)
    (x : ℕ × Http.Packet) (m : Traffic) (e : Oomkill.Event),
    Runs parseIPv4 node plainApi {} acts s ∧ s.Drained ∧
    Outcome parseIPv4 node (acts.filterMap Action.http?) x (some m) ∧
    pointsOf id "traffic" s = [Point.ofMetric m.covertMetric] ∧
    shortKill.Reports e ∧ pointsOf id "oomkill" s = [Point.ofMetric e.covertMetric] := by
  obtain ⟨acts, s, m, h, hdrained, hsub, hsent⟩ := exists_runs_two_drained
  obtain ⟨⟨os, houtcomes, htraffic⟩, hkills, -, -⟩ :=
    occurrences_are_points lawful_plainApi h hdrained
  have hpoint := Runs.pointsOf_traffic_of_drained lawful_plainApi h hdrained
  rw [hsent, List.map_singleton] at hpoint
  -- the point is that of a record
  obtain ⟨m', hm', hmap⟩ := List.map_eq_singleton_iff.mp (htraffic.symm.trans hpoint)
  have hmem : some m' ∈ os := by
    rw [← List.reduceOption_mem_iff, hm']
    exact List.mem_singleton_self m'
  obtain ⟨x, -, hx⟩ := exists_of_forall₂_of_mem houtcomes hmem
  rw [hsub] at hkills
  obtain ⟨p, rest, ⟨e, hreports, rfl⟩, hnil, hpoints⟩ := List.forall₂_cons_left_iff.mp hkills
  obtain rfl := List.forall₂_nil_left_iff.mp hnil
  rw [← hmap] at hpoint
  exact ⟨acts, s, x, m', e, h, hdrained, hx, hpoint, hreports, hpoints⟩

end Sample

end Kubebpfbox.Main.Agent
