import Kubebpfbox.Http.Equiv.Pipeline
import Kubebpfbox.Http.Equiv.RedValues
import Kubebpfbox.Main.Equiv.Delivery
import Kubebpfbox.Main.Equiv.Progress
import Kubebpfbox.Oomkill.Equiv.Delivery

/-!
# Where the points come from

`points_are_occurrences`: in every run, the points of the HTTP traffic are those of exchanges, the
points of the OOM kills those of calls of `oom_kill_process`, and the points of the overflows those
of calls on sockets with a full queue, each of its own one and in their order; and the remaining
points, the RED metrics, sum up the exchanges of one pod between two ticks.  There are no others.
-/

namespace Kubebpfbox.Main

open Golang Channels Influxdb Lists Timed
open Http (Traffic RED FromExchange)
open Http.Gather (tally)
open Http.Process (timeds)
open Pid2Pod.Process (submitting)

/-- The measurements of a plugin. -/
def Plugin.measurements : Plugin → List GoString
  | .http => [ascii "traffic", ascii "red"]
  | .oomkill => [ascii "oomkill"]
  | .tcpsynbl => [ascii "tcpsynbl"]

/-- No two plugins share one. -/
theorem Plugin.measurements_disjoint : ∀ plugin other : Plugin, other ≠ plugin →
    ∀ name ∈ plugin.measurements, name ∉ other.measurements := by
  decide

namespace Agent

variable {P : Type} [Inhabited P] {parseIP : GoString → Http.NetIP} {nodeName : GoString}
  {api : PointApi P} {view : P → Point} {s : Agent P}
  {acts : List (Action P)}

/-! ### The points of one measurement -/

omit [Inhabited P] in
theorem measurement_mem {plugin : Plugin} {m : Metric} (hm : m ∈ s.produced plugin) :
    m.measurement ∈ plugin.measurements := by
  cases plugin with
  | http =>
    obtain ⟨x, -, rfl⟩ := List.mem_map.mp hm
    cases x with
    | traffic m => exact List.mem_cons_self ..
    | red v => exact List.mem_cons_of_mem _ (List.mem_singleton_self _)
  | oomkill =>
    obtain ⟨e, -, rfl⟩ := List.mem_map.mp hm
    exact List.mem_singleton_self _
  | tcpsynbl =>
    obtain ⟨e, -, rfl⟩ := List.mem_map.mp hm
    exact List.mem_singleton_self _

/-- The points of one measurement, in order. -/
def pointsOf (view : P → Point) (name : String) (s : Agent P) : List Point :=
  (s.points.map view).filter fun p => p.measurement = ascii name

omit [Inhabited P] in
theorem Delivery.prefix_produced {written rest : List (Plugin × Metric)}
    (hdelivery : Delivery view s written rest) (plugin : Plugin) :
    ofSender plugin written <+: s.produced plugin := by
  rw [hdelivery.produced_eq, List.append_assoc]
  exact List.prefix_append _ _

omit [Inhabited P] in
/-- They are made of what the plugin has sent. -/
theorem Delivery.pointsOf_eq {written rest : List (Plugin × Metric)}
    (hdelivery : Delivery view s written rest) (plugin : Plugin) {name : String}
    (hname : ascii name ∈ plugin.measurements) :
    pointsOf view name s
      = ((ofSender plugin written).filter fun m => m.measurement = ascii name).map
          Point.ofMetric := by
  have honly : ∀ x ∈ written, x.1 ≠ plugin → decide (x.2.measurement = ascii name) = false := by
    intro x hx hne
    have hmem :=
      measurement_mem ((hdelivery.prefix_produced x.1).mem (mem_ofSender.mpr hx))
    refine decide_eq_false fun heq => plugin.measurements_disjoint x.1 hne _ hname ?_
    rw [← heq]
    exact hmem
  rw [← filter_map_snd honly, pointsOf, hdelivery.points_eq, List.filter_map, List.filter_map,
    List.map_map]
  rfl

/-- They are made of what the plugin has produced first. -/
theorem Runs.exists_written (hapi : PointApi.Lawful api view)
    (h : Runs parseIP nodeName api {} acts s) (plugin : Plugin) (name : String)
    (hname : ascii name ∈ plugin.measurements) :
    ∃ ms, ms <+: s.produced plugin ∧
      pointsOf view name s
        = (ms.filter fun m => m.measurement = ascii name).map Point.ofMetric := by
  have hdelivery := Runs.delivery hapi h
  exact ⟨_, hdelivery.prefix_produced plugin, hdelivery.pointsOf_eq plugin hname⟩

/-- The metrics that a selection of the values gives. -/
theorem filter_map_eq {α β : Type} {f : α → Metric} {select : α → Option β} {g : β → Metric}
    {name : GoString} (hselect : ∀ a, (if (f a).measurement = name then some (f a) else none)
      = (select a).map g) (l : List α) :
    ((l.map f).filter fun m => m.measurement = name) = (l.filterMap select).map g := by
  induction l with
  | nil => rfl
  | cons a l ih =>
    have ha := hselect a
    split_ifs at ha with hname
    · obtain ⟨b, hb, hg⟩ := Option.map_eq_some_iff.mp ha.symm
      rw [List.map_cons, List.filter_cons_of_pos (by simpa using hname), ih,
        List.filterMap_cons_some hb, List.map_cons, hg]
    · rw [List.map_cons, List.filter_cons_of_neg (by simpa using hname), ih,
        List.filterMap_cons_none (Option.map_eq_none_iff.mp ha.symm)]

/-- The points of a measurement, when it is that of some of the values of the plugin. -/
theorem Runs.exists_pointsOf_eq (hapi : PointApi.Lawful api view)
    (h : Runs parseIP nodeName api {} acts s) (plugin : Plugin) {name : String}
    (hname : ascii name ∈ plugin.measurements) {α β : Type} {f : α → Metric}
    {select : α → Option β} {g : β → Metric} {values : List α} {bs : List β}
    (hproduced : s.produced plugin = values.map f) (hbs : values.filterMap select = bs)
    (hselect : ∀ a, (if (f a).measurement = ascii name then some (f a) else none)
      = (select a).map g) :
    ∃ n, pointsOf view name s = (bs.take n).map fun b => Point.ofMetric (g b) := by
  obtain ⟨ms, hms, hpoints⟩ := Runs.exists_written hapi h plugin name hname
  rw [hproduced] at hms
  obtain ⟨l, hl, rfl⟩ := List.prefix_map_iff.mp hms
  have hfirst : l.filterMap select <+: bs := hbs ▸ hl.filterMap select
  refine ⟨(l.filterMap select).length, ?_⟩
  rw [hpoints, filter_map_eq hselect, ← List.prefix_iff_eq_take.mp hfirst, List.map_map]
  rfl

theorem select_traffic (x : Http.Sent) :
    (if x.covertMetric.measurement = ascii "traffic" then some x.covertMetric else none)
      = x.traffic?.map Traffic.covertMetric := by
  cases x with
  | traffic m => rfl
  | red v => rfl

theorem select_red (x : Http.Sent) :
    (if x.covertMetric.measurement = ascii "red" then some x.covertMetric else none)
      = x.red?.map RED.covertMetric := by
  cases x with
  | traffic m => rfl
  | red v => rfl

theorem Runs.pointsOf_traffic (hapi : PointApi.Lawful api view)
    (h : Runs parseIP nodeName api {} acts s) :
    ∃ n, pointsOf view "traffic" s = ((Http.traffics s.http.gather.sent).take n).map
      fun m => Point.ofMetric m.covertMetric :=
  Runs.exists_pointsOf_eq hapi h .http (by decide) rfl rfl select_traffic

theorem Runs.pointsOf_red (hapi : PointApi.Lawful api view)
    (h : Runs parseIP nodeName api {} acts s) :
    ∃ n, pointsOf view "red" s = ((Http.Gather.reds s.http.gather.sent).take n).map
      fun v => Point.ofMetric v.covertMetric :=
  Runs.exists_pointsOf_eq hapi h .http (by decide) rfl rfl select_red

theorem Runs.pointsOf_oomkill (hapi : PointApi.Lawful api view)
    (h : Runs parseIP nodeName api {} acts s) :
    ∃ n, pointsOf view "oomkill" s = (s.oomkill.gathered.take n).map
      fun e => Point.ofMetric e.covertMetric :=
  Runs.exists_pointsOf_eq hapi h .oomkill (by decide) rfl List.filterMap_some
    fun _ => rfl

theorem Runs.pointsOf_tcpsynbl (hapi : PointApi.Lawful api view)
    (h : Runs parseIP nodeName api {} acts s) :
    ∃ n, pointsOf view "tcpsynbl" s = (s.tcpsynbl.gathered.take n).map
      fun e => Point.ofMetric e.covertMetric :=
  Runs.exists_pointsOf_eq hapi h .tcpsynbl (by decide) rfl List.filterMap_some
    fun _ => rfl

/-- All that a plugin has produced of a measurement has its point. -/
theorem Runs.pointsOf_eq_of_drained (hapi : PointApi.Lawful api view)
    (h : Runs parseIP nodeName api {} acts s) (hdrained : s.Drained) (plugin : Plugin)
    {name : String} (hname : ascii name ∈ plugin.measurements) {α β : Type} {f : α → Metric}
    {select : α → Option β} {g : β → Metric} {values : List α} {bs : List β}
    (hproduced : s.produced plugin = values.map f) (hbs : values.filterMap select = bs)
    (hselect : ∀ a, (if (f a).measurement = ascii name then some (f a) else none)
      = (select a).map g) :
    pointsOf view name s = bs.map fun b => Point.ofMetric (g b) := by
  have hdelivery := Runs.delivery_of_drained hapi h hdrained
  have hsent : Channels.ofSender plugin (sends acts) = values.map f := by
    have hall := hdelivery.produced_eq plugin
    rw [hdrained.waiting plugin, hproduced, List.append_nil] at hall
    exact (hall.trans (List.append_nil _)).symm
  rw [hdelivery.pointsOf_eq plugin hname, hsent, filter_map_eq hselect, hbs, List.map_map]
  rfl

theorem Runs.pointsOf_traffic_of_drained (hapi : PointApi.Lawful api view)
    (h : Runs parseIP nodeName api {} acts s) (hdrained : s.Drained) :
    pointsOf view "traffic" s = (Http.traffics s.http.gather.sent).map
      fun m => Point.ofMetric m.covertMetric :=
  Runs.pointsOf_eq_of_drained hapi h hdrained .http (by decide) rfl rfl select_traffic

theorem Runs.pointsOf_red_of_drained (hapi : PointApi.Lawful api view)
    (h : Runs parseIP nodeName api {} acts s) (hdrained : s.Drained) :
    pointsOf view "red" s = (Http.Gather.reds s.http.gather.sent).map
      fun v => Point.ofMetric v.covertMetric :=
  Runs.pointsOf_eq_of_drained hapi h hdrained .http (by decide) rfl rfl select_red

theorem Runs.pointsOf_oomkill_of_drained (hapi : PointApi.Lawful api view)
    (h : Runs parseIP nodeName api {} acts s) (hdrained : s.Drained) :
    pointsOf view "oomkill" s
      = s.oomkill.gathered.map fun e => Point.ofMetric e.covertMetric :=
  Runs.pointsOf_eq_of_drained hapi h hdrained .oomkill (by decide) rfl List.filterMap_some
    fun _ => rfl

theorem Runs.pointsOf_tcpsynbl_of_drained (hapi : PointApi.Lawful api view)
    (h : Runs parseIP nodeName api {} acts s) (hdrained : s.Drained) :
    pointsOf view "tcpsynbl" s
      = s.tcpsynbl.gathered.map fun e => Point.ofMetric e.covertMetric :=
  Runs.pointsOf_eq_of_drained hapi h hdrained .tcpsynbl (by decide) rfl List.filterMap_some
    fun _ => rfl

/-- Every point is of one of the four measurements. -/
theorem Runs.exists_measurement (hapi : PointApi.Lawful api view)
    (h : Runs parseIP nodeName api {} acts s) {p : P} (hp : p ∈ s.points) :
    ∃ plugin : Plugin, (view p).measurement ∈ plugin.measurements := by
  have hdelivery := Runs.delivery hapi h
  have hview : view p ∈ s.points.map view := List.mem_map_of_mem hp
  rw [hdelivery.points_eq] at hview
  obtain ⟨⟨plugin, m⟩, hmem, hm⟩ := List.mem_map.mp hview
  have hproduced : m ∈ s.produced plugin :=
    (hdelivery.prefix_produced plugin).mem (mem_ofSender.mpr hmem)
  refine ⟨plugin, ?_⟩
  rw [← hm]
  exact measurement_mem hproduced

/-! ### What they are made of -/

/-- The first of some events, as points, and the calls they are about. -/
theorem exists_prefix_points {C E : Type} {Reports : C → E → Prop} {calls done waiting : List C}
    {made more : List E} (hcalls : calls = done ++ waiting)
    (hmade : List.Forall₂ Reports done (made ++ more)) (n : ℕ) (g : E → Point) :
    ∃ cs, cs <+: calls ∧
      List.Forall₂ (fun c p => ∃ e, Reports c e ∧ p = g e) cs ((made.take n).map g) := by
  obtain ⟨cs, hfirst, hall⟩ := exists_prefix_forall₂ hmade
    ((List.take_prefix n made).trans (List.prefix_append made more))
  refine ⟨cs, ?_, ?_⟩
  · rw [hcalls]
    exact hfirst.trans (List.prefix_append _ _)
  · rw [List.forall₂_map_right_iff]
    exact hall.imp fun c e he => ⟨e, he, rfl⟩

variable (parseIP nodeName) in
/-- The point sums up the exchanges of one pod that `Gather` learned of before some tick, since the
tick before. -/
def SumsUp (acts : List (Action P)) (p : Point) : Prop :=
  ∃ l v, l ++ [.tick] <+: timeds (acts.filterMap Action.http?) ∧
    tally (ofKey Traffic.podName v.podName (window l)) = some v ∧
    (∀ m ∈ window l, ∃ j, FromExchange parseIP nodeName (acts.filterMap Action.http?) j m) ∧
    p = Point.ofMetric v.withRates.covertMetric

theorem Runs.sumsUp (hapi : PointApi.Lawful api view)
    (h : Runs parseIP nodeName api {} acts s) {p : Point} (hp : p ∈ pointsOf view "red" s) :
    SumsUp parseIP nodeName acts p := by
  obtain ⟨n, hpoints⟩ := Runs.pointsOf_red hapi h
  rw [hpoints] at hp
  obtain ⟨v, hv, rfl⟩ := List.mem_map.mp hp
  have hhttp : Http.Process.Runs parseIP nodeName {} _ s.http := Runs.http h
  obtain ⟨l, v', htick, htally, rfl⟩ := hhttp.gather.exists_tally (List.mem_of_mem_take hv)
  refine ⟨l, v', htick, htally, fun m hm => ?_, rfl⟩
  apply hhttp.fromExchange
  rw [Http.traffics_of_runs hhttp.gather]
  exact List.mem_append_left _ (Http.Gather.mem_values_of_mem_window htick hm)

/-- **The database holds what has happened**, each occurrence once and in order, and nothing else;
with durations as exact rationals and counters without a bound. -/
theorem points_are_occurrences (hapi : PointApi.Lawful api view)
    (h : Runs parseIP nodeName api {} acts s) :
    (∃ js, js.Pairwise (· < ·) ∧ List.Forall₂ (fun j p => ∃ m,
      FromExchange parseIP nodeName (acts.filterMap Action.http?) j m ∧
        p = Point.ofMetric m.covertMetric) js (pointsOf view "traffic" s)) ∧
    (∃ calls, calls <+: submitting Oomkill.probe (acts.filterMap Action.oomkill?) ∧
      List.Forall₂ (fun c p => ∃ e, c.Reports e ∧ p = Point.ofMetric e.covertMetric) calls
        (pointsOf view "oomkill" s)) ∧
    (∃ calls, calls <+: submitting Tcpsynbl.probe (acts.filterMap Action.tcpsynbl?) ∧
      List.Forall₂ (fun c p => ∃ e, c.Reports e ∧ p = Point.ofMetric e.covertMetric) calls
        (pointsOf view "tcpsynbl" s)) ∧
    (∀ p ∈ pointsOf view "red" s, SumsUp parseIP nodeName acts p) ∧
    ∀ p ∈ s.points, ∃ plugin : Plugin, (view p).measurement ∈ plugin.measurements := by
  refine ⟨?_, ?_, ?_, fun p hp => Runs.sumsUp hapi h hp,
    fun p hp => Runs.exists_measurement hapi h hp⟩
  · obtain ⟨n, hpoints⟩ := Runs.pointsOf_traffic hapi h
    have hhttp : Http.Process.Runs parseIP nodeName {} _ s.http := Runs.http h
    obtain ⟨js, hjs, hall⟩ := hhttp.exists_positions
    rw [hpoints]
    obtain ⟨js', hfirst, hall'⟩ := exists_prefix_points (List.append_nil js).symm hall n _
    exact ⟨js', hjs.sublist hfirst.sublist, hall'⟩
  · obtain ⟨n, hpoints⟩ := Runs.pointsOf_oomkill hapi h
    have hrun : Pid2Pod.Process.Runs Oomkill.probe nodeName {} _ s.oomkillProcess := Runs.oomkill h
    obtain ⟨done, waiting, hsub, hmade, -⟩ := hrun.reported Oomkill.decodes_probe
      (fun _ _ hrecord proc p => Oomkill.Hook.reports_eventOf hrecord proc.cgroup p)
      (fun _ _ hrecord => Oomkill.Hook.hasNuls_iff hrecord)
    rw [hpoints]
    exact exists_prefix_points hsub hmade n _
  · obtain ⟨n, hpoints⟩ := Runs.pointsOf_tcpsynbl hapi h
    have hrun : Pid2Pod.Process.Runs Tcpsynbl.probe nodeName {} _ s.tcpsynblProcess :=
      Runs.tcpsynbl h
    obtain ⟨done, waiting, hsub, hmade, -⟩ := hrun.reported Tcpsynbl.decodes_probe
      (fun _ _ hrecord proc p => Tcpsynbl.Hook.reports_decodeMapItem hrecord proc p)
      (fun _ _ _ => (Iff.rfl : True ↔ True))
    rw [hpoints]
    exact exists_prefix_points hsub hmade n _

section Sample

open Endpoint2Pod (node)
open Oomkill (shortKill)

/-- One call whose record was submitted leaves one event. -/
theorem exists_gathered_of_drained {acts : List (Action Point)} {s : Agent Point}
    (h : Runs parseIP nodeName plainApi {} acts s) (hdrained : s.Drained) {c : Oomkill.Hook}
    (hsub : submitting Oomkill.probe (acts.filterMap Action.oomkill?) = [c]) :
    ∃ e, s.oomkill.gathered = [e] := by
  have hoomkill : Pid2Pod.Process.Runs Oomkill.probe nodeName {} _ s.oomkillProcess :=
    Runs.oomkill h
  have hall := hoomkill.reported_of_drained Oomkill.decodes_probe
    (fun _ _ hrecord proc p => Oomkill.Hook.reports_eventOf hrecord proc.cgroup p)
    hdrained.oomkill
  have hlen := hall.length_eq
  rw [hsub] at hlen
  exact List.length_eq_one_iff.mp hlen.symm

/-- An exchange and an OOM kill, when nothing waits any more. -/
theorem points_are_occurrences_of_two : ∃ (acts : List (Action Point)) (s : Agent Point) (j : ℕ)
    (m : Traffic) (e : Oomkill.Event), Runs Http.parseIPv4 node plainApi {} acts s ∧
    FromExchange Http.parseIPv4 node (acts.filterMap Action.http?) j m ∧
    pointsOf id "traffic" s = [Point.ofMetric m.covertMetric] ∧
    shortKill.Reports e ∧ pointsOf id "oomkill" s = [Point.ofMetric e.covertMetric] := by
  obtain ⟨acts, s, m, h, hdrained, hsub, hsent⟩ := exists_runs_two_drained
  obtain ⟨⟨js, -, htraffic⟩, ⟨calls, hcalls, hkills⟩, -⟩ :=
    points_are_occurrences lawful_plainApi h
  have hpoint := Runs.pointsOf_traffic_of_drained lawful_plainApi h hdrained
  rw [hsent, List.map_singleton] at hpoint
  rw [hpoint] at htraffic
  obtain ⟨j, -, ⟨m', hfrom, heq⟩, -, -⟩ := List.forall₂_cons_right_iff.mp htraffic
  obtain ⟨e', hgathered⟩ := exists_gathered_of_drained h hdrained hsub
  have hpoints := Runs.pointsOf_oomkill_of_drained lawful_plainApi h hdrained
  rw [hgathered, List.map_singleton] at hpoints
  rw [hpoints] at hkills
  obtain ⟨c, _, ⟨e, hreports, heq'⟩, -, rfl⟩ := List.forall₂_cons_right_iff.mp hkills
  rw [hsub] at hcalls
  obtain rfl : c = shortKill := List.mem_singleton.mp (hcalls.mem (List.mem_cons_self ..))
  exact ⟨acts, s, j, m', e, h, hfrom, hpoint.trans (congrArg (fun p => [p]) heq), hreports,
    hpoints.trans (congrArg (fun p => [p]) heq')⟩

end Sample

end Agent

end Kubebpfbox.Main
