import Kubebpfbox.Http.Equiv.Progress
import Kubebpfbox.Main.Equiv.Delivery
import Kubebpfbox.Oomkill.Equiv.Delivery
import Kubebpfbox.Tcpsynbl.Equiv.Delivery

/-!
# The agent does not get stuck

Everybody may wait for somebody: the kernel's records for `Start`, `Start` for its `Gather`, the
three `Gather`s for room in the channel, and `main` for them.  `agent_drains_iff`: once the HTTP
plugin is in its loop, the turns of these parties bring all that waits into the client of the
database, from every reachable state, unless the name of a killed process without a NUL is among it;
and the turns come to an end by themselves.
-/

namespace Kubebpfbox.Main.Agent

open Golang Channels
open Pid2Pod (Probe Proc)

variable {P : Type} [Inhabited P] {parseIP : GoString → Http.NetIP} {nodeName : GoString}
  {api : PointApi P} {view : P → Influxdb.Point} {s s' : Agent P}
  {act : Action P} {acts : List (Action P)}

/-- A turn of a party between the ring buffers and the client of the database. -/
def Action.IsDelivery : Action P → Prop
  | pod _ => False
  | http act _ => act.IsDelivery
  | oomkill act _ => act.IsDelivery
  | tcpsynbl act _ => act.IsDelivery
  | send _ _ => True
  | receive _ => True
  | write _ _ => True
  | commit _ => False

/-! ### How many turns are left -/

/-- A record that waits in the HTTP plugin has five turns before it, one that is sent has four. -/
def httpTurns (x : Http.Process) : ℕ := 5 * x.packets.length + 4 * x.sending.toList.length

/-- The same for the other two plugins. -/
def pipeTurns {E : Type} (x : Pid2Pod.Pipe E) : ℕ := 5 * x.events.length + 4 * x.sending.length

/-- How many turns there can be. -/
def turnsLeft (s : Agent P) : ℕ :=
  httpTurns s.http + pipeTurns s.oomkill + pipeTurns s.tcpsynbl + 3 * s.ch.backlog +
    2 * s.ch.buffer.length + s.received.toList.length

/-- Nothing waits. -/
structure Drained (s : Agent P) : Prop where
  http : s.http.Drained
  oomkill : s.oomkillProcess.Drained
  tcpsynbl : s.tcpsynblProcess.Drained
  waiting : ∀ plugin, s.ch.waiting plugin = []
  buffer : s.ch.buffer = []
  received : s.received = none

/-- The channel after a step of a plugin that offers a metric or none. -/
theorem Offers.backlog_eq {plugin : Plugin} {round : Option (List Metric)}
    {ch ch' : Channel Plugin Metric} (h : Offers plugin round ch ch') :
    ch'.backlog = ch.backlog + (round.getD []).length ∧ ch'.buffer = ch.buffer := by
  cases h with
  | idle => exact ⟨rfl, rfl⟩
  | round h =>
    refine ⟨h.backlog_offer, ?_⟩
    cases h with
    | offer _ _ => rfl

theorem httpTurns_lt {x x' : Http.Process} {act : Http.Process.Action}
    (h : Http.Process.Step parseIP nodeName x act x') (hact : act.IsDelivery) :
    httpTurns x' + 3 * ((httpRound x act x').getD []).length < httpTurns x := by
  unfold httpTurns
  cases h with
  | agent _ => cases hact
  | frame _ _ => cases hact
  | @read rawSample packets _ hsending hpackets =>
    have hone := Http.Process.length_toList_le
      (Http.startTurn x.agent.world.endpoint2Pod rawSample)
    have hround : ∀ x', httpRound x (.read x.agent.world.endpoint2Pod rawSample) x' = none :=
      fun _ => rfl
    simp only [hround, hsending, hpackets, List.length_cons, Option.toList_none, List.length_nil,
      Option.getD_none]
    omega
  | @receive m hsending =>
    have hround : ∀ x', httpRound x (.receive m) x'
        = some ((x'.gather.sent.drop x.gather.sent.length).map Http.Sent.covertMetric) :=
      fun _ => rfl
    have hsent : (x.gather.receive m).sent = x.gather.sent ++ [.traffic m] := rfl
    simp only [hround, hsent, hsending, List.drop_left, Option.toList_some, Option.toList_none,
      Option.getD_some, List.length_map, List.length_cons, List.length_nil]
    omega
  | tick _ => cases hact

theorem pipeTurns_lt {C R E : Type} {probe : Probe C R E} {Fits : R → Prop}
    {eventOf : Proc → Pid2Pod → R → E} (hdec : probe.Decodes Fits eventOf)
    {x x' : Pid2Pod.Process E} {act : Pid2Pod.Process.Action C E}
    (h : Pid2Pod.Process.Step probe nodeName x act x') (hact : act.IsDelivery)
    (hfit : Pid2Pod.Process.AllFit probe Fits x) (f : E → Metric) :
    pipeTurns x'.toPipe + 3 * ((act.receive?.map fun e => [f e]).getD []).length
      < pipeTurns x.toPipe := by
  have hlt := h.turnsLeft_lt hdec hact hfit
  unfold Pid2Pod.Process.turnsLeft at hlt
  unfold pipeTurns
  cases h with
  | notification _ => cases hact
  | hook _ _ => cases hact
  | @read rawSample events es proc hsending hevents _ =>
    simp only [hsending, hevents, List.length_cons, List.length_nil] at hlt ⊢
    simp only [Pid2Pod.Process.Action.receive?, Option.map_none, Option.getD_none, List.length_nil]
    omega
  | @receive e es hsending =>
    simp only [hsending, List.length_cons, Pid2Pod.Process.Action.receive?, Option.map_some,
      Option.getD_some, List.length_nil]
    omega

/-! ### What the turns rely on -/

/-- The HTTP plugin is in its loop, and no record that waits makes a turn panic. -/
structure Sound (s : Agent P) : Prop where
  registered : s.http.agent.start = .registered
  oomkill : Pid2Pod.Process.AllFit Oomkill.probe
    (fun info => Oomkill.HasNuls info.toOomkillEvent) s.oomkillProcess
  tcpsynbl : Pid2Pod.Process.AllFit Tcpsynbl.probe (fun _ => True) s.tcpsynblProcess

theorem Step.sound (h : Step parseIP nodeName api s act s') (hact : act.IsDelivery)
    (hs : s.Sound) : s'.Sound := by
  cases h with
  | pod _ => cases hact
  | http h _ => exact ⟨h.registered hs.registered, hs.oomkill, hs.tcpsynbl⟩
  | oomkill h _ _ => exact ⟨hs.registered, h.allFit hact hs.oomkill, hs.tcpsynbl⟩
  | tcpsynbl h _ _ => exact ⟨hs.registered, hs.oomkill, h.allFit hact hs.tcpsynbl⟩
  | send _ => exact ⟨hs.registered, hs.oomkill, hs.tcpsynbl⟩
  | receive _ _ => exact ⟨hs.registered, hs.oomkill, hs.tcpsynbl⟩
  | write _ _ => exact ⟨hs.registered, hs.oomkill, hs.tcpsynbl⟩
  | commit _ => cases hact

/-- Every turn brings the end nearer. -/
theorem Step.turnsLeft_lt (h : Step parseIP nodeName api s act s') (hact : act.IsDelivery)
    (hs : s.Sound) : s'.turnsLeft < s.turnsLeft := by
  unfold turnsLeft
  cases h with
  | pod _ => cases hact
  | http h hoffers =>
    have hlt := httpTurns_lt h hact
    obtain ⟨hbacklog, hbuffer⟩ := hoffers.backlog_eq
    simp only [hbacklog, hbuffer]
    omega
  | oomkill h _ hoffers =>
    have hlt := pipeTurns_lt Oomkill.decodes_probe h hact hs.oomkill
      Oomkill.Event.covertMetric
    obtain ⟨hbacklog, hbuffer⟩ := hoffers.backlog_eq
    simp only [oomkillProcess] at hlt
    simp only [hbacklog, hbuffer]
    omega
  | tcpsynbl h _ hoffers =>
    have hlt := pipeTurns_lt Tcpsynbl.decodes_probe h hact hs.tcpsynbl
      Tcpsynbl.Event.covertMetric
    obtain ⟨hbacklog, hbuffer⟩ := hoffers.backlog_eq
    simp only [tcpsynblProcess] at hlt
    simp only [hbacklog, hbuffer]
    omega
  | send h =>
    have hbacklog := h.backlog_send
    cases h with
    | send _ _ =>
      simp only [List.length_append, List.length_singleton] at hbacklog ⊢
      omega
  | receive hreceived h =>
    cases h with
    | receive hbuffer =>
      simp only [hreceived, hbuffer, List.length_cons, Option.toList_none, Option.toList_some,
        List.length_nil]
      show _ + 3 * (Channel.backlog s.ch) + _ + _ < _
      omega
  | write hreceived _ =>
    simp only [hreceived, Option.toList_none, Option.toList_some, List.length_cons,
      List.length_nil]
    omega
  | commit _ => cases hact

/-! ### Somebody has a turn -/

theorem exists_offers {plugin : Plugin} {ch : Channel Plugin Metric}
    (hwaiting : ch.waiting plugin = []) (round : Option (List Metric)) :
    ∃ ch', Offers plugin round ch ch' := by
  cases round with
  | none => exact ⟨ch, .idle⟩
  | some ms => exact ⟨_, .round (.offer ms hwaiting)⟩

/-- A plugin that is not drained has a turn, in which it leaves the index as it is. -/
theorem exists_pipe_delivery {C R E : Type} {probe : Probe C R E} {Fits : R → Prop}
    {eventOf : Proc → Pid2Pod → R → E} (hdec : probe.Decodes Fits eventOf) (nodeName : GoString)
    {x : Pid2Pod.Process E} (hfit : Pid2Pod.Process.AllFit probe Fits x) (hwait : ¬ x.Drained) :
    ∃ act, act.IsDelivery ∧ act.notification? = none ∧ ∃ x' : Pid2Pod.Pipe E,
      Pid2Pod.Process.Step probe nodeName x act { x' with pid2pod := x.pid2pod } := by
  obtain ⟨act, x', hact, hstep⟩ := Pid2Pod.Process.exists_delivery hdec nodeName hfit hwait
  have hindex : x' = { x'.toPipe with pid2pod := x.pid2pod } := by
    cases hstep with
    | notification _ => cases hact
    | hook _ _ => cases hact
    | read _ _ _ _ => rfl
    | receive _ => rfl
  refine ⟨act, hact, ?_, x'.toPipe, hindex ▸ hstep⟩
  cases act with
  | notification _ => cases hact
  | _ => rfl

/-- While something waits, one of the parties has a turn. -/
theorem exists_delivery (parseIP : GoString → Http.NetIP) (nodeName : GoString)
    (api : PointApi P) (hs : s.Sound) (hwait : ¬ s.Drained) :
    ∃ act s', act.IsDelivery ∧ Step parseIP nodeName api s act s' := by
  cases hreceived : s.received with
  | some m =>
    obtain ⟨p, db, hdb⟩ := (Influxdb.exists_step s.db).1 m
    exact ⟨.write m p, _, trivial, .write hreceived hdb⟩
  | none =>
    cases hbuffer : s.ch.buffer with
    | cons m ms => exact ⟨.receive m, _, trivial, .receive hreceived (.receive hbuffer)⟩
    | nil =>
      by_cases hbacklog : s.ch.backlog = 0
      · -- the channel is empty and no `Gather` waits
        have hwaiting := Channel.backlog_eq_zero_iff.mp hbacklog
        by_cases hhttp : s.http.Drained
        · by_cases hoomkill : s.oomkillProcess.Drained
          · have htcpsynbl : ¬ s.tcpsynblProcess.Drained := fun h =>
              hwait ⟨hhttp, hoomkill, h, hwaiting, hbuffer, hreceived⟩
            obtain ⟨act, hact, hnote, x, hstep⟩ :=
              exists_pipe_delivery Tcpsynbl.decodes_probe nodeName hs.tcpsynbl htcpsynbl
            obtain ⟨ch, hoffers⟩ := exists_offers (hwaiting .tcpsynbl)
              (act.receive?.map fun e => [e.covertMetric])
            exact ⟨.tcpsynbl act _, _, hact, .tcpsynbl hstep hnote hoffers⟩
          · obtain ⟨act, hact, hnote, x, hstep⟩ :=
              exists_pipe_delivery Oomkill.decodes_probe nodeName hs.oomkill hoomkill
            obtain ⟨ch, hoffers⟩ := exists_offers (hwaiting .oomkill)
              (act.receive?.map fun e => [e.covertMetric])
            exact ⟨.oomkill act _, _, hact, .oomkill hstep hnote hoffers⟩
        · obtain ⟨act, x, hact, hstep⟩ :=
            Http.Process.exists_delivery parseIP nodeName hs.registered hhttp
          obtain ⟨ch, hoffers⟩ := exists_offers (hwaiting .http) (httpRound s.http act x)
          exact ⟨.http act _, _, hact, .http hstep hoffers⟩
      · obtain ⟨plugin, m, ch, h⟩ := exists_send hbacklog
          (show s.ch.buffer.length < room by rw [hbuffer]; decide)
        exact ⟨.send plugin m, _, trivial, .send h⟩

/-- When nothing waits, nobody has a turn. -/
theorem Drained.stuck (hdrained : s.Drained) :
    ¬ ∃ act t, act.IsDelivery ∧ Step parseIP nodeName api s act t := by
  rintro ⟨act, t, hact, hstep⟩
  cases hstep with
  | pod _ => cases hact
  | http h _ =>
    cases h with
    | read _ _ hpackets => exact absurd (hdrained.http.1.symm.trans hpackets) (by simp)
    | receive hsending => exact absurd (hdrained.http.2.symm.trans hsending) (by simp)
    | _ => cases hact
  | oomkill h _ _ => exact hdrained.oomkill.stuck ⟨_, _, hact, h⟩
  | tcpsynbl h _ _ => exact hdrained.tcpsynbl.stuck ⟨_, _, hact, h⟩
  | @send plugin _ _ h =>
    cases h with
    | send hwaiting _ =>
      rw [hdrained.waiting plugin] at hwaiting
      cases hwaiting
  | receive _ h =>
    cases h with
    | receive hbuffer =>
      rw [hdrained.buffer] at hbuffer
      cases hbuffer
  | write hreceived _ =>
    rw [hdrained.received] at hreceived
    cases hreceived
  | commit _ => cases hact

/-! ### Whole runs -/

theorem Runs.length_le (h : Runs parseIP nodeName api s acts s')
    (hacts : ∀ act ∈ acts, act.IsDelivery) (hs : s.Sound) : acts.length ≤ s.turnsLeft :=
  Machines.Runs.length_le (I := Action.IsDelivery) (μ := turnsLeft) (P := Sound)
    (fun _ _ _ hstep hact hs => hstep.turnsLeft_lt hact hs)
    (fun _ _ _ hstep hact hs => hstep.sound hact hs) h hacts hs

theorem Runs.sound_of_delivery (h : Runs parseIP nodeName api s acts s')
    (hacts : ∀ act ∈ acts, act.IsDelivery) (hs : s.Sound) : s'.Sound := by
  induction h with
  | nil => exact hs
  | concat _ hstep ih =>
    exact hstep.sound (hacts _ (by simp)) (ih fun b hb => hacts b (List.mem_append_left _ hb))

theorem exists_drained (hs : s.Sound) : ∃ acts s', Runs parseIP nodeName api s acts s' ∧
    (∀ act ∈ acts, act.IsDelivery) ∧ s'.Drained := by
  obtain ⟨acts, s', hrun, hacts, -, hdrained⟩ := Machines.exists_runs_of_progress
    (I := Action.IsDelivery) (μ := turnsLeft) (P := Sound) (G := Drained)
    (fun _ _ _ hstep hact hs => hstep.turnsLeft_lt hact hs)
    (fun _ _ _ hstep hact hs => hstep.sound hact hs)
    (fun _ hs hwait => exists_delivery parseIP nodeName api hs hwait) hs
  exact ⟨acts, s', hrun, hacts, hdrained⟩

omit [Inhabited P] in
/-- The turns are turns of the HTTP plugin, too. -/
theorem isDelivery_of_http {acts : List (Action P)} (hacts : ∀ act ∈ acts, act.IsDelivery)
    {act : Http.Process.Action} (hact : act ∈ acts.filterMap Action.http?) : act.IsDelivery := by
  obtain ⟨b, hb, hact⟩ := List.mem_filterMap.mp hact
  have hdelivery := hacts b hb
  cases b with
  | http act' round =>
    cases hact
    exact hdelivery
  | _ => cases hact

omit [Inhabited P] in
/-- The turns are turns of the OOM plugin, too. -/
theorem isDelivery_of_oomkill {acts : List (Action P)} (hacts : ∀ act ∈ acts, act.IsDelivery)
    {act : Pid2Pod.Process.Action Oomkill.Hook Oomkill.Event}
    (hact : act ∈ acts.filterMap Action.oomkill?) : act.IsDelivery := by
  obtain ⟨b, hb, hact⟩ := List.mem_filterMap.mp hact
  have hdelivery := hacts b hb
  cases b with
  | pod e => cases hdelivery
  | oomkill act' round =>
    cases hact
    exact hdelivery
  | _ => cases hact

/-- The calls of `oom_kill_process` whose records wait. -/
def waitingKills (acts : List (Action P)) : List Oomkill.Hook :=
  (Pid2Pod.Process.submitting Oomkill.probe (acts.filterMap Action.oomkill?)).drop
    (Pid2Pod.Process.reads (acts.filterMap Action.oomkill?)).length

theorem forall_waitingKills_iff (h : Runs parseIP nodeName api {} acts s) :
    (∀ c ∈ waitingKills acts, c.Terminated) ↔
      Pid2Pod.Process.AllFit Oomkill.probe (fun info => Oomkill.HasNuls info.toOomkillEvent)
        s.oomkillProcess := by
  have hrun : Pid2Pod.Process.Runs Oomkill.probe nodeName {} _ s.oomkillProcess := Runs.oomkill h
  rw [Pid2Pod.Process.Runs.allFit_iff Oomkill.decodes_probe hrun]
  exact (Pid2Pod.Process.forall_drop_submitting_iff _ _
    fun _ _ hrecord => Oomkill.Hook.hasNuls_iff hrecord).symm

theorem Runs.sound (h : Runs parseIP nodeName api {} acts s)
    (hstart : s.http.agent.start = .registered)
    (hterm : ∀ c ∈ waitingKills acts, c.Terminated) : s.Sound := by
  refine ⟨hstart, (forall_waitingKills_iff h).mp hterm, ?_⟩
  have hrun : Pid2Pod.Process.Runs Tcpsynbl.probe nodeName {} _ s.tcpsynblProcess :=
    Runs.tcpsynbl h
  exact (Pid2Pod.Process.Runs.allFit_iff Tcpsynbl.decodes_probe hrun).mpr fun _ _ => trivial

/-- When nothing waits, all that the plugins have produced was written. -/
theorem Runs.delivery_of_drained (hapi : Influxdb.PointApi.Lawful api view)
    (h : Runs parseIP nodeName api {} acts s) (hdrained : s.Drained) :
    Delivery view s (sends acts) [] := by
  have hdelivery := Runs.delivery hapi h
  have hrest : (sends acts).drop (writtenCount acts) = [] := by
    have hmap := hdelivery.rest_eq
    rw [hdrained.received, hdrained.buffer] at hmap
    exact List.map_eq_nil_iff.mp hmap
  rw [hrest, List.take_of_length_le (List.drop_eq_nil_iff.mp hrest)] at hdelivery
  exact hdelivery

/-- **The agent does not get stuck**: with the HTTP plugin in its loop, all that waits can be
brought into the client of the database exactly when no name without a NUL is among it.  Then every
way of taking turns does so, after a bounded number of them. -/
theorem agent_drains_iff (hapi : Influxdb.PointApi.Lawful api view)
    (h : Runs parseIP nodeName api {} acts s) (hstart : s.http.agent.start = .registered) :
    ((∃ acts' s', Runs parseIP nodeName api s acts' s' ∧
      (∀ act ∈ acts', act.IsDelivery) ∧ s'.Drained) ↔ ∀ c ∈ waitingKills acts, c.Terminated) ∧
    ((∀ c ∈ waitingKills acts, c.Terminated) →
      ∀ acts' s', Runs parseIP nodeName api s acts' s' → (∀ act ∈ acts', act.IsDelivery) →
        acts'.length ≤ s.turnsLeft ∧
        ((¬ ∃ act t, act.IsDelivery ∧ Step parseIP nodeName api s' act t) →
          s'.Drained ∧ Delivery view s' (sends (acts ++ acts')) [])) := by
  refine ⟨⟨?_, fun hterm => exists_drained (Runs.sound h hstart hterm)⟩, ?_⟩
  · rintro ⟨acts', s', h', hacts', hdrained⟩
    rw [forall_waitingKills_iff h]
    have hrun : Pid2Pod.Process.Runs Oomkill.probe nodeName {} _ s.oomkillProcess :=
      Runs.oomkill h
    rw [Pid2Pod.Process.Runs.allFit_iff Oomkill.decodes_probe hrun,
      ← Pid2Pod.Process.Runs.exists_drained_iff Oomkill.decodes_probe hrun]
    exact ⟨_, s'.oomkillProcess, Runs.oomkill h', fun _ => isDelivery_of_oomkill hacts',
      hdrained.oomkill⟩
  · intro hterm acts' s' h' hacts'
    have hs := Runs.sound h hstart hterm
    refine ⟨Runs.length_le h' hacts' hs, fun hstuck => ?_⟩
    have hs' : s'.Sound := Runs.sound_of_delivery h' hacts' hs
    have hdrained : s'.Drained := by
      by_contra hwait
      exact hstuck (exists_delivery parseIP nodeName api hs' hwait)
    exact ⟨hdrained, Runs.delivery_of_drained hapi (h.append h') hdrained⟩

section Sample

open Oomkill (shortKill)
open Http (parseIPv4)
open Endpoint2Pod (node)

/-- A run of the HTTP plugin in which its `Gather` gets nothing is a run of the agent. -/
theorem exists_runs_of_http (api : PointApi P)
    {acts : List Http.Process.Action} {x : Http.Process}
    (h : Http.Process.Runs parseIP nodeName {} acts x) (htimeds : Http.Process.timeds acts = []) :
    ∃ acts' : List (Action P), Runs parseIP nodeName api {} acts' { http := x } ∧
      acts'.filterMap Action.oomkill? = [] := by
  have hidle : ∀ act ∈ acts, act.timed? = none := by
    rw [Http.Process.timeds, List.filterMap_eq_nil_iff] at htimeds
    exact htimeds
  refine ⟨acts.map fun act => Action.http act none, ?_, ?_⟩
  · refine Machines.Runs.lift (f := fun x => ({ http := x } : Agent P)) ?_ h hidle
    intro x act x' hstep hact
    have hround : httpRound x act x' = none := by
      rw [httpRound, hact]
      rfl
    have hoffers : Offers .http (httpRound x act x') ({ http := x } : Agent P).ch {} := by
      rw [hround]
      exact .idle
    have hlifted : Step parseIP nodeName api ({ http := x } : Agent P) _ _ :=
      .http hstep hoffers
    rw [hround] at hlifted
    exact hlifted
  · rw [List.filterMap_map, List.filterMap_eq_nil_iff]
    exact fun _ _ => rfl

/-- A record of an exchange and one of an OOM kill wait. -/
theorem exists_runs_two : ∃ (acts : List (Action Influxdb.Point)) (s : Agent Influxdb.Point),
    Runs parseIPv4 node Influxdb.plainApi {} acts s ∧
    s.http.agent.start = .registered ∧ s.http.packets.length = 1 ∧ s.oomkill.events.length = 1 ∧
    s.turnsLeft = 10 ∧ waitingKills acts = [shortKill] ∧
    Pid2Pod.Process.submitting Oomkill.probe (acts.filterMap Action.oomkill?) = [shortKill] ∧
    ∃ m, s.http.outlook = [m] := by
  obtain ⟨_, x, _, m, _, hhttp, hstart, hsending, hpackets, hgather, hturn, -, htimeds, -⟩ :=
    Http.exists_runs_waiting
  obtain ⟨acts, h, hkills⟩ := exists_runs_of_http Influxdb.plainApi hhttp htimeds
  have hrun := Machines.Runs.concat h (.oomkill (.hook shortKill fun _ => 0) rfl .idle)
  have hone : x.packets.length = 1 := by
    rw [hpackets]
    rfl
  refine ⟨_, _, hrun, hstart, hone, rfl, ?_, ?_, ?_, m, ?_⟩
  · show httpTurns x + 5 + 0 + 3 * 0 + 2 * 0 + 0 = 10
    rw [httpTurns, hone, hsending]
    rfl
  · rw [waitingKills, List.filterMap_append, hkills]
    rfl
  · rw [List.filterMap_append, hkills]
    rfl
  · show x.outlook = [m]
    rw [Http.Process.outlook, hgather, hsending, hpackets, List.filterMap_cons_some hturn]
    rfl

theorem forall_terminated_shortKill : ∀ c ∈ [shortKill], c.Terminated := by
  rw [List.forall_mem_singleton]
  exact Oomkill.terminated_shortKill

/-- The two records, when nothing waits any more. -/
theorem exists_runs_two_drained : ∃ (acts : List (Action Influxdb.Point))
    (s : Agent Influxdb.Point) (m : Http.Traffic), Runs parseIPv4 node Influxdb.plainApi {} acts s ∧
    s.Drained ∧
    Pid2Pod.Process.submitting Oomkill.probe (acts.filterMap Action.oomkill?) = [shortKill] ∧
    Http.traffics s.http.gather.sent = [m] := by
  obtain ⟨acts, t, h, hstart, -, -, -, hwaiting, hsub, m, hm⟩ := exists_runs_two
  have hterm : ∀ c ∈ waitingKills acts, c.Terminated := by
    rw [hwaiting]
    exact forall_terminated_shortKill
  obtain ⟨acts', s, h', hacts', hdrained⟩ := exists_drained (Runs.sound h hstart hterm)
  refine ⟨acts ++ acts', s, m, h.append h', hdrained, ?_, ?_⟩
  · rw [List.filterMap_append, Pid2Pod.Process.submitting_append_of_delivery _ _
      (fun _ => isDelivery_of_oomkill hacts'), hsub]
  · rw [← hdrained.http.outlook_eq, ← hm]
    exact Http.Process.Runs.outlook_eq (Runs.http h') fun _ => isDelivery_of_http hacts'

/-- In the end nothing waits. -/
theorem agent_drains_iff_of_two : ∃ (acts acts' : List (Action Influxdb.Point)) (s s' : Agent _),
    Runs parseIPv4 node Influxdb.plainApi {} acts s ∧
    s.http.packets.length = 1 ∧ s.oomkill.events.length = 1 ∧
    Runs parseIPv4 node Influxdb.plainApi s acts' s' ∧ acts'.length ≤ 10 ∧ s'.Drained ∧
    s'.points = (sends (acts ++ acts')).map fun x => Influxdb.Point.ofMetric x.2 := by
  obtain ⟨acts, s, hrun, hstart, hpackets, hevents, hturns, hwaiting, -⟩ := exists_runs_two
  have hterm : ∀ c ∈ waitingKills acts, c.Terminated := by
    rw [hwaiting]
    exact forall_terminated_shortKill
  obtain ⟨hdrains, hall⟩ := agent_drains_iff lawful_plainApi hrun hstart
  obtain ⟨acts', s', hrun', hacts', hdrained⟩ := hdrains.mpr hterm
  obtain ⟨hlen, hend⟩ := hall hterm acts' s' hrun' hacts'
  obtain ⟨-, hdelivery⟩ := hend hdrained.stuck
  refine ⟨acts, acts', s, s', hrun, hpackets, hevents, hrun', ?_, hdrained, ?_⟩
  · rw [← hturns]
    exact hlen
  · have hpoints := hdelivery.points_eq
    rw [List.map_id] at hpoints
    exact hpoints

end Sample

end Kubebpfbox.Main.Agent
