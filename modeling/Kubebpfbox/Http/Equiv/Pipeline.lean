import Kubebpfbox.Http.Equiv.FilterKey
import Kubebpfbox.Http.Equiv.Gather
import Kubebpfbox.Http.Equiv.History
import Kubebpfbox.Http.Equiv.Record
import Kubebpfbox.Http.Equiv.Startup
import Kubebpfbox.Lib.Lists

/-!
# From the frames to the metrics

Whole runs of the HTTP plugin (`Process.Runs`).

* `Runs.submitted`: the samples that `Start` has read and those that still wait in the ring buffer
  are the records the kernel program submitted, in order.
* `Runs.decoded`: what `Gather` has taken and what `Start` is sending is what decoding made of the
  samples, in order.
* `Process.Runs.exists_outcomes`: every record that `Start` has read has its outcome, and
  `Gather.Runs.exists_closes`: every tick has its `RED`s.
* `traffics_are_exchanges`: so the `Traffic`s that are sent belong to exchanges of different
  requests, in the order of the responses, each decoded with the index that `Start` found when it
  read the record.

A record and the read of it belong together (`Process.ReadsNext`): the read takes the first record
that was submitted and not read yet, and its sample is that record.
-/

namespace Kubebpfbox.Http

open Golang Slots Lists

/-! ### The records of a trace -/

theorem requestMapAfter_concat (m : RequestMap) (tr : List Frame) (x : Frame) :
    requestMapAfter m (tr ++ [x])
      = (socketFilterHttp x.1 x.2 (requestMapAfter m tr)).requestMap := by
  rw [requestMapAfter, List.foldl_append]
  rfl

theorem submittedAt_append_of_lt {m : RequestMap} {tr : List Frame} {j : ℕ} (h : j < tr.length)
    (tr' : List Frame) : submittedAt m (tr ++ tr') j = submittedAt m tr j := by
  rw [submittedAt, submittedAt, List.getElem?_append_left h, List.take_append_of_le_length h.le]

theorem submittedAt_concat_length (m : RequestMap) (tr : List Frame) (x : Frame) :
    submittedAt m (tr ++ [x]) tr.length
      = (socketFilterHttp x.1 x.2 (requestMapAfter m tr)).submitted := by
  rw [submittedAt, List.getElem?_concat_length, Option.bind_some, List.take_left]

theorem submissions_concat (m : RequestMap) (tr : List Frame) (x : Frame) :
    submissions m (tr ++ [x]) = submissions m tr ++
      ((socketFilterHttp x.1 x.2 (requestMapAfter m tr)).submitted.map (tr.length, ·)).toList := by
  unfold submissions
  rw [List.length_append, List.length_singleton, List.range_succ, List.filterMap_append]
  congr 1
  · refine List.filterMap_congr fun j hj => ?_
    rw [submittedAt_append_of_lt (List.mem_range.mp hj)]
  · rw [List.filterMap_cons, submittedAt_concat_length]
    cases (socketFilterHttp x.1 x.2 (requestMapAfter m tr)).submitted <;> rfl

theorem mem_submissions {m : RequestMap} {tr : List Frame} {x : ℕ × Packet} :
    x ∈ submissions m tr ↔ submittedAt m tr x.1 = some x.2 := by
  unfold submissions
  rw [List.mem_filterMap]
  constructor
  · rintro ⟨j, -, hj⟩
    obtain ⟨p, hp, rfl⟩ := Option.map_eq_some_iff.mp hj
    exact hp
  · intro h
    refine ⟨x.1, ?_, ?_⟩
    · rw [List.mem_range]
      by_contra hge
      rw [submittedAt, List.getElem?_eq_none (by omega)] at h
      cases h
    · rw [h]
      rfl

/-- The records are in the order of the frames. -/
theorem pairwise_submissions (m : RequestMap) (tr : List Frame) :
    (submissions m tr).Pairwise fun x y => x.1 < y.1 := by
  unfold submissions
  rw [List.pairwise_filterMap]
  refine List.pairwise_lt_range.imp ?_
  intro j j' hlt x hx y hy
  obtain ⟨p, -, rfl⟩ := Option.map_eq_some_iff.mp hx
  obtain ⟨q, -, rfl⟩ := Option.map_eq_some_iff.mp hy
  exact hlt

/-! ### What `Gather` sends -/

/-- The `Traffic`, if it is one. -/
def Sent.traffic? : Sent → Option Traffic
  | traffic m => some m
  | red _ => none

/-- The `Traffic`s among the values that are sent. -/
def traffics (l : List Sent) : List Traffic := l.filterMap Sent.traffic?

theorem traffics_append (l l' : List Sent) : traffics (l ++ l') = traffics l ++ traffics l' :=
  List.filterMap_append

theorem traffics_flush (g : Gather) (k : GoString) :
    traffics (g.flush k).sent = traffics g.sent := by
  unfold Gather.flush
  cases g.redMetric.lookup k with
  | none => rfl
  | some v => exact (traffics_append _ _).trans (List.append_nil _)

/-- A tick sends no `Traffic`. -/
theorem traffics_tick (g : Gather) (order : List GoString) :
    traffics (g.tick order).sent = traffics g.sent := by
  unfold Gather.tick
  induction order generalizing g with
  | nil => rfl
  | cons k order ih => rw [List.foldl_cons, ih, traffics_flush]

/-- The loop sends every `Traffic` it receives, at once. -/
theorem traffics_of_runs {l : List (Timed Traffic)} {g : Gather} (h : Gather.Runs l g) :
    traffics g.sent = Timed.values l := by
  induction h with
  | nil => rfl
  | concat _ hstep ih =>
    cases hstep with
    | receive m =>
      rw [Timed.values_concat_value, ← ih]
      exact traffics_append _ _
    | tick _ => rw [traffics_tick, ih, Timed.values_concat_tick]

section Reds

open Gather Timed

theorem reds_map_red (vs : List RED) : reds (vs.map .red) = vs := by
  rw [reds, List.filterMap_map]
  exact List.filterMap_some

/-- A `RED` that was sent is what the records of its pod leave behind at some tick. -/
theorem Gather.Runs.exists_tally {l : List (Timed Traffic)} {g : Gather} (h : Gather.Runs l g)
    {v : RED} (hv : v ∈ reds g.sent) : ∃ l' v', l' ++ [.tick] <+: l ∧
      tally (ofKey Traffic.podName v.podName (window l')) = some v' ∧ v = v'.withRates := by
  induction h with
  | nil => cases hv
  | @concat l g g' t h hstep ih =>
    have hearlier : v ∈ reds g.sent → ∃ l' v', l' ++ [.tick] <+: l ++ [t] ∧
        tally (ofKey Traffic.podName v.podName (window l')) = some v' ∧ v = v'.withRates := by
      intro hmem
      obtain ⟨l', v', htick, htally⟩ := ih hmem
      exact ⟨l', v', htick.trans (List.prefix_append _ _), htally⟩
    cases t with
    | value m =>
      cases hstep with
      | receive m =>
        rw [receive, reds_append, reds_traffic, List.append_nil] at hv
        exact hearlier hv
    | tick =>
      obtain ⟨vs, hsent, -, -⟩ := step_tick h.aggregates hstep
      rw [hsent, reds_append, reds_map_red] at hv
      rcases List.mem_append.mp hv with hmem | hvs
      · exact hearlier hmem
      · obtain ⟨v', htally, rfl⟩ := tally_of_sent h.aggregates hstep hsent v hvs
        exact ⟨l, v', List.prefix_rfl, htally, rfl⟩

/-- What a tick sends for the window it closes: one `RED` for every pod. -/
structure Gather.Closes (w : List Traffic) (vs : List RED) : Prop where
  nodup : (vs.map RED.podName).Nodup
  mem_iff : ∀ k, k ∈ vs.map RED.podName ↔ k ∈ w.map Traffic.podName
  tally : ∀ v ∈ vs, ∃ v', tally (ofKey Traffic.podName v.podName w) = some v' ∧ v = v'.withRates

/-- The `RED`s that were sent are those of the ticks, one after another. -/
theorem Gather.Runs.exists_closes {l : List (Timed Traffic)} {g : Gather} (h : Gather.Runs l g) :
    ∃ vss, List.Forall₂ Closes (closed l) vss ∧ reds g.sent = vss.flatten := by
  induction h with
  | nil => exact ⟨[], .nil, rfl⟩
  | @concat l g g' t h hstep ih =>
    obtain ⟨vss, hall, hreds⟩ := ih
    cases t with
    | value m =>
      refine ⟨vss, ?_, ?_⟩
      · rw [closed_concat_value]
        exact hall
      · cases hstep with
        | receive m => rw [receive, reds_append, reds_traffic, List.append_nil, hreds]
    | tick =>
      obtain ⟨vs, hsent, -, hreports⟩ := step_tick h.aggregates hstep
      refine ⟨vss ++ [vs], ?_, ?_⟩
      · rw [closed_concat_tick]
        refine List.rel_append hall (.cons ⟨hreports.nodup, hreports.mem_iff, ?_⟩ .nil)
        exact tally_of_sent h.aggregates hstep hsent
      · rw [hsent, reds_append, hreds, reds_map_red, List.flatten_append, List.flatten_singleton]

end Reds

/-! ### Runs of the process -/

namespace Process

variable {parseIP : GoString → NetIP} {nodeName : GoString} {acts acts' : List Action}
  {s s' : Process} {act : Action}

theorem frames_concat (acts : List Action) (act : Action) :
    frames (acts ++ [act]) = frames acts ++ act.frame?.toList :=
  Machines.filterMap_concat _ acts act

theorem reads_concat (acts : List Action) (act : Action) :
    reads (acts ++ [act]) = reads acts ++ act.read?.toList := Machines.filterMap_concat _ acts act

theorem timeds_concat (acts : List Action) (act : Action) :
    timeds (acts ++ [act]) = timeds acts ++ act.timed?.toList :=
  Machines.filterMap_concat _ acts act

theorem notifications_concat (acts : List Action) (act : Action) :
    notifications (acts ++ [act]) = notifications acts ++ act.notification?.toList :=
  Machines.filterMap_concat _ acts act

/-- `request_map` is what the frames made of it. -/
theorem Runs.requestMap_eq (h : Runs parseIP nodeName {} acts s) :
    s.requestMap = requestMapAfter ∅ (frames acts) := by
  induction h with
  | nil => rfl
  | concat _ hstep ih =>
    rw [frames_concat]
    cases hstep with
    | frame a pad =>
      rw [Action.frame?, Option.toList_some, requestMapAfter_concat, ← ih]
    | _ =>
      rw [Action.frame?, Option.toList_none, List.append_nil]
      exact ih

/-- The sample is the record at that position, read back. -/
def SampleOf (x : ℕ × Packet) (rawSample : List UInt8) : Prop :=
  HttpPacket.read rawSample = some x.2.toHttpPacket

/-- **The ring buffer**: what was read and what waits are the records, in order. -/
theorem Runs.submitted (h : Runs parseIP nodeName {} acts s) :
    List.Forall₂ SampleOf (submissions ∅ (frames acts))
      ((reads acts).map Prod.snd ++ s.packets) := by
  induction h with
  | nil => exact List.Forall₂.nil
  | @concat acts t t' act h hstep ih =>
    rw [frames_concat, reads_concat]
    cases hstep with
    | frame a pad =>
      rw [Action.frame?, Action.read?, Option.toList_some, Option.toList_none, List.append_nil,
        submissions_concat, ← Runs.requestMap_eq h, ← List.append_assoc]
      refine List.rel_append ih ?_
      cases (socketFilterHttp t.agent.world.outer a t.requestMap).submitted with
      | none => exact List.Forall₂.nil
      | some p => exact .cons (HttpPacket.read_toBytes p pad) .nil
    | read _ _ hpackets =>
      rw [Action.frame?, Action.read?, Option.toList_some, Option.toList_none, List.append_nil,
        List.map_append, List.append_assoc]
      rw [hpackets] at ih
      exact ih
    | _ =>
      rw [Action.frame?, Action.read?, Option.toList_none, Option.toList_none, List.append_nil,
        List.append_nil]
      exact ih

/-- **The channel `h.ch`**: what was taken and what is being sent is what decoding made of the
samples, in order. -/
theorem Runs.decoded (h : Runs parseIP nodeName {} acts s) :
    Timed.values (timeds acts) ++ s.sending.toList
      = (reads acts).filterMap fun x => startTurn x.1 x.2 := by
  induction h with
  | nil => rfl
  | @concat acts t t' act h hstep ih =>
    rw [timeds_concat, reads_concat, List.filterMap_append, ← ih]
    cases hstep with
    | read _ hsending _ =>
      rw [hsending, Action.timed?, Action.read?]
      cases hturn : startTurn t.agent.world.endpoint2Pod _ <;> simp [hturn]
    | receive hsending =>
      rw [hsending, Action.timed?, Action.read?]
      simp
    | tick _ =>
      rw [Action.timed?, Action.read?]
      simp
    | _ =>
      rw [Action.timed?, Action.read?]
      simp

/-- The loop of `Gather` sees a run of its own. -/
theorem Runs.gather (h : Runs parseIP nodeName {} acts s) : Gather.Runs (timeds acts) s.gather := by
  induction h with
  | nil => exact .nil
  | concat _ hstep ih =>
    rw [timeds_concat]
    cases hstep with
    | receive _ => exact ih.concat (.receive _)
    | tick horder => exact ih.concat (.tick horder)
    | _ =>
      rw [Action.timed?, Option.toList_none, List.append_nil]
      exact ih

theorem Runs.traffics_eq (h : Runs parseIP nodeName {} acts s) :
    traffics s.gather.sent ++ s.sending.toList
      = (reads acts).filterMap fun x => startTurn x.1 x.2 := by
  rw [traffics_of_runs h.gather, h.decoded]

variable (parseIP nodeName) in
/-- After these steps `Start` has this sample in front of it: the record is the first one that was
submitted and not read yet, and the sample is that record. -/
structure ReadsNext (pre : List Action) (t : Process) (x : ℕ × Packet) (rawSample : List UInt8) :
    Prop where
  runs : Runs parseIP nodeName {} pre t
  next : (submissions ∅ (frames pre))[(reads pre).length]? = some x
  sample : SampleOf x rawSample

theorem ReadsNext.submittedAt_eq {t : Process} {x : ℕ × Packet} {rawSample : List UInt8}
    (h : ReadsNext parseIP nodeName acts t x rawSample) :
    submittedAt ∅ (frames acts) x.1 = some x.2 :=
  mem_submissions.mp (List.mem_of_getElem? h.next)

variable (parseIP nodeName) in
/-- `Start` read the record in a state of the run, with the index of that state. -/
def ReadOf (acts : List Action) (x : ℕ × Packet)
    (y : Endpoint2Pod (FilterSet UInt32) × List UInt8) : Prop :=
  ∃ pre post t, acts = pre ++ .read y.1 y.2 :: post ∧ t.agent.world.endpoint2Pod = y.1 ∧
    ReadsNext parseIP nodeName pre t x y.2

theorem ReadOf.concat {x : ℕ × Packet} {y : Endpoint2Pod (FilterSet UInt32) × List UInt8}
    (h : ReadOf parseIP nodeName acts x y) (act : Action) :
    ReadOf parseIP nodeName (acts ++ [act]) x y := by
  obtain ⟨pre, post, t, rfl, hread⟩ := h
  exact ⟨pre, post ++ [act], t, by rw [List.append_assoc, List.cons_append], hread⟩

/-- The samples that were read, and the records they are. -/
theorem Runs.forall₂_reads (h : Runs parseIP nodeName {} acts s) :
    List.Forall₂ (ReadOf parseIP nodeName acts)
      ((submissions ∅ (frames acts)).take (reads acts).length) (reads acts) := by
  induction h with
  | nil => exact .nil
  | @concat acts t t' act h hstep ih =>
    have hkeep := ih.imp fun _ _ hread => hread.concat act
    have hsubmitted : List.Forall₂ SampleOf (submissions ∅ (frames acts))
        ((reads acts).map Prod.snd ++ t.packets) := Runs.submitted h
    have hlen := hsubmitted.length_eq
    rw [List.length_append, List.length_map] at hlen
    rw [frames_concat, reads_concat]
    cases hstep with
    | frame a pad =>
      -- the new record is behind those that were read
      rw [Action.frame?, Action.read?, Option.toList_some, Option.toList_none, List.append_nil,
        submissions_concat, List.take_append_of_le_length (by omega)]
      exact hkeep
    | @read rawSample packets _ _ hpackets =>
      rw [Action.frame?, Action.read?, Option.toList_some, Option.toList_none, List.append_nil,
        List.length_append, List.length_singleton]
      rw [hpackets] at hsubmitted
      have hdrop := List.forall₂_drop_append _ _ _ hsubmitted
      rw [List.length_map] at hdrop
      -- the sample is the first record that was not read
      obtain ⟨x, rest, hx⟩ : ∃ x rest,
          (submissions ∅ (frames acts)).drop (reads acts).length = x :: rest := by
        cases hd : (submissions ∅ (frames acts)).drop (reads acts).length with
        | nil =>
          rw [hd] at hdrop
          cases hdrop
        | cons x rest => exact ⟨x, rest, rfl⟩
      rw [hx] at hdrop
      have hnext : (submissions ∅ (frames acts))[(reads acts).length]? = some x := by
        rw [← List.head?_drop, hx, List.head?_cons]
      rw [List.take_add, hx, List.take_succ_cons, List.take_zero]
      refine List.rel_append hkeep (.cons ⟨acts, [], t, rfl, rfl, h, hnext, ?_⟩ .nil)
      cases hdrop with
      | cons hsample _ => exact hsample
    | _ =>
      rw [Action.frame?, Action.read?, Option.toList_none, Option.toList_none, List.append_nil,
        List.append_nil]
      exact hkeep

end Process

/-! ### End to end -/

section EndToEnd

variable {parseIP : GoString → NetIP} {nodeName : GoString} {acts : List Process.Action}
  {s : Process}

variable (parseIP nodeName) in
/-- The `Traffic` was made of the exchange that ends with frame `j`: after the frame came, `Start`
read the record of the exchange, and decoded it with the index it found then. -/
def FromExchange (acts : List Process.Action) (j : ℕ) (m : Traffic) : Prop :=
  ∃ pre rawSample post t c i r s method,
    acts = pre ++ .read t.agent.world.endpoint2Pod rawSample :: post ∧
    Process.ReadsNext parseIP nodeName pre t (j, fillResponse (requestPacket r.2 method) s.2)
      rawSample ∧
    ExchangeAt (Process.frames pre) c i j r s ∧ r.method? = some method ∧
    decodeMapItem t.agent.world.endpoint2Pod
      (fillResponse (requestPacket r.2 method) s.2).toHttpPacket = .ok m

theorem startTurn_eq_some {σ : Type} {endpoint2pod : Endpoint2Pod σ} {rawSample : List UInt8}
    {packet : HttpPacket} {m : Traffic} (hread : HttpPacket.read rawSample = some packet) :
    startTurn endpoint2pod rawSample = some m ↔ decodeMapItem endpoint2pod packet = .ok m := by
  simp only [startTurn, hread]
  cases decodeMapItem endpoint2pod packet with
  | error err => simp
  | ok m' => simp

theorem Process.ReadOf.fromExchange {x : ℕ × Packet}
    {y : Endpoint2Pod (FilterSet UInt32) × List UInt8} {m : Traffic}
    (h : Process.ReadOf parseIP nodeName acts x y) (hturn : startTurn y.1 y.2 = some m) :
    FromExchange parseIP nodeName acts x.1 m := by
  obtain ⟨pre, post, t, rfl, hindex, hread⟩ := h
  obtain ⟨c, i, r, s, method, hex, hm, -, -, hp⟩ := submittedAt_eq_some_iff.mp hread.submittedAt_eq
  have hdec : decodeMapItem y.1 x.2.toHttpPacket = .ok m :=
    (startTurn_eq_some hread.sample).mp hturn
  have hx : x = (x.1, fillResponse (requestPacket r.2 method) s.2) := Prod.ext rfl hp
  rw [← hindex] at hdec ⊢
  refine ⟨pre, y.2, post, t, c, i, r, s, method, rfl, ?_, hex, hm, ?_⟩
  · rw [← hx]
    exact hread
  · rw [← hp]
    exact hdec

variable (parseIP nodeName) in
/-- What became of a record: `Start` read it when its turn came, and decoded it with the index of
that moment. -/
def Outcome (acts : List Process.Action) (x : ℕ × Packet) (o : Option Traffic) : Prop :=
  ∃ pre rawSample post t, acts = pre ++ .read t.agent.world.endpoint2Pod rawSample :: post ∧
    Process.ReadsNext parseIP nodeName pre t x rawSample ∧
    o = (decodeMapItem t.agent.world.endpoint2Pod x.2.toHttpPacket).toOption

theorem startTurn_eq_toOption {σ : Type} (endpoint2pod : Endpoint2Pod σ) {rawSample : List UInt8}
    {packet : HttpPacket} (hread : HttpPacket.read rawSample = some packet) :
    startTurn endpoint2pod rawSample = (decodeMapItem endpoint2pod packet).toOption := by
  simp only [startTurn, hread]
  cases decodeMapItem endpoint2pod packet with
  | error err => rfl
  | ok m => rfl

theorem Process.ReadOf.outcome {x : ℕ × Packet} {y : Endpoint2Pod (FilterSet UInt32) × List UInt8}
    (h : Process.ReadOf parseIP nodeName acts x y) :
    Outcome parseIP nodeName acts x (startTurn y.1 y.2) := by
  obtain ⟨pre, post, t, rfl, hindex, hread⟩ := h
  rw [← hindex]
  exact ⟨pre, y.2, post, t, rfl, hread, startTurn_eq_toOption _ hread.sample⟩

/-- Every record that does not wait has its outcome, and the `Traffic`s are what came of them. -/
theorem Process.Runs.exists_outcomes (h : Process.Runs parseIP nodeName {} acts s) :
    ∃ done waiting os, submissions ∅ (Process.frames acts) = done ++ waiting ∧
      waiting.length = s.packets.length ∧
      List.Forall₂ (Outcome parseIP nodeName acts) done os ∧
      traffics s.gather.sent ++ s.sending.toList = os.reduceOption := by
  set n := (Process.reads acts).length with hn
  refine ⟨(submissions ∅ (Process.frames acts)).take n,
    (submissions ∅ (Process.frames acts)).drop n,
    (Process.reads acts).map fun y => startTurn y.1 y.2,
    (List.take_append_drop ..).symm, ?_, ?_, ?_⟩
  · have hdrop := List.forall₂_drop_append _ _ _ h.submitted
    rw [List.length_map, ← hn] at hdrop
    exact hdrop.length_eq
  · rw [List.forall₂_map_right_iff]
    exact h.forall₂_reads.imp fun _ _ hread => hread.outcome
  · rw [h.traffics_eq]
    show _ = ((Process.reads acts).map fun y => startTurn y.1 y.2).filterMap id
    rw [List.filterMap_map]
    rfl

theorem Process.Runs.exists_positions (h : Process.Runs parseIP nodeName {} acts s) :
    ∃ js : List ℕ, js.Pairwise (· < ·) ∧ List.Forall₂ (FromExchange parseIP nodeName acts) js
      (traffics s.gather.sent ++ s.sending.toList) := by
  obtain ⟨l, hsub, hall⟩ := exists_sublist_forall₂_filterMap h.forall₂_reads
    fun y => startTurn y.1 y.2
  rw [← h.traffics_eq] at hall
  refine ⟨l.map Prod.fst, ?_, ?_⟩
  · rw [List.pairwise_map]
    exact (pairwise_submissions ∅ _).sublist (hsub.trans (List.take_sublist _ _))
  · rw [List.forall₂_map_left_iff]
    refine hall.imp ?_
    rintro x m ⟨y, -, hread, hturn⟩
    exact hread.fromExchange hturn

theorem Process.Runs.fromExchange (h : Process.Runs parseIP nodeName {} acts s) {m : Traffic}
    (hm : m ∈ traffics s.gather.sent ++ s.sending.toList) :
    ∃ j, FromExchange parseIP nodeName acts j m := by
  obtain ⟨js, -, hall⟩ := h.exists_positions
  obtain ⟨j, -, hj⟩ := exists_of_forall₂_of_mem hall hm
  exact ⟨j, hj⟩

/-- **End to end**: the `Traffic`s that are sent belong to exchanges of different requests, in the
order of the responses, each decoded with an index that `Start` found after the response came; and
every record is read once, in order. -/
theorem traffics_are_exchanges (h : Process.Runs parseIP nodeName {} acts s) :
    (∃ js : List ℕ, js.Pairwise (· < ·) ∧ List.Forall₂ (FromExchange parseIP nodeName acts) js
      (traffics s.gather.sent ++ s.sending.toList)) ∧
    (submissions ∅ (Process.frames acts)).map (fun x => some x.2.toHttpPacket)
      = ((Process.reads acts).map Prod.snd ++ s.packets).map HttpPacket.read ∧
    traffics s.gather.sent ++ s.sending.toList
      = (Process.reads acts).filterMap fun x => startTurn x.1 x.2 := by
  refine ⟨h.exists_positions, ?_, h.traffics_eq⟩
  have hsub := h.submitted
  rw [← List.forall₂_eq_eq_eq, List.forall₂_map_left_iff, List.forall₂_map_right_iff]
  exact hsub.imp fun _ _ hsample => hsample.symm

end EndToEnd

/-! ### A run with one exchange -/

section Sample

open GoM Kubebpfbox.Core Informer Endpoint2Pod

/-- The provider of the sample service. -/
def webProvider : Provider where
  podName := ascii "web-0"
  nodeName := node
  nameSpace := ascii "default"
  serviceName := ascii "web"

theorem filterKeyOf_hostB : filterKeyOf parseIPv4 (ascii "10.0.0.2") = .ok 0 := by
  have hquad : ascii "10.0.0.2" = dottedQuad 10 0 0 2 := by decide
  rw [hquad, filterKeyOf, parseIPv4_dottedQuad, ipv4ToUint32_v4InV6]

theorem gives_writeFilterIP_hostB :
    Gives (writeFilterIP (filterKeyOf parseIPv4) [⟨ascii "10.0.0.2", 80⟩]) (∅ : FilterSet UInt32)
      none ((∅ : FilterSet UInt32).put 0 1) := by
  have hroom : (∅ : FilterSet UInt32).HasRoom 0 := Or.inr (by decide)
  simp only [writeFilterIP, filterKeyOf_hostB, GoM.eval, pure_bind, gives_bind, gives_get]
  refine ⟨_, _, ⟨rfl, rfl⟩, ?_⟩
  rw [Bpf.HashMap.update_eq_some_put hroom]
  exact gives_bind.mpr ⟨⟨⟩, _, gives_set.mpr rfl, gives_pure.mpr ⟨rfl, rfl⟩⟩

/-- `Start` copies the address of the service that has come, and registers its handlers. -/
theorem exists_runs_registered : ∃ acts a, Process.Runs parseIPv4 node {} acts { agent := a } ∧
    Process.frames acts = [] ∧ Process.reads acts = [] ∧
    Process.notifications acts = [serviceComes] ∧ Process.timeds acts = [] ∧
    a.start = .registered ∧ a.world.providers.lookup ⟨ascii "10.0.0.2", 80⟩ = some webProvider ∧
    a.world.outer = (∅ : FilterSet UInt32).put 0 1 := by
  obtain ⟨w, hw, hprov, houter⟩ : ∃ w,
      Gives (handle node serviceComes) (Agent.initial : Agent UInt32).world ⟨⟩ w ∧
      w.providers = (∅ : GoMap Endpoint Provider).insert ⟨ascii "10.0.0.2", 80⟩ webProvider ∧
      w.outer = ∅ := ⟨_, rfl, rfl, rfl⟩
  have hrange : w.providers.IsRange [⟨ascii "10.0.0.2", 80⟩] := by
    rw [hprov]
    decide
  have hwrite := gives_writeFilterIP_hostB
  rw [← houter] at hwrite
  have h₁ : Process.Runs parseIPv4 node {} _ _ := .concat .nil (.agent (.event hw))
  have h₂ := h₁.concat (.agent (.writeFilterIP rfl hrange hwrite))
  have h₃ := h₂.concat (.agent (.registry rfl))
  refine ⟨_, _, h₃, rfl, rfl, rfl, rfl, rfl, ?_, by rw [houter]⟩
  show w.providers.lookup _ = _
  rw [hprov, Finmap.lookup_insert]

/-- The request of the samples and its answer make one record. -/
theorem submissions_sample {f : FilterIp} (hclient : hostA.word ∉ f) : ∃ method,
    Frame.method? (f, getArrival hostA hostB (200, 1)) = some method ∧
    submissions ∅ [(f, getArrival hostA hostB (200, 1)), (f, okArrival hostA hostB (200, 1))]
      = [(1, fillResponse (requestPacket (getArrival hostA hostB (200, 1)) method)
        (okArrival hostA hostB (200, 1)))] := by
  set r : Frame := (f, getArrival hostA hostB (200, 1))
  set t : Frame := (f, okArrival hostA hostB (200, 1))
  set c := sampleConn hostA hostB (200, 1)
  have hreq : r.SeesRequest c := (seesRequest_iff_requestOn f (plain_getArrival ..) _).mpr
    (requestOn_getArrival hclient hostB (200, 1))
  have hrsp : t.SeesResponse c := (seesResponse_iff_responseOn f (plain_okArrival ..) _).mpr
    (responseOn_okArrival hclient hostB (200, 1))
  obtain ⟨method, hm⟩ := Option.isSome_iff_exists.mp hreq.2.1
  have hroom : (requestMapAfter ∅ ([r, t].take 0)).HasRoom c :=
    Or.inr (show (∅ : RequestMap).size < maxMapConn by decide)
  -- the two frames are one exchange
  have hex : ExchangeAt [r, t] c 0 1 r t :=
    ⟨Nat.zero_lt_one, rfl, rfl, hreq, hrsp, fun l x hl hlt _ => by omega⟩
  have hzero : submittedAt ∅ [r, t] 0 = none := by
    rw [Option.eq_none_iff_forall_ne_some]
    intro p hp
    obtain ⟨_, _, _, _, _, hex', -⟩ := submittedAt_eq_some_iff.mp hp
    exact absurd hex'.lt (Nat.not_lt_zero _)
  have hone : submittedAt ∅ [r, t] 1 = some (fillResponse (requestPacket r.2 method) t.2) :=
    submittedAt_eq_some_iff.mpr ⟨c, 0, r, t, method, hex, hm, hroom, rfl, rfl⟩
  refine ⟨method, hm, ?_⟩
  show submissions ∅ [r, t] = [(1, fillResponse (requestPacket r.2 method) t.2)]
  simp [submissions, List.range_succ, hzero, hone]

/-- A request and its answer, once `Start` is ready: the record waits. -/
theorem exists_runs_waiting : ∃ acts s rawSample m f, Process.Runs parseIPv4 node {} acts s ∧
    s.agent.start = .registered ∧ s.sending = none ∧ s.packets = [rawSample] ∧ s.gather = {} ∧
    startTurn s.agent.world.endpoint2Pod rawSample = some m ∧
    Process.notifications acts = [serviceComes] ∧ Process.timeds acts = [] ∧
    Process.frames acts =
      [(f, getArrival hostA hostB (200, 1)), (f, okArrival hostA hostB (200, 1))] := by
  obtain ⟨acts, a, hrun, hframes, hreads, hnotes, htimeds, hstart, hlook, houter⟩ :=
    exists_runs_registered
  set f : FilterIp := a.world.outer
  have hclient : hostA.word ∉ f := by
    rw [houter, Bpf.HashMap.mem_put (Or.inr (by decide))]
    decide
  set r : Frame := (f, getArrival hostA hostB (200, 1))
  set t : Frame := (f, okArrival hostA hostB (200, 1))
  obtain ⟨method, hm, hsub⟩ := submissions_sample hclient
  obtain ⟨acts₁, s₁, h₁, hframes₁, hreads₁, hnotes₁, htimeds₁, hagent₁, hsending₁, hgather₁⟩ :
      ∃ acts s, Process.Runs parseIPv4 node {} acts s ∧ Process.frames acts = [r, t] ∧
      Process.reads acts = [] ∧ Process.notifications acts = [serviceComes] ∧
      Process.timeds acts = [] ∧ s.agent = a ∧ s.sending = none ∧ s.gather = {} := by
    refine ⟨_, _, (hrun.concat (.frame r.2 fun _ => 0)).concat (.frame t.2 fun _ => 0), ?_, ?_, ?_,
      ?_, rfl, rfl, rfl⟩
    · rw [Process.frames_concat, Process.frames_concat, hframes]
      rfl
    · rw [Process.reads_concat, Process.reads_concat, hreads]
      rfl
    · rw [Process.notifications_concat, Process.notifications_concat, hnotes]
      rfl
    · rw [Process.timeds_concat, Process.timeds_concat, htimeds]
      rfl
  have hring := h₁.submitted
  rw [hframes₁, hreads₁, hsub, List.map_nil, List.nil_append] at hring
  obtain ⟨rawSample, rest, hsample, hnil, hpackets⟩ := List.forall₂_cons_left_iff.mp hring
  obtain rfl := List.forall₂_nil_left_iff.mp hnil
  -- `Start` decodes the record, because the index knows the server
  have hreports : Reports (fillResponse (requestPacket r.2 method) t.2) r.2 t.2 := by
    refine reports_fillResponse (plain_getArrival ..) (plain_okArrival ..) ?_
    rw [← preChar_parse (plain_getArrival ..)]
    exact hm
  have hknown : s₁.agent.world.endpoint2Pod.getPodByEndpoint r.2.skb.dstAddr.dottedQuad
      (Int32.ofNat r.2.skb.dstPort) = some webProvider := by
    rw [(dst_getArrival hostA hostB (200, 1)).1, (dst_getArrival hostA hostB (200, 1)).2, hagent₁]
    exact hlook
  obtain ⟨m, hdec, -⟩ := decodeMapItem_of_reports s₁.agent.world.endpoint2Pod hreports hknown
  exact ⟨acts₁, s₁, rawSample, m, f, h₁, by rw [hagent₁, hstart], hsending₁, hpackets, hgather₁,
    (startTurn_eq_some hsample).mpr hdec, hnotes₁, htimeds₁, hframes₁⟩

/-- `Start` reads the record and `Gather` takes what it sends. -/
theorem exists_runs_exchange : ∃ acts s m f, Process.Runs parseIPv4 node {} acts s ∧
    s.agent.start = .registered ∧ traffics s.gather.sent = [m] ∧
    Process.notifications acts = [serviceComes] ∧
    Process.frames acts =
      [(f, getArrival hostA hostB (200, 1)), (f, okArrival hostA hostB (200, 1))] := by
  obtain ⟨acts, s, rawSample, m, f, h, hstart, hsending, hpackets, hgather, hturn, hnotes, -,
    hframes⟩ := exists_runs_waiting
  refine ⟨_, _, m, f, (h.concat (.read hstart hsending hpackets)).concat (.receive hturn), hstart,
    ?_, ?_, ?_⟩
  · show traffics (s.gather.receive m).sent = [m]
    rw [hgather]
    rfl
  · rw [Process.notifications_concat, Process.notifications_concat, hnotes]
    rfl
  · rw [Process.frames_concat, Process.frames_concat, hframes]
    rfl

theorem traffics_are_exchanges_of_one : ∃ acts s m js, Process.Runs parseIPv4 node {} acts s ∧
    traffics s.gather.sent ++ s.sending.toList = m :: s.sending.toList ∧
    List.Forall₂ (FromExchange parseIPv4 node acts) js (m :: s.sending.toList) := by
  obtain ⟨acts, s, m, _, hrun, -, hsent, -⟩ := exists_runs_exchange
  obtain ⟨js, -, hall⟩ := (traffics_are_exchanges hrun).1
  rw [hsent] at hall
  exact ⟨acts, s, m, js, hrun, by rw [hsent, List.singleton_append], hall⟩

end Sample

end Kubebpfbox.Http
