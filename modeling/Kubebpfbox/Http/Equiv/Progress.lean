import Kubebpfbox.Http.Equiv.Pipeline

/-!
# What the start of the plugin decides

`Start` goes from one stage to the next and never back (`Step.start`).  Until it has registered its
handlers it reads nothing, and when `WriteFilterIP` fails it never does
(`nothing_sent_unless_started`): the kernel program goes on filling the ring buffer, and `Gather`
goes on waiting.

From then on nothing keeps a record from being delivered (`records_delivered`): the turns of `Start`
and of `Gather` alone bring all records that wait out, in order, and they can do nothing else.
-/

namespace Kubebpfbox.Http

open Golang

namespace Process

variable {parseIP : GoString → NetIP} {nodeName : GoString} {acts : List Action} {s s' : Process}
  {act : Action}

/-! ### Before `Start` is ready -/

/-- A stage can only follow the one before it. -/
theorem Step.start (h : Step parseIP nodeName s act s') :
    s'.agent.start = s.agent.start ∨
    s.agent.start = .begun ∧ (s'.agent.start = .written ∨ s'.agent.start = .failed) ∨
    s.agent.start = .written ∧ s'.agent.start = .registered := by
  cases h with
  | agent hagent =>
    cases hagent with
    | event _ => exact Or.inl rfl
    | @writeFilterIP order r m hstart _ _ =>
      refine Or.inr (Or.inl ⟨hstart, ?_⟩)
      cases r with
      | none => exact Or.inl rfl
      | some err => exact Or.inr rfl
    | registry hstart => exact Or.inr (Or.inr ⟨hstart, rfl⟩)
  | _ => exact Or.inl rfl

theorem Step.registered (h : Step parseIP nodeName s act s') (hs : s.agent.start = .registered) :
    s'.agent.start = .registered := by
  rcases h.start with heq | ⟨hbegun, -⟩ | ⟨hwritten, -⟩
  · rw [heq, hs]
  · rw [hs] at hbegun
    cases hbegun
  · rw [hs] at hwritten
    cases hwritten

theorem Step.failed (h : Step parseIP nodeName s act s') (hs : s.agent.start = .failed) :
    s'.agent.start = .failed := by
  rcases h.start with heq | ⟨hbegun, -⟩ | ⟨hwritten, -⟩
  · rw [heq, hs]
  · rw [hs] at hbegun
    cases hbegun
  · rw [hs] at hwritten
    cases hwritten

/-- A tick finds nothing when nothing was received. -/
theorem tick_initial {order : List GoString} (h : ({} : Gather).redMetric.IsRange order) :
    ({} : Gather).tick order = {} := by
  have hnil : order = [] := by
    rw [List.eq_nil_iff_forall_not_mem]
    intro k hk
    exact Finmap.notMem_empty (h.mem_iff.mp hk)
  rw [hnil, Gather.tick, List.foldl_nil]

/-- Nothing was read. -/
structure Idle (acts : List Action) (s : Process) : Prop where
  reads : reads acts = []
  sending : s.sending = none
  gather : s.gather = {}

theorem Runs.idle (h : Runs parseIP nodeName {} acts s) (hs : s.agent.start ≠ .registered) :
    Idle acts s := by
  induction h with
  | nil => exact ⟨rfl, rfl, rfl⟩
  | @concat acts t t' act _ hstep ih =>
    have hidle : Idle acts t := ih fun ht => hs (hstep.registered ht)
    refine ⟨?_, ?_, ?_⟩
    · rw [reads_concat, hidle.reads]
      cases hstep with
      | read hstart => exact absurd hstart hs
      | _ => rfl
    · cases hstep with
      | read hstart => exact absurd hstart hs
      | receive _ => rfl
      | _ => exact hidle.sending
    · cases hstep with
      | receive hsending =>
        rw [hidle.sending] at hsending
        cases hsending
      | tick horder =>
        rw [hidle.gather] at horder
        show t.gather.tick _ = {}
        rw [hidle.gather]
        exact tick_initial horder
      | _ => exact hidle.gather

/-! ### Once it is -/

/-- A turn of `Start`, or `Gather` taking what it sends. -/
def Action.IsDelivery : Action → Prop
  | read _ _ => True
  | receive _ => True
  | agent _ => False
  | frame _ => False
  | tick => False

/-- How many turns it can take to bring out what waits. -/
def turnsLeft (s : Process) : ℕ := 2 * s.packets.length + s.sending.toList.length

/-- What has been sent and what there is to send, with the index as it is. -/
def outlook (s : Process) : List Traffic :=
  traffics s.gather.sent ++ s.sending.toList ++
    s.packets.filterMap (startTurn s.agent.world.endpoint2Pod)

/-- Nothing waits. -/
def Drained (s : Process) : Prop := s.packets = [] ∧ s.sending = none

theorem Drained.outlook_eq (h : s.Drained) : s.outlook = traffics s.gather.sent := by
  rw [outlook, h.1, h.2]
  simp

theorem length_toList_le {α : Type*} (o : Option α) : o.toList.length ≤ 1 := by
  cases o <;> simp

/-- Every turn brings the end nearer. -/
theorem Step.turnsLeft_lt (h : Step parseIP nodeName s act s') (hact : act.IsDelivery) :
    s'.turnsLeft < s.turnsLeft := by
  unfold turnsLeft
  cases h with
  | agent _ => cases hact
  | frame _ _ => cases hact
  | @read rawSample packets _ hsending hpackets =>
    have hone := length_toList_le (startTurn s.agent.world.endpoint2Pod rawSample)
    simp only [hsending, hpackets, List.length_cons, Option.toList_none, List.length_nil]
    omega
  | receive hsending =>
    simp only [hsending, Option.toList_some, Option.toList_none, List.length_cons, List.length_nil]
    omega
  | tick _ => cases hact

/-- No turn changes what is going to be sent. -/
theorem Step.outlook_eq (h : Step parseIP nodeName s act s') (hact : act.IsDelivery) :
    s'.outlook = s.outlook := by
  unfold outlook
  cases h with
  | agent _ => cases hact
  | frame _ _ => cases hact
  | @read rawSample packets _ hsending hpackets =>
    rw [hsending, hpackets]
    cases hturn : startTurn s.agent.world.endpoint2Pod rawSample <;> simp [hturn]
  | @receive m hsending =>
    rw [hsending]
    have hsent : traffics (s.gather.receive m).sent = traffics s.gather.sent ++ [m] :=
      traffics_append _ _
    simp [hsent]
  | tick _ => cases hact

/-- While something waits, `Start` or `Gather` has a turn. -/
theorem exists_delivery (parseIP : GoString → NetIP) (nodeName : GoString)
    (hs : s.agent.start = .registered) (h : ¬ s.Drained) :
    ∃ act s', act.IsDelivery ∧ Step parseIP nodeName s act s' := by
  cases hsending : s.sending with
  | some m => exact ⟨.receive m, _, trivial, .receive hsending⟩
  | none =>
    cases hpackets : s.packets with
    | nil => exact absurd ⟨hpackets, hsending⟩ h
    | cons rawSample packets => exact ⟨.read _ rawSample, _, trivial, .read hs hsending hpackets⟩

theorem Runs.outlook_eq (h : Runs parseIP nodeName s acts s')
    (hacts : ∀ act ∈ acts, act.IsDelivery) : s'.outlook = s.outlook := by
  induction h with
  | nil => rfl
  | concat _ hstep ih =>
    rw [hstep.outlook_eq (hacts _ (by simp))]
    exact ih fun b hb => hacts b (List.mem_append_left _ hb)

end Process

/-! ### Both -/

section Start

variable {parseIP : GoString → NetIP} {nodeName : GoString} {acts : List Process.Action}
  {s : Process}

/-- **Nothing is sent unless `Start` has come to its loop**: all records wait in the ring buffer.
Once `WriteFilterIP` has failed it stays like that, whatever comes. -/
theorem nothing_sent_unless_started (h : Process.Runs parseIP nodeName {} acts s)
    (hs : s.agent.start ≠ .registered) :
    s.gather = {} ∧ s.sending = none ∧
    List.Forall₂ Process.SampleOf (submissions ∅ (Process.frames acts)) s.packets ∧
    (s.agent.start = .failed → ∀ acts' s', Process.Runs parseIP nodeName s acts' s' →
      s'.gather = {} ∧ s'.sending = none ∧
      List.Forall₂ Process.SampleOf (submissions ∅ (Process.frames (acts ++ acts')))
        s'.packets) := by
  have hall : ∀ acts s, Process.Runs parseIP nodeName {} acts s → s.agent.start ≠ .registered →
      s.gather = {} ∧ s.sending = none ∧
        List.Forall₂ Process.SampleOf (submissions ∅ (Process.frames acts)) s.packets := by
    intro acts s h hs
    have hidle := Process.Runs.idle h hs
    have hsubmitted := Process.Runs.submitted h
    rw [hidle.reads, List.map_nil, List.nil_append] at hsubmitted
    exact ⟨hidle.gather, hidle.sending, hsubmitted⟩
  obtain ⟨hgather, hsending, hpackets⟩ := hall acts s h hs
  refine ⟨hgather, hsending, hpackets, fun hfailed acts' s' h' => ?_⟩
  have hfailed' : s'.agent.start = .failed :=
    Machines.Runs.invariant (P := fun s => s.agent.start = .failed)
      (fun _ _ _ hstep ht => hstep.failed ht) h' hfailed
  exact hall _ s' (Machines.Runs.append h h') (by rw [hfailed']; decide)

/-- **Every record is delivered**: once `Start` is in its loop, its turns and those of `Gather`
bring out all that waits, in whatever state the plugin is.  They can take at most two turns for a
record, and send what decoding makes of the records, in order. -/
theorem records_delivered (hs : s.agent.start = .registered) :
    (∃ acts s', Process.Runs parseIP nodeName s acts s' ∧ (∀ act ∈ acts, act.IsDelivery) ∧
      s'.Drained) ∧
    ∀ acts s', Process.Runs parseIP nodeName s acts s' → (∀ act ∈ acts, act.IsDelivery) →
      acts.length ≤ 2 * s.packets.length + s.sending.toList.length ∧
      (s'.Drained → traffics s'.gather.sent = traffics s.gather.sent ++ s.sending.toList ++
        s.packets.filterMap (startTurn s.agent.world.endpoint2Pod)) := by
  have hlower : ∀ ⦃s act s'⦄, Process.Step parseIP nodeName s act s' → act.IsDelivery →
      s.agent.start = .registered → s'.turnsLeft < s.turnsLeft :=
    fun _ _ _ hstep hact _ => hstep.turnsLeft_lt hact
  have hkeep : ∀ ⦃s act s'⦄, Process.Step parseIP nodeName s act s' → act.IsDelivery →
      s.agent.start = .registered → s'.agent.start = .registered :=
    fun _ _ _ hstep _ ht => hstep.registered ht
  constructor
  · obtain ⟨acts, s', hrun, hacts, -, hdrained⟩ := Machines.exists_runs_of_progress hlower hkeep
      (fun _ ht hwait => Process.exists_delivery parseIP nodeName ht hwait) hs
    exact ⟨acts, s', hrun, hacts, hdrained⟩
  · intro acts' s' hrun hacts
    have hlen := Machines.Runs.length_le hlower hkeep hrun hacts hs
    refine ⟨hlen, fun hdrained => ?_⟩
    rw [← hdrained.outlook_eq, Process.Runs.outlook_eq hrun hacts]
    rfl

end Start

section Sample

open Kubebpfbox.Endpoint2Pod

/-- An exchange that `Start` comes too late for. -/
theorem nothing_sent_unless_started_of_one : ∃ acts s rawSample,
    Process.Runs parseIPv4 node {} acts s ∧ s.agent.start = .begun ∧ s.gather = {} ∧
    s.packets = [rawSample] := by
  set r : Frame := (∅, getArrival hostA hostB (200, 1))
  set t : Frame := (∅, okArrival hostA hostB (200, 1))
  obtain ⟨method, -, hsub⟩ := submissions_sample (f := ∅) (Bpf.HashMap.not_mem_empty _)
  have hrun : Process.Runs parseIPv4 node {} [.frame r, .frame t] _ :=
    (Machines.Runs.nil.concat (.frame r.2 fun _ => 0)).concat (.frame t.2 fun _ => 0)
  obtain ⟨hgather, -, hpackets, -⟩ := nothing_sent_unless_started hrun (by decide)
  have hframes : Process.frames [.frame r, .frame t] = [r, t] := rfl
  rw [hframes, hsub] at hpackets
  obtain ⟨rawSample, rest, -, hnil, hring⟩ := List.forall₂_cons_left_iff.mp hpackets
  obtain rfl := List.forall₂_nil_left_iff.mp hnil
  exact ⟨_, _, rawSample, hrun, rfl, hgather, hring⟩

theorem records_delivered_of_one : ∃ s m acts s', s.agent.start = .registered ∧
    traffics s.gather.sent = [] ∧ Process.Runs parseIPv4 node s acts s' ∧ acts.length ≤ 2 ∧
    traffics s'.gather.sent = [m] := by
  obtain ⟨-, s, rawSample, m, -, -, hstart, hsending, hpackets, hgather, hturn, -⟩ :=
    exists_runs_waiting
  obtain ⟨⟨acts, s', hrun, hacts, hdrained⟩, hall⟩ :=
    @records_delivered parseIPv4 node _ hstart
  obtain ⟨hlen, hsent⟩ := hall acts s' hrun hacts
  have hnone : traffics s.gather.sent = [] := by
    rw [hgather]
    rfl
  refine ⟨s, m, acts, s', hstart, hnone, hrun, ?_, ?_⟩
  · rw [hpackets, hsending] at hlen
    exact hlen
  · rw [hsent hdrained, hnone, hsending, hpackets, List.filterMap_cons_some hturn]
    rfl

end Sample

end Kubebpfbox.Http
