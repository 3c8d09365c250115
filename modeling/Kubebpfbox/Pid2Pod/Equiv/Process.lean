import Kubebpfbox.Lib.Lists
import Kubebpfbox.Pid2Pod.Process

/-!
# One event for each record

What the two plugins share.  The records of a run are those that were read and those that wait
(`Runs.samples`), and a turn of `Start` on a record makes exactly one event of it, or panics
(`Probe.Decodes`).  So the events are those of the records, in order (`Runs.relays`), and the rest
can be delivered exactly when no turn will panic (`exists_drained_iff`).
-/

namespace Kubebpfbox.Pid2Pod

open Golang GoM Kubebpfbox.Core Informer Lists

variable {C R E : Type}

/-- A turn on a record completes when it fits, and then sends its event. -/
def Probe.Decodes (probe : Probe C R E) (Fits : R → Prop) (eventOf : Proc → Pid2Pod → R → E) :
    Prop :=
  ∀ proc p r pad es,
    Gives (probe.startTurn proc p (probe.toBytes r pad)) [] ⟨⟩ es ↔ Fits r ∧ es = [eventOf proc p r]

namespace Process

variable {probe : Probe C R E} {nodeName : GoString} {acts acts' : List (Action C E)}
  {act : Action C E} {s s' : Process E}

theorem notifications_concat (acts : List (Action C E)) (act : Action C E) :
    notifications (acts ++ [act]) = notifications acts ++ act.notification?.toList :=
  Machines.filterMap_concat _ acts act

theorem records_concat (acts : List (Action C E)) (act : Action C E) :
    records probe (acts ++ [act]) = records probe acts ++ (act.hook?.bind probe.record).toList := by
  rw [records, Machines.filterMap_concat, List.filterMap_append]
  cases act.hook? with
  | none => rfl
  | some c => exact congrArg (records probe acts ++ ·) (Machines.filterMap_concat probe.record [] c)

theorem reads_concat (acts : List (Action C E)) (act : Action C E) :
    reads (acts ++ [act]) = reads acts ++ act.read?.toList := Machines.filterMap_concat _ acts act

/-! ### The ring buffer -/

/-- The sample is the record in memory. -/
def SampleOf (probe : Probe C R E) (r : R) (rawSample : List UInt8) : Prop :=
  ∃ pad, rawSample = probe.toBytes r pad

/-- What was read and what waits are the records, in order. -/
theorem Runs.samples (h : Runs probe nodeName {} acts s) :
    List.Forall₂ (SampleOf probe) (records probe acts) (reads acts ++ s.events) := by
  induction h with
  | nil => exact .nil
  | concat _ hstep ih =>
    rw [records_concat, reads_concat]
    cases hstep with
    | hook c pad =>
      rw [Action.hook?, Action.read?, Option.toList_none, List.append_nil, Option.bind_some,
        ← List.append_assoc]
      refine List.rel_append ih ?_
      cases probe.record c with
      | none => exact .nil
      | some r => exact .cons ⟨pad, rfl⟩ .nil
    | read _ _ hevents =>
      rw [hevents] at ih
      rw [Action.hook?, Action.read?, Option.bind_none, Option.toList_none, List.append_nil,
        Option.toList_some, List.append_assoc]
      exact ih
    | _ =>
      rw [Action.hook?, Action.read?, Option.bind_none, Option.toList_none, Option.toList_none,
        List.append_nil, List.append_nil]
      exact ih

/-! ### The events -/

section Decodes

variable {Fits : R → Prop} {eventOf : Proc → Pid2Pod → R → E}

variable (probe nodeName) in
/-- After these steps `Start` has this sample in front of it: the record is the first one that was
submitted and not read yet, and the sample is that record. -/
structure ReadsNext (pre : List (Action C E)) (t : Process E) (r : R) (rawSample : List UInt8) :
    Prop where
  runs : Runs probe nodeName {} pre t
  next : (records probe pre)[(reads pre).length]? = some r
  sample : SampleOf probe r rawSample

variable (probe nodeName eventOf) in
/-- The event was made of the record at that position, by the read that stands there, with the files
and the index that `Start` found. -/
def FromRecord (acts : List (Action C E)) (x : R × ℕ) (e : E) : Prop :=
  ∃ pre post proc rawSample t, acts = pre ++ .read proc t.pid2pod rawSample [e] :: post ∧
    (reads pre).length = x.2 ∧ ReadsNext probe nodeName pre t x.1 rawSample ∧
    e = eventOf proc t.pid2pod x.1

theorem FromRecord.concat {x : R × ℕ} {e : E} (h : FromRecord probe nodeName eventOf acts x e)
    (act : Action C E) : FromRecord probe nodeName eventOf (acts ++ [act]) x e := by
  obtain ⟨pre, post, proc, rawSample, t, rfl, hpre⟩ := h
  exact ⟨pre, post ++ [act], proc, rawSample, t, by rw [List.append_assoc, List.cons_append], hpre⟩

/-- The records, those of which events were made and those that wait, and the events. -/
structure Relays (probe : Probe C R E) (nodeName : GoString) (Fits : R → Prop)
    (eventOf : Proc → Pid2Pod → R → E) (acts : List (Action C E)) (s : Process E)
    (done waiting : List R) : Prop where
  records_eq : records probe acts = done ++ waiting
  length_done : done.length = (reads acts).length
  fits : ∀ r ∈ done, Fits r
  made : List.Forall₂ (FromRecord probe nodeName eventOf acts) done.zipIdx
    (s.gathered ++ s.sending)
  samples : List.Forall₂ (SampleOf probe) waiting s.events

variable (hdec : probe.Decodes Fits eventOf)
include hdec

/-- **One event for each record**, in order. -/
theorem Runs.relays (h : Runs probe nodeName {} acts s) :
    ∃ done waiting, Relays probe nodeName Fits eventOf acts s done waiting := by
  induction h with
  | nil => exact ⟨[], [], rfl, rfl, by simp, .nil, .nil⟩
  | @concat acts t t' act h hstep ih =>
    obtain ⟨done, waiting, hrel⟩ := ih
    have hmade := hrel.made.imp fun _ _ hfrom => hfrom.concat act
    cases hstep with
    | notification _ =>
      refine ⟨done, waiting, ?_, ?_, hrel.fits, hmade, hrel.samples⟩
      · rw [records_concat, hrel.records_eq]
        exact List.append_nil _
      · rw [reads_concat, hrel.length_done]
        exact congrArg List.length (List.append_nil _).symm
    | hook c pad =>
      refine ⟨done, waiting ++ (probe.record c).toList, ?_, ?_, hrel.fits, hmade, ?_⟩
      · rw [records_concat, hrel.records_eq, List.append_assoc]
        rfl
      · rw [reads_concat, hrel.length_done]
        exact congrArg List.length (List.append_nil _).symm
      · refine List.rel_append hrel.samples ?_
        cases probe.record c with
        | none => exact .nil
        | some r => exact .cons ⟨pad, rfl⟩ .nil
    | @read rawSample events es proc hsending hevents hgives =>
      -- the sample is the first record that waits
      have hsamples := hrel.samples
      rw [hevents] at hsamples
      obtain ⟨r, rest, ⟨pad, rfl⟩, hrest, rfl⟩ := List.forall₂_cons_right_iff.mp hsamples
      obtain ⟨hfits, rfl⟩ := (hdec proc _ r pad es).mp hgives
      have hnext : (records probe acts)[(reads acts).length]? = some r := by
        rw [hrel.records_eq, ← hrel.length_done, List.getElem?_append_right (Nat.le_refl _),
          Nat.sub_self]
        rfl
      refine ⟨done ++ [r], rest, ?_, ?_, ?_, ?_, hrest⟩
      · rw [records_concat, hrel.records_eq, List.append_assoc]
        exact (congrArg (done ++ ·) (List.append_nil _)).trans
          (List.append_assoc done [r] rest).symm
      · rw [reads_concat, List.length_append, List.length_append, hrel.length_done]
        rfl
      · rw [List.forall_mem_append]
        exact ⟨hrel.fits, List.forall_mem_singleton.mpr hfits⟩
      · rw [hsending, List.append_nil] at hmade
        rw [List.zipIdx_append]
        refine List.rel_append hmade (.cons ?_ .nil)
        refine ⟨acts, [], proc, _, t, rfl, ?_, ⟨h, hnext, pad, rfl⟩, rfl⟩
        rw [hrel.length_done, Nat.zero_add]
    | @receive e es hsending =>
      refine ⟨done, waiting, ?_, ?_, hrel.fits, ?_, hrel.samples⟩
      · rw [records_concat, hrel.records_eq]
        exact List.append_nil _
      · rw [reads_concat, hrel.length_done]
        exact congrArg List.length (List.append_nil _).symm
      · rw [hsending] at hmade
        rw [List.append_assoc, List.singleton_append]
        exact hmade

end Decodes

/-! ### What keeps the rest from being delivered -/

/-- A turn of `Start`, or `Gather` taking what it sends. -/
def Action.IsDelivery : Action C E → Prop
  | read _ _ _ _ => True
  | receive _ => True
  | notification _ => False
  | hook _ => False

/-- Nothing waits. -/
def Drained (s : Process E) : Prop := s.events = [] ∧ s.sending = []

/-- How many turns it can take to bring out what waits, when each record makes one event. -/
def turnsLeft (s : Process E) : ℕ := 2 * s.events.length + s.sending.length

/-- When nothing waits, neither has a turn. -/
theorem Drained.stuck (hdrained : s.Drained) :
    ¬ ∃ act s', act.IsDelivery ∧ Step probe nodeName s act s' := by
  rintro ⟨act, s', hact, hstep⟩
  cases hstep with
  | notification _ => cases hact
  | hook _ _ => cases hact
  | read _ _ hevents _ =>
    rw [hdrained.1] at hevents
    cases hevents
  | receive hsending =>
    rw [hdrained.2] at hsending
    cases hsending

section Decodes

variable {Fits : R → Prop} {eventOf : Proc → Pid2Pod → R → E}

variable (probe Fits) in
/-- Every sample that waits is that of a record that fits. -/
def AllFit (s : Process E) : Prop :=
  ∀ rawSample ∈ s.events, ∃ r, Fits r ∧ SampleOf probe r rawSample

variable (hdec : probe.Decodes Fits eventOf)
include hdec

theorem Step.turnsLeft_lt (h : Step probe nodeName s act s') (hact : act.IsDelivery)
    (hfit : AllFit probe Fits s) : s'.turnsLeft < s.turnsLeft := by
  unfold turnsLeft
  cases h with
  | notification _ => cases hact
  | hook _ _ => cases hact
  | @read rawSample events es proc hsending hevents hgives =>
    obtain ⟨r, -, pad, rfl⟩ := hfit rawSample (by rw [hevents]; exact List.mem_cons_self ..)
    obtain ⟨-, rfl⟩ := (hdec proc _ r pad es).mp hgives
    simp only [hsending, hevents, List.length_cons, List.length_nil]
    omega
  | @receive e es hsending =>
    simp only [hsending, List.length_cons]
    omega

omit hdec in
theorem Step.allFit (h : Step probe nodeName s act s') (hact : act.IsDelivery)
    (hfit : AllFit probe Fits s) : AllFit probe Fits s' := by
  cases h with
  | notification _ => cases hact
  | hook _ _ => cases hact
  | read _ _ hevents _ =>
    intro raw hraw
    exact hfit raw (by rw [hevents]; exact List.mem_cons_of_mem _ hraw)
  | receive _ => exact hfit

/-- While all that waits fits, `Start` or `Gather` has a turn. -/
theorem exists_delivery (nodeName : GoString) (hfit : AllFit probe Fits s)
    (hwait : ¬ s.Drained) : ∃ act s', act.IsDelivery ∧ Step probe nodeName s act s' := by
  cases hsending : s.sending with
  | cons e es => exact ⟨.receive e, _, trivial, .receive hsending⟩
  | nil =>
    cases hevents : s.events with
    | nil => exact absurd ⟨hevents, hsending⟩ hwait
    | cons rawSample events =>
      obtain ⟨r, hr, pad, rfl⟩ := hfit rawSample (by rw [hevents]; exact List.mem_cons_self ..)
      have hgives := (hdec default s.pid2pod r pad _).mpr ⟨hr, rfl⟩
      exact ⟨.read default s.pid2pod _ _, _, trivial, .read default hsending hevents hgives⟩

theorem exists_drained (nodeName : GoString) (hfit : AllFit probe Fits s) :
    ∃ acts s', Runs probe nodeName s acts s' ∧ (∀ act ∈ acts, act.IsDelivery) ∧ s'.Drained := by
  obtain ⟨acts, s', hrun, hacts, -, hdrained⟩ := Machines.exists_runs_of_progress
    (I := Action.IsDelivery)
    (fun _ _ _ hstep hact hfit => Step.turnsLeft_lt hdec hstep hact hfit)
    (fun _ _ _ hstep hact hfit => Step.allFit hstep hact hfit)
    (fun _ hfit hwait => exists_delivery hdec nodeName hfit hwait) hfit
  exact ⟨acts, s', hrun, hacts, hdrained⟩

/-- What `Start` has read on the way fitted. -/
theorem Step.allFit_of (h : Step probe nodeName s act s') (hact : act.IsDelivery)
    (hsamples : ∀ rawSample ∈ s.events, ∃ r, SampleOf probe r rawSample)
    (hfit : AllFit probe Fits s') : AllFit probe Fits s := by
  cases h with
  | notification _ => cases hact
  | hook _ _ => cases hact
  | @read rawSample events es proc hsending hevents hgives =>
    intro raw hraw
    rw [hevents] at hraw
    rcases List.mem_cons.mp hraw with rfl | hraw
    · obtain ⟨r, pad, rfl⟩ := hsamples raw (by rw [hevents]; exact List.mem_cons_self ..)
      exact ⟨r, ((hdec proc _ r pad es).mp hgives).1, pad, rfl⟩
    · exact hfit raw hraw
  | receive _ => exact hfit

theorem Runs.allFit_of (h : Runs probe nodeName s acts s') (hacts : ∀ act ∈ acts, act.IsDelivery)
    (hsamples : AllFit probe (fun _ => True) s) :
    AllFit probe (fun _ => True) s' ∧ (AllFit probe Fits s' → AllFit probe Fits s) := by
  induction h with
  | nil => exact ⟨hsamples, id⟩
  | concat _ hstep ih =>
    obtain ⟨ht, hfit⟩ := ih fun b hb => hacts b (List.mem_append_left _ hb)
    have hact := hacts _ (List.mem_append_right _ (List.mem_singleton_self _))
    refine ⟨hstep.allFit hact ht, fun hs' => hfit (hstep.allFit_of hdec hact ?_ hs')⟩
    intro rawSample hraw
    obtain ⟨r, -, hr⟩ := ht rawSample hraw
    exact ⟨r, hr⟩

/-- A sample tells whether its record fits. -/
theorem fits_of_sampleOf {r r' : R} {rawSample : List UInt8}
    (hr : SampleOf probe r rawSample) (hr' : SampleOf probe r' rawSample) (hfit : Fits r) :
    Fits r' := by
  obtain ⟨pad, rfl⟩ := hr
  obtain ⟨pad', heq⟩ := hr'
  have hgives := (hdec default {} r pad _).mpr ⟨hfit, rfl⟩
  rw [heq] at hgives
  exact ((hdec default {} r' pad' _).mp hgives).1

theorem Runs.allFit_iff (h : Runs probe nodeName {} acts s) :
    AllFit probe Fits s ↔ ∀ r ∈ (records probe acts).drop (reads acts).length, Fits r := by
  have hdrop := List.forall₂_drop_append _ _ _ (Runs.samples h)
  constructor
  · intro hfit r hr
    obtain ⟨rawSample, hraw, hsample⟩ := exists_of_forall₂_of_mem hdrop.flip hr
    obtain ⟨r', hr', hsample'⟩ := hfit rawSample hraw
    exact fits_of_sampleOf hdec hsample' hsample hr'
  · intro hall rawSample hraw
    obtain ⟨r, hr, hsample⟩ := exists_of_forall₂_of_mem hdrop hraw
    exact ⟨r, hall r hr, hsample⟩

/-- **The rest can be delivered** exactly when every record of it fits. -/
theorem Runs.exists_drained_iff (h : Runs probe nodeName {} acts s) :
    (∃ acts' s', Runs probe nodeName s acts' s' ∧ (∀ act ∈ acts', act.IsDelivery) ∧ s'.Drained) ↔
      ∀ r ∈ (records probe acts).drop (reads acts).length, Fits r := by
  rw [← Runs.allFit_iff hdec h]
  constructor
  · rintro ⟨acts', s', h', hacts', hevents, -⟩
    have hsamples : AllFit probe (fun _ => True) s := by
      intro rawSample hraw
      have hdrop := List.forall₂_drop_append _ _ _ (Runs.samples h)
      obtain ⟨r, -, hsample⟩ := exists_of_forall₂_of_mem hdrop hraw
      exact ⟨r, trivial, hsample⟩
    refine (Runs.allFit_of hdec h' hacts' hsamples).2 fun rawSample hraw => ?_
    rw [hevents] at hraw
    cases hraw
  · exact exists_drained hdec nodeName

/-- **One event for each record** that was read, in order. -/
theorem Runs.made (h : Runs probe nodeName {} acts s) :
    List.Forall₂ (FromRecord probe nodeName eventOf acts)
      ((records probe acts).take (reads acts).length).zipIdx (s.gathered ++ s.sending) ∧
    ∀ r ∈ (records probe acts).take (reads acts).length, Fits r := by
  obtain ⟨done, waiting, hrel⟩ := Runs.relays hdec h
  rw [hrel.records_eq, List.take_left' hrel.length_done]
  exact ⟨hrel.made, hrel.fits⟩

omit hdec in
theorem forall₂_submitting (probe : Probe C R E) (acts : List (Action C E)) :
    List.Forall₂ (fun c r => probe.record c = some r) (submitting probe acts)
      (records probe acts) := forall₂_filterMap probe.record _

omit hdec in
theorem mem_submitting_iff {probe : Probe C R E} {acts : List (Action C E)} {c : C} :
    c ∈ submitting probe acts ↔ .hook c ∈ acts ∧ (probe.record c).isSome := by
  rw [submitting, List.mem_filter, List.mem_filterMap]
  refine and_congr_left fun _ => ?_
  constructor
  · rintro ⟨act, hact, hc⟩
    cases act with
    | hook c' =>
      cases hc
      exact hact
    | _ => cases hc
  · intro hact
    exact ⟨.hook c, hact, rfl⟩

omit hdec in
theorem forall_drop_submitting_iff {Good : C → Prop} (acts : List (Action C E)) (n : ℕ)
    (hgood : ∀ c r, probe.record c = some r → (Fits r ↔ Good c)) :
    (∀ r ∈ (records probe acts).drop n, Fits r) ↔ ∀ c ∈ (submitting probe acts).drop n, Good c := by
  have hdrop := List.forall₂_drop n (forall₂_submitting probe acts)
  constructor
  · intro hall c hc
    obtain ⟨r, hr, hrecord⟩ := exists_of_forall₂_of_mem hdrop.flip hc
    exact (hgood c r hrecord).mp (hall r hr)
  · intro hall r hr
    obtain ⟨c, hc, hrecord⟩ := exists_of_forall₂_of_mem hdrop hr
    exact (hgood c r hrecord).mpr (hall c hc)

omit hdec in
/-- Nothing is submitted by `Start` and `Gather`. -/
theorem submitting_append_of_delivery (probe : Probe C R E) (acts : List (Action C E))
    {acts' : List (Action C E)} (hacts' : ∀ act ∈ acts', act.IsDelivery) :
    submitting probe (acts ++ acts') = submitting probe acts := by
  have hnone : acts'.filterMap Action.hook? = [] := by
    rw [List.filterMap_eq_nil_iff]
    intro act hact
    cases act with
    | hook c => exact absurd (hacts' _ hact) id
    | _ => rfl
  rw [submitting, List.filterMap_append, hnone, List.append_nil]
  rfl

/-- The contexts whose records were read, and their events. -/
theorem Runs.reported_take (h : Runs probe nodeName {} acts s) {Reports : C → E → Prop}
    (hreports : ∀ c r, probe.record c = some r → ∀ proc p, Reports c (eventOf proc p r)) :
    List.Forall₂ Reports ((submitting probe acts).take (reads acts).length)
      (s.gathered ++ s.sending) := by
  have hdone := List.forall₂_take (reads acts).length (forall₂_submitting probe acts)
  have hmade : List.Forall₂ (fun r e => ∃ proc p, e = eventOf proc p r)
      ((records probe acts).take (reads acts).length) (s.gathered ++ s.sending) := by
    rw [← List.zipIdx_map_fst 0 ((records probe acts).take (reads acts).length),
      List.forall₂_map_left_iff]
    refine (Runs.made hdec h).1.imp ?_
    rintro x e ⟨-, -, proc, -, t, -, -, -, rfl⟩
    exact ⟨proc, t.pid2pod, rfl⟩
  refine (forall₂_comp hdone hmade).imp ?_
  rintro c e ⟨r, hrecord, proc, p, rfl⟩
  exact hreports c r hrecord proc p

omit hdec in
theorem Runs.length_drop_submitting (h : Runs probe nodeName {} acts s) :
    ((submitting probe acts).drop (reads acts).length).length = s.events.length := by
  have hwaiting := List.forall₂_drop (reads acts).length (forall₂_submitting probe acts)
  have hdrop := List.forall₂_drop_append _ _ _ (Runs.samples h)
  rw [hwaiting.length_eq, hdrop.length_eq]

/-- **From the hook to the events**: the contexts in which a record was submitted, those of which
events were made and those that wait. -/
theorem Runs.reported (h : Runs probe nodeName {} acts s) {Reports : C → E → Prop} {Good : C → Prop}
    (hreports : ∀ c r, probe.record c = some r → ∀ proc p, Reports c (eventOf proc p r))
    (hgood : ∀ c r, probe.record c = some r → (Fits r ↔ Good c)) :
    ∃ done waiting, submitting probe acts = done ++ waiting ∧
      List.Forall₂ Reports done (s.gathered ++ s.sending) ∧
      (∀ c ∈ done, Good c) ∧
      waiting.length = s.events.length ∧
      ((∃ acts' s', Runs probe nodeName s acts' s' ∧ (∀ act ∈ acts', act.IsDelivery) ∧
        s'.Drained) ↔ ∀ c ∈ waiting, Good c) := by
  set n := (reads acts).length
  have hdone := List.forall₂_take n (forall₂_submitting probe acts)
  refine ⟨(submitting probe acts).take n, (submitting probe acts).drop n,
    (List.take_append_drop ..).symm, Runs.reported_take hdec h hreports, ?_,
    Runs.length_drop_submitting h, ?_⟩
  · intro c hc
    obtain ⟨r, hr, hrecord⟩ := exists_of_forall₂_of_mem hdone.flip hc
    exact (hgood c r hrecord).mp ((Runs.made hdec h).2 r hr)
  · rw [Runs.exists_drained_iff hdec h]
    exact forall_drop_submitting_iff acts n hgood

/-- When nothing waits, every context in which a record was submitted has its event. -/
theorem Runs.reported_of_drained (h : Runs probe nodeName {} acts s) {Reports : C → E → Prop}
    (hreports : ∀ c r, probe.record c = some r → ∀ proc p, Reports c (eventOf proc p r))
    (hdrained : s.Drained) : List.Forall₂ Reports (submitting probe acts) s.gathered := by
  have hlen := Runs.length_drop_submitting h
  rw [hdrained.1, List.length_nil, List.length_eq_zero_iff, List.drop_eq_nil_iff] at hlen
  have htake := Runs.reported_take hdec h hreports
  rw [List.take_of_length_le hlen, hdrained.2, List.append_nil] at htake
  exact htake

end Decodes

end Process

end Kubebpfbox.Pid2Pod
