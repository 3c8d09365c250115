import Kubebpfbox.Lib.Machine
import Mathlib.Algebra.BigOperators.Group.Finset.Basic
import Mathlib.Algebra.BigOperators.Group.Finset.Piecewise
import Mathlib.Data.Fintype.Basic

/-!
# A channel with several senders

Each sender offers some values and then puts them into a channel, one at a time, with the others in
between; it offers no more until all are in, and it waits while the channel is full.  A receiver
takes the values out, in order.

* `Runs.sends_eq`: what was put in is what was taken out and what is in the channel, in order.
* `Runs.offered_eq`: what one sender offered is what it put in, in order, and what it waits with.
* `Runs.length_buffer_le`: the channel never holds more than it has room for.
* `backlog`: how much the senders wait with, for runs that end.
-/

namespace Channels

variable {ι α : Type*}

/-- What each sender waits with, and what is in the channel. -/
structure Channel (ι α : Type*) where
  waiting : ι → List α := fun _ => []
  buffer : List α := []

/-- A step of a sender or of the receiver. -/
inductive Action (ι α : Type*) where
  | offer (i : ι) (as : List α)
  | send (i : ι) (a : α)
  | receive (a : α)

namespace Action

/-- The value that is put in, with its sender. -/
def send? : Action ι α → Option (ι × α)
  | offer _ _ => none
  | send i a => some (i, a)
  | receive _ => none

/-- The value that is taken out. -/
def receive? : Action ι α → Option α
  | offer _ _ => none
  | send _ _ => none
  | receive a => some a

/-- What the sender offers. -/
def offered [DecidableEq ι] (i : ι) : Action ι α → List α
  | offer j as => if j = i then as else []
  | send _ _ => []
  | receive _ => []

end Action

/-- The values that were put in, in order. -/
def sends (acts : List (Action ι α)) : List (ι × α) := acts.filterMap Action.send?

/-- The values that were taken out, in order. -/
def received (acts : List (Action ι α)) : List α := acts.filterMap Action.receive?

theorem sends_concat (acts : List (Action ι α)) (act : Action ι α) :
    sends (acts ++ [act]) = sends acts ++ act.send?.toList := Machines.filterMap_concat _ acts act

theorem received_concat (acts : List (Action ι α)) (act : Action ι α) :
    received (acts ++ [act]) = received acts ++ act.receive?.toList :=
  Machines.filterMap_concat _ acts act

variable [DecidableEq ι]

/-- All that a sender offered, in order. -/
def offered (i : ι) (acts : List (Action ι α)) : List α := acts.flatMap (Action.offered i)

theorem offered_concat (i : ι) (acts : List (Action ι α)) (act : Action ι α) :
    offered i (acts ++ [act]) = offered i acts ++ act.offered i := by
  rw [offered, List.flatMap_append, List.flatMap_singleton]
  rfl

/-- The values of one sender. -/
def ofSender (i : ι) (l : List (ι × α)) : List α :=
  l.filterMap fun x => if x.1 = i then some x.2 else none

theorem ofSender_append (i : ι) (l l' : List (ι × α)) :
    ofSender i (l ++ l') = ofSender i l ++ ofSender i l' := List.filterMap_append

theorem mem_ofSender {i : ι} {a : α} {l : List (ι × α)} : a ∈ ofSender i l ↔ (i, a) ∈ l := by
  unfold ofSender
  rw [List.mem_filterMap]
  constructor
  · rintro ⟨⟨j, b⟩, hmem, hval⟩
    split_ifs at hval with hj
    cases hval
    rw [← hj]
    exact hmem
  · intro hmem
    exact ⟨(i, a), hmem, if_pos rfl⟩

/-- What only one sender sends keeps the order of that sender. -/
theorem filter_map_snd {i : ι} {p : α → Bool} {l : List (ι × α)}
    (h : ∀ x ∈ l, x.1 ≠ i → p x.2 = false) :
    (l.map Prod.snd).filter p = (ofSender i l).filter p := by
  induction l with
  | nil => rfl
  | cons x l ih =>
    have hl := ih fun y hy => h y (List.mem_cons_of_mem _ hy)
    by_cases hx : x.1 = i
    · have hcons : ofSender i (x :: l) = x.2 :: ofSender i l :=
        List.filterMap_cons_some (if_pos hx)
      rw [hcons, List.map_cons, List.filter_cons, List.filter_cons, hl]
    · have hskip : ofSender i (x :: l) = ofSender i l := List.filterMap_cons_none (if_neg hx)
      rw [hskip, List.map_cons, List.filter_cons_of_neg, hl]
      rw [h x (List.mem_cons_self ..) hx]
      exact Bool.false_ne_true

variable (cap : ℕ)

/-- One step, of a channel with room for `cap` values. -/
inductive Step : Channel ι α → Action ι α → Channel ι α → Prop where
  | offer {c : Channel ι α} {i : ι} (as : List α) (hwaiting : c.waiting i = []) :
      Step c (.offer i as) { c with waiting := Function.update c.waiting i as }
  | send {c : Channel ι α} {i : ι} {a : α} {as : List α} (hwaiting : c.waiting i = a :: as)
      (hroom : c.buffer.length < cap) :
      Step c (.send i a)
        { waiting := Function.update c.waiting i as, buffer := c.buffer ++ [a] }
  | receive {c : Channel ι α} {a : α} {as : List α} (hbuffer : c.buffer = a :: as) :
      Step c (.receive a) { c with buffer := as }

/-- The steps lead from one state to the other. -/
abbrev Runs : Channel ι α → List (Action ι α) → Channel ι α → Prop := Machines.Runs (Step cap)

variable {cap} {c c' : Channel ι α} {act : Action ι α} {acts : List (Action ι α)}

/-! ### Nothing is lost, doubled or reordered -/

theorem Step.sends_eq (h : Step cap c act c') :
    c.buffer ++ act.send?.toList.map Prod.snd = act.receive?.toList ++ c'.buffer := by
  cases h with
  | offer as _ => simp [Action.send?, Action.receive?]
  | send _ _ => simp [Action.send?, Action.receive?]
  | receive hbuffer =>
    rw [hbuffer]
    simp [Action.send?, Action.receive?]

/-- **The channel is a queue.** -/
theorem Runs.sends_eq (h : Runs cap c acts c') :
    c.buffer ++ (sends acts).map Prod.snd = received acts ++ c'.buffer := by
  induction h with
  | nil => exact List.append_nil _
  | @concat acts t t' act _ hstep ih =>
    rw [sends_concat, received_concat, List.map_append, ← List.append_assoc, ih,
      List.append_assoc, hstep.sends_eq, List.append_assoc]

theorem Step.offered_eq (h : Step cap c act c') (i : ι) :
    c.waiting i ++ act.offered i = ofSender i act.send?.toList ++ c'.waiting i := by
  cases h with
  | @offer j as hwaiting =>
    by_cases hij : j = i
    · subst hij
      simp [Action.offered, Action.send?, ofSender, hwaiting]
    · simp [Action.offered, Action.send?, ofSender, hij, Function.update_of_ne (Ne.symm hij)]
  | @send j a as hwaiting _ =>
    by_cases hij : j = i
    · subst hij
      simp [Action.offered, Action.send?, ofSender, hwaiting]
    · simp [Action.offered, Action.send?, ofSender, hij, Function.update_of_ne (Ne.symm hij)]
  | receive _ => simp [Action.offered, Action.send?, ofSender]

/-- **Each sender keeps its order.** -/
theorem Runs.offered_eq (h : Runs cap c acts c') (i : ι) :
    c.waiting i ++ offered i acts = ofSender i (sends acts) ++ c'.waiting i := by
  induction h with
  | nil => exact List.append_nil _
  | @concat acts t t' act _ hstep ih =>
    rw [offered_concat, sends_concat, ofSender_append, ← List.append_assoc, ih, List.append_assoc,
      hstep.offered_eq i, List.append_assoc]

theorem Step.length_buffer_le (h : Step cap c act c') (hc : c.buffer.length ≤ cap) :
    c'.buffer.length ≤ cap := by
  cases h with
  | offer _ _ => exact hc
  | send _ hroom =>
    rw [List.length_append, List.length_singleton]
    omega
  | @receive a as hbuffer =>
    rw [hbuffer, List.length_cons] at hc
    show as.length ≤ cap
    omega

/-- The channel is never more than full. -/
theorem Runs.length_buffer_le (h : Runs cap c acts c') (hc : c.buffer.length ≤ cap) :
    c'.buffer.length ≤ cap :=
  Machines.Runs.invariant (P := fun c => c.buffer.length ≤ cap)
    (fun _ _ _ hstep hc => hstep.length_buffer_le hc) h hc

/-! ### How much is waiting -/

section Backlog

variable [Fintype ι]

/-- How many values the senders wait with. -/
def Channel.backlog (c : Channel ι α) : ℕ := ∑ i, (c.waiting i).length

theorem sum_length_update (w : ι → List α) (i : ι) (as : List α) :
    ∑ j, (Function.update w i as j).length + (w i).length
      = ∑ j, (w j).length + as.length := by
  have hothers : ∑ j ∈ Finset.univ.erase i, (Function.update w i as j).length
      = ∑ j ∈ Finset.univ.erase i, (w j).length := by
    refine Finset.sum_congr rfl fun j hj => ?_
    rw [Function.update_of_ne (Finset.ne_of_mem_erase hj)]
  rw [← Finset.add_sum_erase _ _ (Finset.mem_univ i),
    ← Finset.add_sum_erase _ (fun j => (w j).length) (Finset.mem_univ i), hothers,
    Function.update_self]
  omega

theorem Step.backlog_offer {i : ι} {as : List α} (h : Step cap c (.offer i as) c') :
    c'.backlog = c.backlog + as.length := by
  cases h with
  | offer _ hwaiting =>
    have hsum := sum_length_update c.waiting i as
    rw [hwaiting, List.length_nil, Nat.add_zero] at hsum
    exact hsum

theorem Step.backlog_send {i : ι} {a : α} (h : Step cap c (.send i a) c') :
    c'.backlog + 1 = c.backlog := by
  cases h with
  | @send _ _ as hwaiting _ =>
    have hsum := sum_length_update c.waiting i as
    rw [hwaiting, List.length_cons] at hsum
    show ∑ j, (Function.update c.waiting i as j).length + 1 = ∑ j, (c.waiting j).length
    omega

omit [DecidableEq ι] in
theorem Channel.backlog_eq_zero_iff : c.backlog = 0 ↔ ∀ i, c.waiting i = [] := by
  rw [Channel.backlog, Finset.sum_eq_zero_iff]
  simp only [Finset.mem_univ, true_implies, List.length_eq_zero_iff]

/-- While a sender waits and there is room, one can send. -/
theorem exists_send (hbacklog : c.backlog ≠ 0) (hroom : c.buffer.length < cap) :
    ∃ i a c', Step cap c (.send i a) c' := by
  obtain ⟨i, -, hi⟩ := Finset.exists_ne_zero_of_sum_ne_zero hbacklog
  cases hwaiting : c.waiting i with
  | nil =>
    rw [hwaiting] at hi
    exact absurd rfl hi
  | cons a as => exact ⟨i, a, _, .send hwaiting hroom⟩

end Backlog

end Channels
