import Kubebpfbox.Lib.Slots

/-!
# Matching openings with closings, first in first out

The other way to match a trace of `Slots.Event`s: every key has a queue, a `put` joins the queue of
its key, and a `take` gets the value that has waited longest (`FifoMatched`).

* `pendingAt_iff_getLast?_queued`: the pending value is the last one in the queue, as long as no
  `take` comes while two values wait.
* `forall_matched_iff`: so the two ways to match agree exactly on the traces in which no `take`
  comes while two values wait (`Orderly`).
* `fifoReportAt_eq_some_iff`: what a machine with queues reports is what is matched first in first
  out.
-/

namespace Queues

open Slots Slots.Event

variable {κ α β : Type*} [DecidableEq κ]

/-- The queue of `k` after the event at position `i`. -/
def advance (k : κ) (q : List (ℕ × α)) (i : ℕ) : Event κ α β → List (ℕ × α)
  | put k' a => if k' = k then q ++ [(i, a)] else q
  | take k' _ => if k' = k then q.tail else q
  | skip => q

/-- The values that wait under `k`, with the positions of their `put`s, the oldest first. -/
def queued (tr : List (Event κ α β)) (k : κ) : List (ℕ × α) :=
  tr.zipIdx.foldl (fun q x => advance k q x.2 x.1) []

/-- The `take` at `j` gets the value of the `put` at `i`, which has waited longest. -/
def FifoMatched (tr : List (Event κ α β)) (k : κ) (i j : ℕ) (a : α) (b : β) : Prop :=
  tr[j]? = some (take k b) ∧ (queued (tr.take j) k).head? = some (i, a)

/-- No `take` comes while two values wait under its key. -/
def Orderly (tr : List (Event κ α β)) : Prop :=
  ∀ k j b, tr[j]? = some (take k b) → (queued (tr.take j) k).length ≤ 1

variable {tr : List (Event κ α β)} {k : κ} {i j : ℕ} {a : α} {b : β}

@[simp] theorem queued_nil (k : κ) : queued ([] : List (Event κ α β)) k = [] := rfl

theorem queued_append (tr : List (Event κ α β)) (e : Event κ α β) (k : κ) :
    queued (tr ++ [e]) k = advance k (queued tr k) tr.length e := by
  unfold queued
  rw [List.zipIdx_append, List.foldl_append, Nat.zero_add]
  rfl

theorem advance_of_not_on {e : Event κ α β} (h : ¬ On k e) (q : List (ℕ × α)) (i : ℕ) :
    advance k q i e = q := by
  cases e with
  | put k' a => exact if_neg fun hk => h ((on_put k k' a).mpr hk)
  | take k' b => exact if_neg fun hk => h ((on_take k k' b).mpr hk)
  | skip => rfl

/-- The queue is in the order of the trace. -/
theorem pairwise_queued (tr : List (Event κ α β)) (k : κ) :
    (queued tr k).Pairwise (fun x y => x.1 < y.1) ∧ ∀ x ∈ queued tr k, x.1 < tr.length := by
  induction tr using List.reverseRecOn with
  | nil => exact ⟨List.Pairwise.nil, by simp⟩
  | append_singleton tr e ih =>
    obtain ⟨hsorted, hlt⟩ := ih
    rw [queued_append, List.length_append, List.length_singleton]
    have hstay : ∀ x ∈ queued tr k, x.1 < tr.length + 1 := fun x hx => by
      have := hlt x hx
      omega
    by_cases hon : On k e
    · rcases e with ⟨k', a⟩ | ⟨k', b⟩ | _
      · obtain rfl : k' = k := (on_put k k' a).mp hon
        rw [advance, if_pos rfl]
        constructor
        · rw [List.pairwise_append]
          refine ⟨hsorted, List.pairwise_singleton _ _, fun x hx y hy => ?_⟩
          rw [List.mem_singleton.mp hy]
          exact hlt x hx
        · intro x hx
          rcases List.mem_append.mp hx with hx | hx
          · exact hstay x hx
          · rw [List.mem_singleton.mp hx]
            exact Nat.lt_succ_self _
      · obtain rfl : k' = k := (on_take k k' b).mp hon
        rw [advance, if_pos rfl]
        exact ⟨hsorted.sublist (List.tail_sublist _), fun x hx => hstay x (List.mem_of_mem_tail hx)⟩
      · exact absurd hon (not_on_skip k)
    · rw [advance_of_not_on hon]
      exact ⟨hsorted, hstay⟩

/-- A pending value has waited the shortest. -/
theorem getLast?_queued_of_pendingAt : ∀ {tr : List (Event κ α β)}, PendingAt tr k i a →
    (queued tr k).getLast? = some (i, a) := by
  intro tr
  induction tr using List.reverseRecOn with
  | nil =>
    rintro ⟨hi, -⟩
    cases hi
  | append_singleton tr e ih =>
    rw [pendingAt_append_iff, queued_append]
    rintro (⟨rfl, rfl⟩ | ⟨hpend, hon⟩)
    · rw [advance, if_pos rfl, List.getLast?_concat]
    · rw [advance_of_not_on hon]
      exact ih hpend

omit [DecidableEq κ] in
theorem getElem?_of_append {tr : List (Event κ α β)} {e e' : Event κ α β} {j : ℕ}
    (h : tr[j]? = some e) : (tr ++ [e'])[j]? = some e := by
  rw [List.getElem?_append_left (List.getElem?_eq_some_iff.mp h).1]
  exact h

theorem Orderly.of_append {e : Event κ α β} (h : Orderly (tr ++ [e])) : Orderly tr := by
  intro k j b hj
  have hlt : j < tr.length := (List.getElem?_eq_some_iff.mp hj).1
  have hle := h k j b (getElem?_of_append hj)
  rwa [List.take_append_of_le_length hlt.le] at hle

/-- **The slot is the end of the queue**, as long as no `take` comes while two values wait. -/
theorem pendingAt_iff_getLast?_queued : ∀ {tr : List (Event κ α β)}, Orderly tr →
    (PendingAt tr k i a ↔ (queued tr k).getLast? = some (i, a)) := by
  intro tr
  induction tr using List.reverseRecOn with
  | nil =>
    intro _
    simp [PendingAt]
  | append_singleton tr e ih =>
    intro horder
    refine ⟨getLast?_queued_of_pendingAt, fun hlast => ?_⟩
    rw [queued_append] at hlast
    rw [pendingAt_append_iff]
    by_cases hon : On k e
    · rcases e with ⟨k', a'⟩ | ⟨k', b'⟩ | _
      · obtain rfl : k' = k := (on_put k k' a').mp hon
        rw [advance, if_pos rfl, List.getLast?_concat] at hlast
        cases hlast
        exact Or.inl ⟨rfl, rfl⟩
      · -- at most one value waited, and the `take` got it
        obtain rfl : k' = k := (on_take k k' b').mp hon
        have hle := horder k' tr.length b' List.getElem?_concat_length
        rw [List.take_left] at hle
        have hempty : (queued tr k').tail = [] := by
          rw [← List.length_eq_zero_iff, List.length_tail]
          omega
        rw [advance, if_pos rfl, hempty] at hlast
        cases hlast
      · exact absurd hon (not_on_skip k)
    · rw [advance_of_not_on hon] at hlast
      exact Or.inr ⟨(ih horder.of_append).mpr hlast, hon⟩

theorem Orderly.take {tr : List (Event κ α β)} (h : Orderly tr) (n : ℕ) : Orderly (tr.take n) := by
  intro k j b hj
  have hlt : j < n := by
    have := (List.getElem?_eq_some_iff.mp hj).1
    rw [List.length_take] at this
    omega
  rw [getElem?_take_of_lt _ hlt] at hj
  rw [List.take_take, min_eq_left hlt.le]
  exact h k j b hj

/-- With at most one value in the queue, its end is its front. -/
theorem head?_eq_getLast? {γ : Type*} {l : List γ} (h : l.length ≤ 1) : l.head? = l.getLast? := by
  rcases l with _ | ⟨x, _ | ⟨y, l⟩⟩
  · rfl
  · rfl
  · simp at h

theorem matched_iff_fifoMatched (h : Orderly tr) :
    Matched tr k i j a b ↔ FifoMatched tr k i j a b := by
  have hslot : ∀ hj : tr[j]? = some (Event.take k b),
      (Matched tr k i j a b ↔ (queued (tr.take j) k).head? = some (i, a)) := by
    intro hj
    rw [matched_iff_pendingAt_take hj, pendingAt_iff_getLast?_queued (h.take j),
      head?_eq_getLast? (h k j b hj)]
  exact ⟨fun hm => ⟨hm.2.2.1, (hslot hm.2.2.1).mp hm⟩, fun hm => (hslot hm.1).mpr hm.2⟩

/-- **The two ways to match agree** exactly when no `take` comes while two values wait. -/
theorem forall_matched_iff :
    (∀ k i j, (∃ a b, Matched tr k i j a b) ↔ ∃ a b, FifoMatched tr k i j a b) ↔ Orderly tr := by
  constructor
  · intro h k j b hj
    by_contra hlong
    obtain ⟨⟨i, a⟩, y, q, hq⟩ : ∃ x y q, queued (tr.take j) k = x :: y :: q := by
      rcases hq : queued (tr.take j) k with _ | ⟨x, _ | ⟨y, q⟩⟩
      · simp [hq] at hlong
      · simp [hq] at hlong
      · exact ⟨x, y, q, rfl⟩
    -- the one that has waited longest would have to be the last one
    obtain ⟨a', b', hmatch⟩ := (h k i j).mpr ⟨a, b, hj, by rw [hq, List.head?_cons]⟩
    have hlast := getLast?_queued_of_pendingAt
      ((matched_iff_pendingAt_take hmatch.2.2.1).mp hmatch)
    rw [hq, List.getLast?_cons_cons] at hlast
    have hsorted := (pairwise_queued (tr.take j) k).1
    rw [hq, List.pairwise_cons] at hsorted
    exact absurd (hsorted.1 _ (List.mem_of_getLast? hlast)) (lt_irrefl i)
  · intro h k i j
    exact exists_congr fun a => exists_congr fun b => matched_iff_fifoMatched h

/-- What the queues report at position `j` of a trace. -/
def fifoReportAt (tr : List (Event κ α β)) (j : ℕ) : Option (α × β) :=
  tr[j]?.bind fun
    | put _ _ => none
    | take k b => (queued (tr.take j) k).head?.map fun x => (x.2, b)
    | skip => none

theorem fifoReportAt_eq_some_iff :
    fifoReportAt tr j = some (a, b) ↔ ∃ k i, FifoMatched tr k i j a b := by
  unfold fifoReportAt FifoMatched
  cases hj : tr[j]? with
  | none => simp
  | some e =>
    rw [Option.bind_some]
    cases e with
    | put k a' => simp
    | skip => simp
    | take k b' =>
      simp only [Option.map_eq_some_iff, Prod.mk.injEq, Option.some.injEq, take.injEq]
      constructor
      · rintro ⟨⟨i, _⟩, hhead, rfl, rfl⟩
        exact ⟨k, i, ⟨rfl, rfl⟩, hhead⟩
      · rintro ⟨_, i, ⟨rfl, rfl⟩, hhead⟩
        exact ⟨(i, a), hhead, rfl, rfl⟩

end Queues
