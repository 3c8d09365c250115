import Kubebpfbox.Lib.HashMap

/-!
# Matching openings with closings, one slot a key

A trace is a list of events: `put k a` opens key `k` with a value, `take k b` closes it, `skip`
touches no key.  A `take` is matched with the `put` before it when no other event on its key
stands between them (`Matched`), and a key is pending with the value of its last event when that
event is a `put` (`PendingAt`).

The machine keeps the pending values in a `Bpf.HashMap` of fixed size: a `put` overwrites the entry
of its key, and is lost when the map is full and the key is new; a `take` reports the entry with
its own value and deletes it.

* `lookup_run`: as long as fewer than `cap` keys are pending, the map holds exactly the pending
  values, so by `reportAt_eq_some_iff` the machine reports exactly the matched pairs.
* `Matched.right_unique`, `Matched.left_unique`: matching is one to one.
* `reportsFor_filter`: what is reported on a key depends on the events of that key alone.
* `reportsFor_put_takes`: of several `take`s behind a `put` only the first is reported.
* `report_put_take`: with no assumption on the map, a `put` and the `take` it is matched with are
  reported exactly when the map had room for the `put`.
* `reportAt_eq_some_iff_hasRoom`: so with no assumption on the trace either, the machine reports the
  matched pairs whose `put` found room.
-/

namespace Slots

variable {κ α β : Type*}

/-- One event of a trace. -/
inductive Event (κ α β : Type*) where
  | put (k : κ) (a : α)
  | take (k : κ) (b : β)
  | skip

namespace Event

/-- The key an event is about. -/
def key? : Event κ α β → Option κ
  | put k _ => some k
  | take k _ => some k
  | skip => none

/-- The value a `put` leaves behind. -/
def put? : Event κ α β → Option α
  | put _ a => some a
  | take _ _ => none
  | skip => none

/-- The event is about `k`. -/
def On (k : κ) (e : Event κ α β) : Prop := e.key? = some k

@[simp] theorem on_put (k k' : κ) (a : α) : On k (put k' a : Event κ α β) ↔ k' = k := by
  simp [On, key?]

@[simp] theorem on_take (k k' : κ) (b : β) : On k (take k' b : Event κ α β) ↔ k' = k := by
  simp [On, key?]

@[simp] theorem not_on_skip (k : κ) : ¬ On k (skip : Event κ α β) := by simp [On, key?]

instance [DecidableEq κ] (k : κ) (e : Event κ α β) : Decidable (On k e) :=
  inferInstanceAs (Decidable (_ = _))

end Event

open Event

/-! ### Matching, on the trace alone -/

/-- No event at a position from `i + 1` to `j - 1` is about `k`. -/
def Quiet (tr : List (Event κ α β)) (k : κ) (i j : ℕ) : Prop :=
  ∀ l e, i < l → l < j → tr[l]? = some e → ¬ On k e

/-- Key `k` is pending at the end of the trace, since position `i` and with value `a`. -/
def PendingAt (tr : List (Event κ α β)) (k : κ) (i : ℕ) (a : α) : Prop :=
  tr[i]? = some (put k a) ∧ Quiet tr k i tr.length

/-- The `take` at `j` closes the `put` at `i`. -/
def Matched (tr : List (Event κ α β)) (k : κ) (i j : ℕ) (a : α) (b : β) : Prop :=
  i < j ∧ tr[i]? = some (put k a) ∧ tr[j]? = some (take k b) ∧ Quiet tr k i j

variable {tr : List (Event κ α β)} {k k' : κ} {i i' j j' : ℕ} {a a' : α} {b b' : β}

theorem Quiet.le_of_on (h : Quiet tr k i j) {e : Event κ α β} (he : tr[i']? = some e)
    (hon : On k e) (hlt : i' < j) : i' ≤ i := by
  by_contra hgt
  exact h i' e (by omega) hlt he hon

/-- A `take` closes at most one `put`. -/
theorem Matched.left_unique (h : Matched tr k i j a b) (h' : Matched tr k' i' j a' b') :
    i = i' ∧ k = k' ∧ a = a' ∧ b = b' := by
  obtain ⟨hij, hi, hj, hq⟩ := h
  obtain ⟨hij', hi', hj', hq'⟩ := h'
  have htake : take k b = (take k' b' : Event κ α β) := Option.some.inj (hj.symm.trans hj')
  simp only [take.injEq] at htake
  obtain ⟨rfl, rfl⟩ := htake
  have hle : i' ≤ i := hq.le_of_on hi' (by simp) hij'
  have hge : i ≤ i' := hq'.le_of_on hi (by simp) hij
  obtain rfl : i = i' := le_antisymm hge hle
  have hput : put k a = (put k a' : Event κ α β) := Option.some.inj (hi.symm.trans hi')
  simp only [put.injEq, true_and] at hput
  exact ⟨rfl, rfl, hput, rfl⟩

/-- A `put` is closed at most once. -/
theorem Matched.right_unique (h : Matched tr k i j a b) (h' : Matched tr k' i j' a' b') :
    j = j' := by
  obtain ⟨hij, hi, hj, hq⟩ := h
  obtain ⟨hij', hi', hj', hq'⟩ := h'
  have hput : put k a = (put k' a' : Event κ α β) := Option.some.inj (hi.symm.trans hi')
  simp only [put.injEq] at hput
  obtain ⟨rfl, rfl⟩ := hput
  rcases lt_trichotomy j j' with hlt | rfl | hgt
  · exact absurd (by simp) (hq' j _ hij hlt hj)
  · rfl
  · exact absurd (by simp) (hq j' _ hij' hgt hj')

/-! ### The value of the last event -/

variable [DecidableEq κ]

/-- The pending value of `k`: the one its last event left behind. -/
def slot (tr : List (Event κ α β)) (k : κ) : Option α :=
  ((tr.filter (On k ·)).getLast?).bind put?

@[simp] theorem slot_nil (k : κ) : slot ([] : List (Event κ α β)) k = none := rfl

theorem slot_append (tr : List (Event κ α β)) (e : Event κ α β) (k : κ) :
    slot (tr ++ [e]) k = if On k e then e.put? else slot tr k := by
  unfold slot
  rw [List.filter_append]
  by_cases h : On k e
  · simp [h]
  · simp [h]

/-- Only the events on `k` matter. -/
theorem slot_filter (tr : List (Event κ α β)) (k : κ) :
    slot (tr.filter (On k ·)) k = slot tr k := by
  simp [slot, List.filter_filter]

omit [DecidableEq κ] in
theorem Quiet.append_iff (tr : List (Event κ α β)) (e : Event κ α β) (k : κ) (hi : i < tr.length) :
    Quiet (tr ++ [e]) k i (tr ++ [e]).length ↔ Quiet tr k i tr.length ∧ ¬ On k e := by
  constructor
  · intro h
    constructor
    · intro l e' hl hlt he'
      refine h l e' hl (by simp; omega) ?_
      rw [List.getElem?_append_left hlt]
      exact he'
    · exact h tr.length e hi (by simp) (by simp)
  · rintro ⟨hq, hon⟩ l e' hl hlt he'
    rcases Nat.lt_or_ge l tr.length with hin | hend
    · rw [List.getElem?_append_left hin] at he'
      exact hq l e' hl hin he'
    · obtain rfl : l = tr.length := by
        simp only [List.length_append, List.length_singleton] at hlt
        omega
      simp only [List.getElem?_concat_length, Option.some.injEq] at he'
      rwa [← he']

omit [DecidableEq κ] in
/-- A key is pending after one event more when that event is its `put`, or when it was pending before
and the event is about another key. -/
theorem pendingAt_append_iff (tr : List (Event κ α β)) (e : Event κ α β) :
    PendingAt (tr ++ [e]) k i a ↔
      (i = tr.length ∧ e = put k a) ∨ (PendingAt tr k i a ∧ ¬ On k e) := by
  constructor
  · rintro ⟨hi, hq⟩
    have hle := (List.getElem?_eq_some_iff.mp hi).1
    rw [List.length_append, List.length_singleton] at hle
    rcases Nat.lt_or_eq_of_le (Nat.le_of_lt_succ hle) with hlt | rfl
    · obtain ⟨hq, hon⟩ := (Quiet.append_iff tr e k hlt).mp hq
      rw [List.getElem?_append_left hlt] at hi
      exact Or.inr ⟨⟨hi, hq⟩, hon⟩
    · rw [List.getElem?_concat_length] at hi
      exact Or.inl ⟨rfl, Option.some.inj hi⟩
  · rintro (⟨rfl, rfl⟩ | ⟨⟨hi, hq⟩, hon⟩)
    · refine ⟨List.getElem?_concat_length, fun l e' hl hlt _ => ?_⟩
      rw [List.length_append, List.length_singleton] at hlt
      omega
    · have hlt := (List.getElem?_eq_some_iff.mp hi).1
      refine ⟨?_, (Quiet.append_iff tr e k hlt).mpr ⟨hq, hon⟩⟩
      rw [List.getElem?_append_left hlt]
      exact hi

/-- **The slot is the pending value.** -/
theorem slot_eq_some_iff : ∀ tr : List (Event κ α β),
    slot tr k = some a ↔ ∃ i, PendingAt tr k i a := by
  intro tr
  induction tr using List.reverseRecOn with
  | nil => simp [PendingAt]
  | append_singleton tr e ih =>
    simp only [slot_append, pendingAt_append_iff]
    by_cases hon : On k e
    · -- `e` is the last event on `k`, so nothing before it is pending
      rw [if_pos hon]
      constructor
      · intro hput
        rcases e with ⟨k', a'⟩ | ⟨k', b'⟩ | _
        · obtain rfl : k' = k := (on_put k k' a').mp hon
          obtain rfl : a' = a := Option.some.inj hput
          exact ⟨tr.length, Or.inl ⟨rfl, rfl⟩⟩
        · cases hput
        · cases hput
      · rintro ⟨i, ⟨-, rfl⟩ | ⟨-, hnot⟩⟩
        · rfl
        · exact absurd hon hnot
    · rw [if_neg hon, ih]
      constructor
      · rintro ⟨i, hi⟩
        exact ⟨i, Or.inr ⟨hi, hon⟩⟩
      · rintro ⟨i, ⟨-, rfl⟩ | ⟨hi, -⟩⟩
        · exact absurd ((on_put k k a).mpr rfl) hon
        · exact ⟨i, hi⟩

/-- The keys that are pending at the end of the trace. -/
def pending (tr : List (Event κ α β)) : Finset κ :=
  (tr.filterMap key?).toFinset.filter fun k => (slot tr k).isSome

theorem mem_pending {tr : List (Event κ α β)} : k ∈ pending tr ↔ (slot tr k).isSome := by
  simp only [pending, Finset.mem_filter, List.mem_toFinset, List.mem_filterMap,
    and_iff_right_iff_imp]
  intro h
  obtain ⟨a, ha⟩ := Option.isSome_iff_exists.mp h
  obtain ⟨i, hi, -⟩ := (slot_eq_some_iff tr).mp ha
  exact ⟨_, List.mem_of_getElem? hi, rfl⟩

/-! ### The machine -/

variable {cap : ℕ}

/-- One step of the machine: the next map, and the pair reported. -/
def step (m : Bpf.HashMap κ α cap) : Event κ α β → Bpf.HashMap κ α cap × Option (α × β)
  | put k a => (m.put k a, none)
  | take k b =>
    match m.lookup k with
    | none => (m, none)
    | some a => (m.remove k, some (a, b))
  | skip => (m, none)

/-- The map after a trace. -/
def run (m : Bpf.HashMap κ α cap) (tr : List (Event κ α β)) : Bpf.HashMap κ α cap :=
  tr.foldl (fun m e => (step m e).1) m

/-- What is reported at position `j` of a trace. -/
def reportAt (m : Bpf.HashMap κ α cap) (tr : List (Event κ α β)) (j : ℕ) : Option (α × β) :=
  tr[j]?.bind fun e => (step (run m (tr.take j)) e).2

/-- What is reported on key `k`, in order. -/
def reportsFor (k : κ) : Bpf.HashMap κ α cap → List (Event κ α β) → List (α × β)
  | _, [] => []
  | m, e :: tr => (if On k e then (step m e).2.toList else []) ++ reportsFor k (step m e).1 tr

@[simp] theorem run_nil (m : Bpf.HashMap κ α cap) : run m ([] : List (Event κ α β)) = m := rfl

theorem run_cons (m : Bpf.HashMap κ α cap) (e : Event κ α β) (tr : List (Event κ α β)) :
    run m (e :: tr) = run (step m e).1 tr := rfl

theorem run_append (m : Bpf.HashMap κ α cap) (tr tr' : List (Event κ α β)) :
    run m (tr ++ tr') = run (run m tr) tr' := List.foldl_append

/-- A `take` reports the entry of its key, whatever the rest of the map. -/
theorem step_take (m : Bpf.HashMap κ α cap) (k : κ) (b : β) :
    (step m (take k b)).2 = (m.lookup k).map (·, b) := by
  cases hl : m.lookup k <;> simp [step, hl]

/-- A step leaves the entry its event leaves, if there is room for it, and touches no other. -/
theorem lookup_step {m : Bpf.HashMap κ α cap} {e : Event κ α β} (k : κ)
    (hroom : ∀ a, e = put k a → m.HasRoom k) :
    (step m e).1.lookup k = if On k e then e.put? else m.lookup k := by
  cases e with
  | put k' a =>
    by_cases hk : k' = k
    · subst hk
      simp [step, put?, Bpf.HashMap.lookup_put (hroom a rfl)]
    · simp [step, hk, Bpf.HashMap.lookup_put_of_ne (Ne.symm hk)]
  | take k' b =>
    cases hl : m.lookup k' with
    | none =>
      by_cases hk : k' = k
      · subst hk
        simp [step, hl, put?]
      · simp [step, hl, hk]
    | some a =>
      by_cases hk : k' = k
      · subst hk
        simp [step, hl, put?, Bpf.HashMap.lookup_remove]
      · simp [step, hl, hk, Bpf.HashMap.lookup_remove, Ne.symm hk]
  | skip => simp [step]

/-- The event finds nothing to change: its value is stored already, is refused, or has no entry to
close. -/
def Inert (m : Bpf.HashMap κ α cap) : Event κ α β → Prop
  | put k a => m.lookup k = some a ∨ ¬ m.HasRoom k
  | take k _ => k ∉ m
  | skip => True

theorem step_fst_eq_self_iff (m : Bpf.HashMap κ α cap) (e : Event κ α β) :
    (step m e).1 = m ↔ Inert m e := by
  cases e with
  | put k a =>
    show m.put k a = m ↔ _
    by_cases hroom : m.HasRoom k
    · -- the value is stored, and may have been there before
      constructor
      · intro h
        left
        rw [← h, Bpf.HashMap.lookup_put hroom, if_pos rfl]
      · rintro (h | h)
        · apply Bpf.HashMap.ext_lookup
          intro k'
          rw [Bpf.HashMap.lookup_put hroom]
          split_ifs with hk
          · rw [hk, h]
          · rfl
        · exact absurd hroom h
    · exact iff_of_true (Bpf.HashMap.put_of_not_hasRoom hroom a) (Or.inr hroom)
  | take k b =>
    show _ ↔ k ∉ m
    cases hl : m.lookup k with
    | none => simp [step, hl, ← Bpf.HashMap.lookup_eq_none]
    | some a =>
      have hmem : k ∈ m := by
        rw [Bpf.HashMap.mem_iff_isSome, hl]
        rfl
      simp only [step, hl, hmem, not_true_eq_false, iff_false]
      -- a `take` that finds a value removes it
      intro h
      rw [← h, Bpf.HashMap.mem_remove] at hmem
      exact hmem.1 rfl
  | skip => simp [step, Inert]

theorem Inert.report_eq_none {m : Bpf.HashMap κ α cap} {e : Event κ α β} (h : Inert m e) :
    (step m e).2 = none := by
  cases e with
  | put k a => rfl
  | take k b =>
    rw [step_take, Bpf.HashMap.lookup_eq_none.mpr h]
    rfl
  | skip => rfl

/-- Only a `put` that is not inert writes. -/
theorem writes_step_iff (m : Bpf.HashMap κ α cap) (e : Event κ α β) :
    m.Writes (step m e).1 ↔ (∃ k a, e = put k a) ∧ ¬ Inert m e := by
  rcases e with ⟨k, a⟩ | ⟨k, b⟩ | _
  · rw [← step_fst_eq_self_iff]
    show m.Writes (m.put k a) ↔ _ ∧ ¬ m.put k a = m
    rw [Bpf.HashMap.writes_put_iff, and_iff_right ⟨k, a, rfl⟩]
  · refine iff_of_false ?_ ?_
    · cases hl : m.lookup k with
      | none =>
        rw [step, hl]
        exact Bpf.HashMap.not_writes_self m
      | some a =>
        rw [step, hl]
        exact Bpf.HashMap.not_writes_remove m k
    · rintro ⟨⟨k', a, heq⟩, -⟩
      cases heq
  · refine iff_of_false (Bpf.HashMap.not_writes_self m) ?_
    rintro ⟨⟨k', a, heq⟩, -⟩
    cases heq

/-- Only a `take` that is not inert drops an entry. -/
theorem drops_step_iff (m : Bpf.HashMap κ α cap) (e : Event κ α β) :
    m.Drops (step m e).1 ↔ (∃ k b, e = take k b) ∧ ¬ Inert m e := by
  rcases e with ⟨k, a⟩ | ⟨k, b⟩ | _
  · refine iff_of_false (Bpf.HashMap.not_drops_put m k a) ?_
    rintro ⟨⟨k', b, heq⟩, -⟩
    cases heq
  · show _ ↔ _ ∧ ¬ k ∉ m
    rw [not_not, and_iff_right ⟨k, b, rfl⟩]
    cases hl : m.lookup k with
    | none =>
      rw [step, hl]
      exact iff_of_false (Bpf.HashMap.not_drops_self m) (Bpf.HashMap.lookup_eq_none.mp hl)
    | some a =>
      rw [step, hl]
      exact Bpf.HashMap.drops_remove_iff
  · refine iff_of_false (Bpf.HashMap.not_drops_self m) ?_
    rintro ⟨⟨k', b, heq⟩, -⟩
    cases heq

/-- What reports also drops the entry it reports. -/
theorem drops_step_of_report {m : Bpf.HashMap κ α cap} {e : Event κ α β} {x : α × β}
    (h : (step m e).2 = some x) : m.Drops (step m e).1 := by
  rw [drops_step_iff]
  refine ⟨?_, fun hinert => ?_⟩
  · rcases e with ⟨k, a⟩ | ⟨k, b⟩ | _
    · cases h
    · exact ⟨k, b, rfl⟩
    · cases h
  · rw [hinert.report_eq_none] at h
    cases h

/-- Events that are not about `k` leave its entry alone. -/
theorem lookup_run_of_not_on (m : Bpf.HashMap κ α cap) (tr : List (Event κ α β)) (k : κ)
    (h : ∀ e ∈ tr, ¬ On k e) : (run m tr).lookup k = m.lookup k := by
  induction tr generalizing m with
  | nil => rfl
  | cons e tr ih =>
    have he : ¬ On k e := h e (List.mem_cons_self ..)
    rw [run_cons, ih _ fun e' he' => h e' (List.mem_cons_of_mem _ he'), lookup_step k, if_neg he]
    rintro a rfl
    exact absurd (by simp) he

/-- **Capacity is the only obstacle**: after any history, a `put`, any events that are not about
its key and the `take` on that key report the pair exactly when the map had room for the `put`. -/
theorem report_put_take (m : Bpf.HashMap κ α cap) (k : κ) (a : α) (b : β)
    (mid : List (Event κ α β)) (hmid : ∀ e ∈ mid, ¬ On k e) :
    (step (run m (put k a :: mid)) (take k b)).2 = if m.HasRoom k then some (a, b) else none := by
  rw [step_take, run_cons, lookup_run_of_not_on _ _ _ hmid]
  by_cases hroom : m.HasRoom k
  · rw [lookup_step k fun _ _ => hroom, if_pos (by simp), if_pos hroom]
    rfl
  · have hput : (step m (put k a : Event κ α β)).1 = m := Bpf.HashMap.put_of_not_hasRoom hroom a
    have habs : m.lookup k = none := Bpf.HashMap.lookup_eq_none.mpr fun h => hroom (Or.inl h)
    rw [hput, habs, if_neg hroom]
    rfl

/-- Opening distinct keys one after another fills the map with exactly these keys. -/
theorem keys_run_puts {ι : Type*} (key : ι → κ) (val : ι → α) : ∀ l : List ι,
    (l.map key).Nodup → l.length ≤ cap →
      (run (∅ : Bpf.HashMap κ α cap)
        (l.map fun i => (put (key i) (val i) : Event κ α β))).keys = (l.map key).toFinset := by
  intro l
  induction l using List.reverseRecOn with
  | nil => intro _ _; rfl
  | append_singleton l i ih =>
    intro hnodup hlen
    rw [List.map_append, List.nodup_append] at hnodup
    rw [List.length_append, List.length_singleton] at hlen
    have hkeys := ih hnodup.1 (by omega)
    have hroom : (run (∅ : Bpf.HashMap κ α cap)
        (l.map fun i => (put (key i) (val i) : Event κ α β))).HasRoom (key i) := by
      refine Or.inr ?_
      rw [Bpf.HashMap.size, hkeys, List.toFinset_card_of_nodup hnodup.1, List.length_map]
      omega
    rw [List.map_append, run_append, List.map_singleton, run_cons, run_nil, step,
      Bpf.HashMap.keys_put hroom, hkeys, List.map_append, List.toFinset_append]
    ext k
    simp only [Finset.mem_insert, Finset.mem_union, List.mem_toFinset, List.map_singleton,
      List.mem_singleton]
    exact or_comm

/-! ### The machine with room to spare -/

/-- Fewer than `cap` keys are pending after every prefix of the trace. -/
def Fits (cap : ℕ) (tr : List (Event κ α β)) : Prop :=
  ∀ n, (pending (tr.take n)).card < cap

theorem Fits.take {tr : List (Event κ α β)} (h : Fits cap tr) (n : ℕ) : Fits cap (tr.take n) := by
  intro l
  rw [List.take_take]
  exact h _

/-- **The map holds exactly the pending values**, as long as they fit. -/
theorem lookup_run : ∀ (tr : List (Event κ α β)), Fits cap tr → ∀ k,
    (run (∅ : Bpf.HashMap κ α cap) tr).lookup k = slot tr k := by
  intro tr
  induction tr using List.reverseRecOn with
  | nil =>
    intro _ k
    simp
  | append_singleton tr e ih =>
    intro hfit k
    have hpre : Fits cap tr := by
      have := hfit.take tr.length
      rwa [List.take_left] at this
    have hkeys : (run (∅ : Bpf.HashMap κ α cap) tr).keys = pending tr := by
      ext k'
      rw [Bpf.HashMap.mem_keys, Bpf.HashMap.mem_iff_isSome, ih hpre, mem_pending]
    rw [run_append, run_cons, run_nil, slot_append, lookup_step k, ih hpre]
    intro a _
    refine Or.inr ?_
    rw [Bpf.HashMap.size, hkeys]
    simpa using hpre tr.length

theorem getElem?_take_of_lt {γ : Type*} (l : List γ) {i n : ℕ} (h : i < n) :
    (l.take n)[i]? = l[i]? := by
  rw [List.getElem?_take, if_pos h]

/-- **The machine reports exactly the matched pairs.** -/
theorem reportAt_eq_some_iff {tr : List (Event κ α β)} (hfit : Fits cap tr) :
    reportAt (∅ : Bpf.HashMap κ α cap) tr j = some (a, b) ↔ ∃ k i, Matched tr k i j a b := by
  unfold reportAt
  cases hj : tr[j]? with
  | none => simp [Matched, hj]
  | some e =>
    have hlen : j < tr.length := (List.getElem?_eq_some_iff.mp hj).1
    have htake : (tr.take j).length = j := by simp; omega
    rw [Option.bind_some]
    cases e with
    | put k a' => simp [step, Matched, hj]
    | skip => simp [step, Matched, hj]
    | take k b' =>
      rw [step_take, lookup_run _ (hfit.take j)]
      simp only [Option.map_eq_some_iff, Prod.mk.injEq, slot_eq_some_iff, PendingAt, htake]
      -- in front of `j` the prefix and the trace are the same
      constructor
      · rintro ⟨_, ⟨i, hi, hq⟩, rfl, rfl⟩
        have hij : i < j := by
          have := (List.getElem?_eq_some_iff.mp hi).1
          omega
        rw [getElem?_take_of_lt _ hij] at hi
        refine ⟨k, i, hij, hi, hj, ?_⟩
        intro l e hl hlt he
        refine hq l e hl hlt ?_
        rwa [getElem?_take_of_lt _ hlt]
      · rintro ⟨k', i, hij, hi, hj', hq⟩
        rw [hj] at hj'
        simp only [Option.some.injEq, take.injEq] at hj'
        obtain ⟨rfl, rfl⟩ := hj'
        refine ⟨a, ⟨i, ?_, ?_⟩, rfl, rfl⟩
        · rwa [getElem?_take_of_lt _ hij]
        · intro l e hl hlt he
          rw [getElem?_take_of_lt _ hlt] at he
          exact hq l e hl hlt he

/-! ### Projection to one key -/

theorem reportsFor_append (k : κ) (m : Bpf.HashMap κ α cap) (tr tr' : List (Event κ α β)) :
    reportsFor k m (tr ++ tr') = reportsFor k m tr ++ reportsFor k (run m tr) tr' := by
  induction tr generalizing m with
  | nil => rfl
  | cons e tr ih => rw [List.cons_append, reportsFor, ih, reportsFor, run_cons, List.append_assoc]

theorem reportsFor_singleton (k : κ) (m : Bpf.HashMap κ α cap) (e : Event κ α β) :
    reportsFor k m [e] = if On k e then (step m e).2.toList else [] := by
  rw [reportsFor, reportsFor, List.append_nil]

theorem reportsFor_of_not_on {tr : List (Event κ α β)} (h : ∀ e ∈ tr, ¬ On k e)
    (m : Bpf.HashMap κ α cap) : reportsFor k m tr = [] := by
  induction tr generalizing m with
  | nil => rfl
  | cons e tr ih =>
    rw [reportsFor, if_neg (h e (List.mem_cons_self ..)), List.nil_append]
    exact ih (fun e' he' => h e' (List.mem_cons_of_mem _ he')) _

/-- Of several `take`s on a key the first gets the entry, and the others find none. -/
theorem reportsFor_takes : ∀ (tr : List (Event κ α β)) (bs : List β) (m : Bpf.HashMap κ α cap),
    tr.filter (On k ·) = bs.map (take k) →
      reportsFor k m tr = ((m.lookup k).bind fun a => bs.head?.map (a, ·)).toList
  | [], bs, m, h => by
    obtain rfl : bs = [] := List.map_eq_nil_iff.mp h.symm
    cases m.lookup k <;> rfl
  | e :: tr, bs, m, h => by
    rw [reportsFor]
    by_cases hon : On k e
    · -- `e` is the first `take`
      rw [List.filter_cons, if_pos (decide_eq_true hon)] at h
      obtain ⟨b, bs, rfl, rfl, htr⟩ := List.map_eq_cons_iff.mp h.symm
      have hnone : (step m (take k b : Event κ α β)).1.lookup k = none := by
        rw [lookup_step k (fun a ha => by cases ha), if_pos ((on_take k k b).mpr rfl)]
        rfl
      rw [if_pos hon, step_take, reportsFor_takes tr bs _ htr.symm, hnone, Option.bind_none,
        Option.toList_none, List.append_nil]
      cases m.lookup k <;> rfl
    · have hkeep : (step m e).1.lookup k = m.lookup k := by
        rw [lookup_step k, if_neg hon]
        rintro a rfl
        exact absurd ((on_put k k a).mpr rfl) hon
      rw [List.filter_cons, if_neg (by rwa [decide_eq_true_eq])] at h
      rw [if_neg hon, List.nil_append, reportsFor_takes tr bs _ h, hkeep]

/-- **One `put`, several `take`s**: the `put` is reported with the first of them, if the map had room
for it, and with no other. -/
theorem reportsFor_put_takes {before after : List (Event κ α β)} {bs : List β}
    (hbefore : ∀ e ∈ before, ¬ On k e) (hafter : after.filter (On k ·) = bs.map (take k)) (a : α)
    (m : Bpf.HashMap κ α cap) :
    reportsFor k m (before ++ put k a :: after) =
      if (run m before).HasRoom k then (bs.head?.map (a, ·)).toList else [] := by
  have hput : On k (put k a : Event κ α β) := (on_put k k a).mpr rfl
  rw [reportsFor_append, reportsFor_of_not_on hbefore, List.nil_append, reportsFor, if_pos hput,
    reportsFor_takes after bs _ hafter]
  show ([] : List (α × β)) ++ _ = _
  by_cases hroom : (run m before).HasRoom k
  · rw [lookup_step k fun _ _ => hroom, if_pos hput, if_pos hroom]
    rfl
  · have hfull : (step (run m before) (put k a : Event κ α β)).1 = run m before :=
      Bpf.HashMap.put_of_not_hasRoom hroom a
    have habs : (run m before).lookup k = none :=
      Bpf.HashMap.lookup_eq_none.mpr fun h => hroom (Or.inl h)
    rw [hfull, habs, if_neg hroom]
    rfl

theorem Fits.filter {tr : List (Event κ α β)} (hcap : 1 < cap) (k : κ) :
    Fits cap (tr.filter (On k ·)) := by
  intro n
  have hsub : pending ((tr.filter (On k ·)).take n) ⊆ {k} := by
    intro k' hk'
    obtain ⟨a, ha⟩ := Option.isSome_iff_exists.mp (mem_pending.mp hk')
    obtain ⟨i, hi, -⟩ := (slot_eq_some_iff _).mp ha
    have hmem := List.mem_of_mem_take (List.mem_of_getElem? hi)
    simpa using (List.mem_filter.mp hmem).2
  exact (Finset.card_le_card hsub).trans_lt (by simpa using hcap)

/-- **Non-interference**: what is reported on a key depends on the events of that key alone. -/
theorem reportsFor_filter (hcap : 1 < cap) (k : κ) : ∀ tr : List (Event κ α β), Fits cap tr →
    reportsFor k (∅ : Bpf.HashMap κ α cap) tr
      = reportsFor k (∅ : Bpf.HashMap κ α cap) (tr.filter (On k ·)) := by
  intro tr
  induction tr using List.reverseRecOn with
  | nil => intro _; rfl
  | append_singleton tr e ih =>
    intro hfit
    have hpre : Fits cap tr := by
      have := hfit.take tr.length
      rwa [List.take_left] at this
    rw [reportsFor_append, reportsFor_singleton, ih hpre, List.filter_append]
    by_cases hon : On k e
    · have hone : [e].filter (On k ·) = [e] := by simp [hon]
      rw [if_pos hon, hone, reportsFor_append, reportsFor_singleton, if_pos hon]
      congr 2
      -- only a `take` reports, and it looks up `k` alone
      cases e with
      | put k' a => rfl
      | skip => rfl
      | take k' b =>
        simp only [on_take] at hon
        rw [step_take, step_take, hon, lookup_run _ hpre, lookup_run _ (Fits.filter hcap k),
          slot_filter]
    · have hnone : [e].filter (On k ·) = [] := by simp [hon]
      rw [if_neg hon, hnone, List.append_nil, List.append_nil]

/-! ### The machine of any capacity -/

/-- After an event on `k`, the entry is the value of its `put`, if that found room. -/
theorem lookup_step_of_on {m : Bpf.HashMap κ α cap} {e : Event κ α β} (hon : On k e) :
    (step m e).1.lookup k = some a ↔ e = put k a ∧ m.HasRoom k := by
  rcases e with ⟨k', a'⟩ | ⟨k', b'⟩ | _
  · obtain rfl : k' = k := (on_put k k' a').mp hon
    by_cases hroom : m.HasRoom k'
    · rw [lookup_step k' fun _ _ => hroom, if_pos hon]
      simp [put?, hroom]
    · have hfull : (step m (put k' a' : Event κ α β)).1 = m :=
        Bpf.HashMap.put_of_not_hasRoom hroom a'
      have habs : m.lookup k' = none := Bpf.HashMap.lookup_eq_none.mpr fun h => hroom (Or.inl h)
      simp [hfull, habs, hroom]
  · rw [lookup_step k (fun _ h => by cases h), if_pos hon]
    simp [put?]
  · exact absurd hon (not_on_skip k)

/-- Another key's event leaves the entry as it is. -/
theorem lookup_step_of_not_on {m : Bpf.HashMap κ α cap} {e : Event κ α β} (hon : ¬ On k e) :
    (step m e).1.lookup k = m.lookup k := by
  rw [lookup_step k, if_neg hon]
  rintro a rfl
  exact absurd ((on_put k k a).mpr rfl) hon

omit [DecidableEq κ] in
/-- The last event on `k` is the one that is pending. -/
theorem exists_pendingAt_of_on {tr : List (Event κ α β)} {e : Event κ α β} {Q : ℕ → Prop}
    (hon : On k e) : (∃ i, PendingAt (tr ++ [e]) k i a ∧ Q i) ↔ e = put k a ∧ Q tr.length := by
  simp only [pendingAt_append_iff]
  constructor
  · rintro ⟨i, ⟨rfl, he⟩ | ⟨-, hnot⟩, hroom⟩
    · exact ⟨he, hroom⟩
    · exact absurd hon hnot
  · rintro ⟨he, hroom⟩
    exact ⟨tr.length, Or.inl ⟨rfl, he⟩, hroom⟩

omit [DecidableEq κ] in
/-- What is pending stays so when another key has an event. -/
theorem exists_pendingAt_of_not_on {tr : List (Event κ α β)} {e : Event κ α β} {Q : ℕ → Prop}
    (hon : ¬ On k e) : (∃ i, PendingAt (tr ++ [e]) k i a ∧ Q i) ↔ ∃ i, PendingAt tr k i a ∧ Q i := by
  simp only [pendingAt_append_iff]
  constructor
  · rintro ⟨i, ⟨-, rfl⟩ | ⟨hi, -⟩, hroom⟩
    · exact absurd ((on_put k k a).mpr rfl) hon
    · exact ⟨i, hi, hroom⟩
  · rintro ⟨i, hi, hroom⟩
    exact ⟨i, Or.inr ⟨hi, hon⟩, hroom⟩

/-- **The entry of a key, whatever the capacity**: the pending value, if its `put` found room. -/
theorem lookup_run_eq_some_iff : ∀ tr : List (Event κ α β),
    (run (∅ : Bpf.HashMap κ α cap) tr).lookup k = some a ↔
      ∃ i, PendingAt tr k i a ∧ (run (∅ : Bpf.HashMap κ α cap) (tr.take i)).HasRoom k := by
  intro tr
  induction tr using List.reverseRecOn with
  | nil => simp [PendingAt]
  | append_singleton tr e ih =>
    have hfirst : ∀ {i : ℕ}, i ≤ tr.length → (tr ++ [e]).take i = tr.take i := fun h =>
      List.take_append_of_le_length h
    rw [run_append, run_cons, run_nil]
    by_cases hon : On k e
    · rw [lookup_step_of_on hon, exists_pendingAt_of_on hon, hfirst le_rfl, List.take_length]
    · rw [lookup_step_of_not_on hon, ih, exists_pendingAt_of_not_on hon]
      refine exists_congr fun i => and_congr_right fun hi => ?_
      have hlt : i < tr.length := (List.getElem?_eq_some_iff.mp hi.1).1
      rw [hfirst hlt.le]

omit [DecidableEq κ] in
/-- Matching looks at the trace up to the `take` alone. -/
theorem matched_iff_pendingAt_take {tr : List (Event κ α β)} {k : κ} {b : β}
    (hj : tr[j]? = some (take k b)) :
    Matched tr k i j a b ↔ PendingAt (tr.take j) k i a := by
  have hlen : (tr.take j).length = j := by
    have := (List.getElem?_eq_some_iff.mp hj).1
    rw [List.length_take]
    omega
  unfold Matched PendingAt
  rw [hlen]
  constructor
  · rintro ⟨hij, hi, -, hq⟩
    refine ⟨by rwa [getElem?_take_of_lt _ hij], fun l e hl hlt he => hq l e hl hlt ?_⟩
    rwa [getElem?_take_of_lt _ hlt] at he
  · rintro ⟨hi, hq⟩
    have hij : i < j := by
      have := (List.getElem?_eq_some_iff.mp hi).1
      omega
    rw [getElem?_take_of_lt _ hij] at hi
    refine ⟨hij, hi, hj, fun l e hl hlt he => hq l e hl hlt ?_⟩
    rwa [getElem?_take_of_lt _ hlt]

/-- **What is reported, whatever the capacity**: the matched pairs whose `put` found room. -/
theorem reportAt_eq_some_iff_hasRoom {tr : List (Event κ α β)} :
    reportAt (∅ : Bpf.HashMap κ α cap) tr j = some (a, b) ↔
      ∃ k i, Matched tr k i j a b ∧ (run (∅ : Bpf.HashMap κ α cap) (tr.take i)).HasRoom k := by
  unfold reportAt
  cases hj : tr[j]? with
  | none => simp [Matched, hj]
  | some e =>
    rw [Option.bind_some]
    cases e with
    | put k a' => simp [step, Matched, hj]
    | skip => simp [step, Matched, hj]
    | take k b' =>
      rw [step_take]
      simp only [Option.map_eq_some_iff, Prod.mk.injEq, lookup_run_eq_some_iff]
      constructor
      · rintro ⟨_, ⟨i, hi, hroom⟩, rfl, rfl⟩
        have hmatch := (matched_iff_pendingAt_take hj).mpr hi
        rw [List.take_take, min_eq_left hmatch.1.le] at hroom
        exact ⟨k, i, hmatch, hroom⟩
      · rintro ⟨k', i, hmatch, hroom⟩
        have htake := hmatch.2.2.1
        rw [hj] at htake
        simp only [Option.some.injEq, take.injEq] at htake
        obtain ⟨rfl, rfl⟩ := htake
        refine ⟨a, ⟨i, (matched_iff_pendingAt_take hj).mp hmatch, ?_⟩, rfl, rfl⟩
        rwa [List.take_take, min_eq_left hmatch.1.le]

end Slots
