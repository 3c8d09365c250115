import Mathlib.Data.List.Induction

/-!
# The last write to a cell

Events come one after another, and each leaves a cell alone, clears it or writes it: `upd e` is
`none`, `some none` or `some (some v)`.  `cell_eq_some_iff`: the cell holds what the last event
wrote that did not leave it alone.
-/

namespace LastWrite

variable {ε ν : Type*} (upd : ε → Option (Option ν))

/-- The cell after the events, empty at first. -/
def cell (events : List ε) : Option ν := events.foldl (fun c e => (upd e).getD c) none

theorem cell_concat (events : List ε) (e : ε) :
    cell upd (events ++ [e]) = (upd e).getD (cell upd events) := by
  rw [cell, List.foldl_append]
  rfl

/-- Event `n` writes `v`, and every later event leaves the cell alone. -/
structure WrittenAt (events : List ε) (n : ℕ) (v : ν) : Prop where
  write : ∃ e, events[n]? = some e ∧ upd e = some (some v)
  later : ∀ n' e, n < n' → events[n']? = some e → upd e = none

variable {upd} {events : List ε} {e : ε} {n : ℕ} {v : ν}

theorem WrittenAt.lt (h : WrittenAt upd events n v) : n < events.length := by
  obtain ⟨e, he, -⟩ := h.write
  exact (List.getElem?_eq_some_iff.mp he).1

/-- One event more. -/
theorem writtenAt_concat_iff : WrittenAt upd (events ++ [e]) n v ↔
    (n = events.length ∧ upd e = some (some v)) ∨ (WrittenAt upd events n v ∧ upd e = none) := by
  have hlast : (events ++ [e])[events.length]? = some e := List.getElem?_concat_length
  have hold : ∀ {n : ℕ}, n < events.length → (events ++ [e])[n]? = events[n]? := fun h =>
    List.getElem?_append_left h
  constructor
  · intro h
    have hle := h.lt
    rw [List.length_append, List.length_singleton] at hle
    obtain ⟨e', he', hv⟩ := h.write
    rcases Nat.lt_or_eq_of_le (Nat.le_of_lt_succ hle) with hlt | rfl
    · rw [hold hlt] at he'
      refine Or.inr ⟨⟨⟨e', he', hv⟩, fun n' e'' hn he'' => ?_⟩, h.later _ e hlt hlast⟩
      refine h.later n' e'' hn ?_
      rwa [hold (List.getElem?_eq_some_iff.mp he'').1]
    · rw [hlast, Option.some.injEq] at he'
      rw [← he'] at hv
      exact Or.inl ⟨rfl, hv⟩
  · rintro (⟨rfl, hv⟩ | ⟨h, hkeep⟩)
    · refine ⟨⟨e, hlast, hv⟩, fun n' e' hn he' => ?_⟩
      have hlt := (List.getElem?_eq_some_iff.mp he').1
      rw [List.length_append, List.length_singleton] at hlt
      omega
    · obtain ⟨e', he', hv⟩ := h.write
      refine ⟨⟨e', by rw [hold h.lt]; exact he', hv⟩, fun n' e'' hn he'' => ?_⟩
      have hlt := (List.getElem?_eq_some_iff.mp he'').1
      rw [List.length_append, List.length_singleton] at hlt
      rcases Nat.lt_or_eq_of_le (Nat.le_of_lt_succ hlt) with hin | rfl
      · rw [hold hin] at he''
        exact h.later n' e'' hn he''
      · rw [hlast, Option.some.injEq] at he''
        rw [← he'']
        exact hkeep

/-- **The last write wins.** -/
theorem cell_eq_some_iff : ∀ {events : List ε},
    cell upd events = some v ↔ ∃ n, WrittenAt upd events n v := by
  intro events
  induction events using List.reverseRecOn with
  | nil =>
    constructor
    · intro h
      cases h
    · rintro ⟨n, h⟩
      exact absurd h.lt (Nat.not_lt_zero n)
  | append_singleton events e ih =>
    rw [cell_concat]
    simp only [writtenAt_concat_iff]
    cases hupd : upd e with
    | none =>
      rw [Option.getD_none, ih]
      simp
    | some c =>
      rw [Option.getD_some]
      simp

end LastWrite
