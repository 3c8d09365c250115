import Mathlib.Data.List.Induction

/-!
# Machines that go from state to state

A machine is a relation `Step`: the action `act` leads from `s` to `s'`.  `Runs` are its runs.

* `Runs.invariant`: what every step keeps holds after every run.
* `Runs.project` and `Runs.lift`: when each step of one machine is a step of another one or no step
  of it, each run is a run; and runs of a part are runs of the whole.
* `Runs.length_le` and `exists_runs_of_progress`: when every inner action lowers a measure, runs
  of inner actions end; and when one is possible until the goal is reached, they reach it.
-/

namespace Machines

variable {σ τ α β : Type*}

/-- The actions lead from one state to the other. -/
inductive Runs (Step : σ → α → σ → Prop) (s : σ) : List α → σ → Prop where
  | nil : Runs Step s [] s
  | concat {acts : List α} {s' s'' : σ} {act : α} (h : Runs Step s acts s')
      (hstep : Step s' act s'') : Runs Step s (acts ++ [act]) s''

variable {Step : σ → α → σ → Prop} {s s' s'' : σ} {acts acts' : List α} {act : α}

/-! ### Runs, part by part -/

theorem runs_nil_iff : Runs Step s [] s' ↔ s' = s := by
  constructor
  · intro h
    generalize hl : ([] : List α) = l at h
    cases h with
    | nil => rfl
    | concat _ _ => simp at hl
  · rintro rfl
    exact .nil

theorem runs_concat_iff :
    Runs Step s (acts ++ [act]) s'' ↔ ∃ s', Runs Step s acts s' ∧ Step s' act s'' := by
  constructor
  · intro h
    generalize hl : acts ++ [act] = l at h
    cases h with
    | nil => simp at hl
    | concat h hstep =>
      obtain ⟨rfl, hlast⟩ := List.append_inj' hl rfl
      cases hlast
      exact ⟨_, h, hstep⟩
  · rintro ⟨s', h, hstep⟩
    exact h.concat hstep

theorem runs_append_iff :
    Runs Step s (acts ++ acts') s'' ↔ ∃ s', Runs Step s acts s' ∧ Runs Step s' acts' s'' := by
  induction acts' using List.reverseRecOn generalizing s'' with
  | nil =>
    rw [List.append_nil]
    constructor
    · intro h
      exact ⟨s'', h, .nil⟩
    · rintro ⟨s', h, hnil⟩
      rw [runs_nil_iff.mp hnil]
      exact h
  | append_singleton acts' act ih =>
    rw [← List.append_assoc, runs_concat_iff]
    constructor
    · rintro ⟨t, h, hstep⟩
      obtain ⟨s', h, h'⟩ := ih.mp h
      exact ⟨s', h, h'.concat hstep⟩
    · rintro ⟨s', h, h'⟩
      obtain ⟨t, h', hstep⟩ := runs_concat_iff.mp h'
      exact ⟨t, ih.mpr ⟨s', h, h'⟩, hstep⟩

theorem Runs.append (h : Runs Step s acts s') (h' : Runs Step s' acts' s'') :
    Runs Step s (acts ++ acts') s'' := runs_append_iff.mpr ⟨s', h, h'⟩

/-- A run that goes on after some actions has come to a state by then. -/
theorem Runs.split {post : List α} (h : Runs Step s (acts ++ act :: post) s'') :
    ∃ s₁ s₂, Runs Step s acts s₁ ∧ Step s₁ act s₂ := by
  rw [← List.singleton_append, ← List.append_assoc] at h
  obtain ⟨s₂, h, -⟩ := runs_append_iff.mp h
  obtain ⟨s₁, h, hstep⟩ := runs_concat_iff.mp h
  exact ⟨s₁, s₂, h, hstep⟩

/-! ### What a run keeps, and what it records -/

/-- **Invariants**: what every step keeps, every run keeps. -/
theorem Runs.invariant {P : σ → Prop} (hkeep : ∀ ⦃s act s'⦄, Step s act s' → P s → P s')
    (h : Runs Step s acts s') (hs : P s) : P s' := by
  induction h with
  | nil => exact hs
  | concat _ hstep ih => exact hkeep hstep ih

theorem filterMap_concat (f : α → Option β) (acts : List α) (act : α) :
    (acts ++ [act]).filterMap f = acts.filterMap f ++ (f act).toList := by
  rw [List.filterMap_append]
  cases h : f act with
  | none => rw [List.filterMap_cons_none h, List.filterMap_nil, Option.toList_none]
  | some b => rw [List.filterMap_cons_some h, List.filterMap_nil, Option.toList_some]

/-- A recorded value was recorded by one of the actions, and those before it recorded what is before
it. -/
theorem exists_of_filterMap_eq_append_cons {f : α → Option β} {b : β} {pre post : List β}
    (h : acts.filterMap f = pre ++ b :: post) : ∃ pre' act post', acts = pre' ++ act :: post' ∧
      pre'.filterMap f = pre ∧ f act = some b := by
  obtain ⟨l₁, l₂, rfl, hpre, hrest⟩ := List.filterMap_eq_append_iff.mp h
  obtain ⟨l, act, l', rfl, hnone, hact, -⟩ := List.filterMap_eq_cons_iff.mp hrest
  refine ⟨l₁ ++ l, act, l', (List.append_assoc ..).symm, ?_, hact⟩
  rw [List.filterMap_append, hpre, List.filterMap_eq_nil_iff.mpr hnone, List.append_nil]

/-- **Projection**: when each step is a step of another machine or leaves its state as it is, the
run is a run of that machine. -/
theorem Runs.project {Step' : τ → β → τ → Prop} {f : σ → τ} {g : α → Option β}
    (hsome : ∀ ⦃s act s' b⦄, Step s act s' → g act = some b → Step' (f s) b (f s'))
    (hnone : ∀ ⦃s act s'⦄, Step s act s' → g act = none → f s' = f s)
    (h : Runs Step s acts s') : Runs Step' (f s) (acts.filterMap g) (f s') := by
  induction h with
  | nil => exact .nil
  | @concat acts t t' act _ hstep ih =>
    rw [filterMap_concat]
    cases hg : g act with
    | none =>
      rw [Option.toList_none, List.append_nil, hnone hstep hg]
      exact ih
    | some b => exact ih.concat (hsome hstep hg)

/-- **Lifting**: when the steps of a part are steps of the whole, so are the runs. -/
theorem Runs.lift {Step' : τ → β → τ → Prop} {f : σ → τ} {g : α → β} {P : α → Prop}
    (hlift : ∀ ⦃s act s'⦄, Step s act s' → P act → Step' (f s) (g act) (f s'))
    (h : Runs Step s acts s') (hacts : ∀ act ∈ acts, P act) :
    Runs Step' (f s) (acts.map g) (f s') := by
  induction h with
  | nil => exact .nil
  | @concat acts t t' act _ hstep ih =>
    have hact : P act := hacts act (List.mem_append_right _ (List.mem_singleton_self _))
    rw [List.map_append, List.map_singleton]
    exact (ih fun b hb => hacts b (List.mem_append_left _ hb)).concat (hlift hstep hact)

/-! ### Runs of inner actions -/

section Measure

variable {I : α → Prop} {μ : σ → ℕ} {P G : σ → Prop}
  (hlower : ∀ ⦃s act s'⦄, Step s act s' → I act → P s → μ s' < μ s)
  (hkeep : ∀ ⦃s act s'⦄, Step s act s' → I act → P s → P s')
include hlower hkeep

/-- Runs of actions that lower the measure are no longer than the measure. -/
theorem Runs.length_le (h : Runs Step s acts s') (hinner : ∀ act ∈ acts, I act) (hs : P s) :
    acts.length ≤ μ s := by
  have hboth : acts.length + μ s' ≤ μ s ∧ P s' := by
    induction h with
    | nil => exact ⟨Nat.le_of_eq (Nat.zero_add _), hs⟩
    | @concat acts t t' act _ hstep ih =>
      obtain ⟨hle, ht⟩ := ih fun b hb => hinner b (List.mem_append_left _ hb)
      have hact : I act := hinner act (List.mem_append_right _ (List.mem_singleton_self _))
      have hlt : μ t' < μ t := hlower hstep hact ht
      refine ⟨?_, hkeep hstep hact ht⟩
      rw [List.length_append, List.length_singleton]
      omega
  exact Nat.le_trans (Nat.le_add_right _ _) hboth.1

/-- **Progress**: when an inner action is possible in every state of `P` that is not a goal, and
keeps `P`, a goal can be reached by inner actions. -/
theorem exists_runs_of_progress
    (hprogress : ∀ ⦃s⦄, P s → ¬ G s → ∃ act s', I act ∧ Step s act s') (hs : P s) :
    ∃ acts s', Runs Step s acts s' ∧ (∀ act ∈ acts, I act) ∧ P s' ∧ G s' := by
  induction hn : μ s using Nat.strongRecOn generalizing s with
  | ind n ih =>
    by_cases hgoal : G s
    · exact ⟨[], s, .nil, by simp, hs, hgoal⟩
    · obtain ⟨act, t, hact, hstep⟩ := hprogress hs hgoal
      obtain ⟨acts, s', hrun, hacts, hP, hG⟩ :=
        ih (μ t) (hn ▸ hlower hstep hact hs) (hkeep hstep hact hs) rfl
      refine ⟨act :: acts, s', (Runs.nil.concat hstep).append hrun, ?_, hP, hG⟩
      exact List.forall_mem_cons.mpr ⟨hact, hacts⟩

end Measure

end Machines
