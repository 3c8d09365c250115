import Mathlib.Control.Basic
import Mathlib.Data.Nat.Notation

/-!
# Go statements on a state

A statement that reads and writes a state `σ` is a `GoM σ`: it completes with a value and a new
state, or it ends in a run-time panic, and then no state is left for anybody to see.

The rules for a loop over a slice are `Gives.forM_foldl` (what an iteration does to an observation
of the state, the loop does to it by a fold), `forM_completes` (an invariant under which an
iteration completes makes the loop complete) and `forall_reachesAt_iff` (a property of the states
after all prefixes, from what one iteration does to it; `forall_reachesAt_iff_of_exists` where the
loop completes).
-/

namespace Golang

/-- The run-time panics a statement can end in. -/
inductive Panic where
  | nilDereference
  | indexOutOfRange
  | interfaceConversion
  deriving DecidableEq, Repr

/-- A statement on the state `σ`. -/
abbrev GoM (σ : Type) := StateT σ (Except Panic)

namespace GoM

variable {σ τ α β : Type}

/-- `*p`. -/
def deref : Option α → GoM σ α
  | some a => pure a
  | none => throw .nilDereference

/-- The value of an expression that may panic. -/
def eval : Except Panic α → GoM σ α
  | .ok a => pure a
  | .error p => throw p

/-- A statement on a part of the state. -/
def zoom (get : τ → σ) (set : σ → τ → τ) (x : GoM σ α) : GoM τ α := fun t =>
  match x (get t) with
  | .ok (a, s) => .ok (a, set s t)
  | .error p => .error p

/-- From the state `s` the statement completes with the value `a` and the state `s'`. -/
def Gives (x : GoM σ α) (s : σ) (a : α) (s' : σ) : Prop := x s = .ok (a, s')

/-! ### Which values and states the statements give -/

theorem gives_pure {a b : α} {s s' : σ} : Gives (pure a) s b s' ↔ b = a ∧ s' = s := by
  constructor
  · intro h
    cases h
    exact ⟨rfl, rfl⟩
  · rintro ⟨rfl, rfl⟩
    rfl

theorem gives_bind {x : GoM σ α} {f : α → GoM σ β} {s s' : σ} {b : β} :
    Gives (x >>= f) s b s' ↔ ∃ a t, Gives x s a t ∧ Gives (f a) t b s' := by
  unfold Gives
  change (x s >>= fun p => f p.1 p.2) = _ ↔ _
  cases x s with
  | error p => simp [bind, Except.bind]
  | ok p =>
    constructor
    · intro h
      exact ⟨p.1, p.2, rfl, h⟩
    · rintro ⟨a, t, hp, h⟩
      cases hp
      exact h

theorem gives_get {s a s' : σ} : Gives (get : GoM σ σ) s a s' ↔ a = s ∧ s' = s := by
  constructor
  · intro h
    cases h
    exact ⟨rfl, rfl⟩
  · rintro ⟨rfl, rfl⟩
    rfl

theorem gives_modify {f : σ → σ} {s s' : σ} {u : PUnit} :
    Gives (modify f : GoM σ PUnit) s u s' ↔ s' = f s := by
  constructor
  · intro h
    cases h
    rfl
  · rintro rfl
    rfl

theorem gives_set {a s s' : σ} {u : PUnit} : Gives (set a : GoM σ PUnit) s u s' ↔ s' = a := by
  constructor
  · intro h
    cases h
    rfl
  · rintro rfl
    rfl

theorem gives_deref {p : Option α} {s s' : σ} {a : α} :
    Gives (deref p) s a s' ↔ p = some a ∧ s' = s := by
  cases p with
  | none =>
    refine iff_of_false ?_ (by simp)
    intro h
    cases h
  | some b =>
    rw [deref, gives_pure, Option.some.injEq, eq_comm (a := a)]

theorem gives_zoom {get : τ → σ} {set : σ → τ → τ} {x : GoM σ α} {t t' : τ} {a : α} :
    Gives (zoom get set x) t a t' ↔ ∃ s, Gives x (get t) a s ∧ t' = set s t := by
  unfold Gives zoom
  cases x (get t) with
  | error p => simp
  | ok r =>
    constructor
    · intro h
      cases h
      exact ⟨r.2, rfl, rfl⟩
    · rintro ⟨s, hr, rfl⟩
      cases hr
      rfl

theorem gives_discard {x : GoM σ α} {s s' : σ} {u : PUnit} :
    Gives (discard x) s u s' ↔ ∃ a, Gives x s a s' := by
  unfold Gives
  change ((fun _ : α => PUnit.unit) <$> x) s = _ ↔ _
  rw [← bind_pure_comp]
  change Gives (x >>= fun _ => pure PUnit.unit) s u s' ↔ _
  rw [gives_bind]
  constructor
  · rintro ⟨a, t, hx, hpure⟩
    rw [(gives_pure.mp hpure).2]
    exact ⟨a, hx⟩
  · rintro ⟨a, hx⟩
    exact ⟨a, s', hx, gives_pure.mpr ⟨rfl, rfl⟩⟩

theorem Gives.unique {x : GoM σ α} {s s' t' : σ} {a b : α} (h : Gives x s a s')
    (h' : Gives x s b t') : a = b ∧ s' = t' := by
  have heq : (Except.ok (a, s') : Except Panic (α × σ)) = .ok (b, t') := h.symm.trans h'
  cases heq
  exact ⟨rfl, rfl⟩

/-! ### Loops over a slice -/

/-- A loop over nested slices is a loop over the flattened one. -/
theorem forM_flatMap {l : List α} {g : α → List β} {f : β → GoM σ PUnit} :
    forM (l.flatMap g) f = forM l fun a => forM (g a) f := by
  induction l with
  | nil => rfl
  | cons a l ih => rw [List.flatMap_cons, List.forM_append, List.forM_cons, ih]

theorem gives_forM_nil {f : α → GoM σ PUnit} {s s' : σ} {u : PUnit} :
    Gives (forM [] f) s u s' ↔ s' = s := by
  rw [List.forM_nil, gives_pure]
  exact and_iff_right rfl

theorem gives_forM_cons {f : α → GoM σ PUnit} {a : α} {l : List α} {s s' : σ} {u : PUnit} :
    Gives (forM (a :: l) f) s u s' ↔ ∃ t, Gives (f a) s ⟨⟩ t ∧ Gives (forM l f) t u s' := by
  rw [List.forM_cons, gives_bind]
  exact ⟨fun ⟨_, t, ha, hl⟩ => ⟨t, ha, hl⟩, fun ⟨t, ha, hl⟩ => ⟨_, t, ha, hl⟩⟩

theorem gives_forM_singleton {f : α → GoM σ PUnit} {a : α} {s s' : σ} :
    Gives (forM [a] f) s ⟨⟩ s' ↔ Gives (f a) s ⟨⟩ s' := by
  rw [gives_forM_cons]
  simp only [gives_forM_nil, exists_eq_right']

theorem gives_forM_concat {f : α → GoM σ PUnit} {l : List α} {a : α} {s s' : σ} :
    Gives (forM (l ++ [a]) f) s ⟨⟩ s' ↔ ∃ t, Gives (forM l f) s ⟨⟩ t ∧ Gives (f a) t ⟨⟩ s' := by
  rw [List.forM_append, gives_bind]
  constructor
  · rintro ⟨_, t, hl, hlast⟩
    exact ⟨t, hl, gives_forM_singleton.mp hlast⟩
  · rintro ⟨t, hl, ha⟩
    exact ⟨⟨⟩, t, hl, gives_forM_singleton.mpr ha⟩

/-- What an iteration does to the observation `g` of the state, as long as `I` holds, the loop does
to it by a fold. -/
theorem Gives.forM_foldl {f : α → GoM σ PUnit} {I : σ → Prop} {g : σ → τ} {F : τ → α → τ}
    {l : List α} {s s' : σ} {u : PUnit} (hl : Gives (forM l f) s u s') (hs : I s)
    (hstep : ∀ a ∈ l, ∀ t t', I t → Gives (f a) t ⟨⟩ t' → I t' ∧ g t' = F (g t) a) :
    I s' ∧ g s' = l.foldl F (g s) := by
  induction l generalizing s with
  | nil =>
    rw [gives_forM_nil.mp hl, List.foldl_nil]
    exact ⟨hs, rfl⟩
  | cons a l ih =>
    obtain ⟨t, ha, hrest⟩ := gives_forM_cons.mp hl
    obtain ⟨ht, hfirst⟩ := hstep a (List.mem_cons_self ..) s t hs ha
    rw [List.foldl_cons, ← hfirst]
    exact ih hrest ht fun b hb => hstep b (List.mem_cons_of_mem _ hb)

/-- A loop whose iterations complete under an invariant completes, and keeps it. -/
theorem forM_completes {f : α → GoM σ PUnit} {I : σ → Prop} {l : List α} {s : σ} (hs : I s)
    (hstep : ∀ a ∈ l, ∀ t, I t → ∃ t', Gives (f a) t ⟨⟩ t' ∧ I t') :
    ∃ s', Gives (forM l f) s ⟨⟩ s' ∧ I s' := by
  induction l generalizing s with
  | nil => exact ⟨s, gives_forM_nil.mpr rfl, hs⟩
  | cons a l ih =>
    obtain ⟨t, ha, ht⟩ := hstep a (List.mem_cons_self ..) s hs
    obtain ⟨s', hl, hs'⟩ := ih ht fun b hb => hstep b (List.mem_cons_of_mem _ hb)
    exact ⟨s', gives_forM_cons.mpr ⟨t, ha, hl⟩, hs'⟩

/-! ### States after the prefixes of a slice -/

/-- The iterations on the first `n` elements lead from `s` to `t`. -/
def ReachesAt (f : α → GoM σ PUnit) (l : List α) (s : σ) (n : ℕ) (t : σ) : Prop :=
  Gives (forM (l.take n) f) s ⟨⟩ t

theorem reachesAt_zero {f : α → GoM σ PUnit} {l : List α} {s t : σ} :
    ReachesAt f l s 0 t ↔ t = s := by
  rw [ReachesAt, List.take_zero, gives_forM_nil]

theorem reachesAt_succ {f : α → GoM σ PUnit} {l : List α} {n : ℕ} {a : α} (ha : l[n]? = some a)
    {s t' : σ} :
    ReachesAt f l s (n + 1) t' ↔ ∃ t, ReachesAt f l s n t ∧ Gives (f a) t ⟨⟩ t' := by
  have htake : l.take (n + 1) = l.take n ++ [a] := by
    rw [List.take_add_one, ha, Option.toList_some]
  rw [ReachesAt, htake, gives_forM_concat]
  rfl

/-- A loop that completes has reached a state after every prefix. -/
theorem Gives.exists_reachesAt {f : α → GoM σ PUnit} {l : List α} {s s' : σ}
    (h : Gives (forM l f) s ⟨⟩ s') (n : ℕ) : ∃ t, ReachesAt f l s n t := by
  rw [← List.take_append_drop n l, List.forM_append, gives_bind] at h
  obtain ⟨_, t, ht, -⟩ := h
  exact ⟨t, ht⟩

theorem ReachesAt.unique {f : α → GoM σ PUnit} {l : List α} {n : ℕ} {s t t' : σ}
    (h : ReachesAt f l s n t) (h' : ReachesAt f l s n t') : t = t' := (Gives.unique h h').2

/-- What every iteration keeps, holds after every prefix. -/
theorem ReachesAt.invariant {f : α → GoM σ PUnit} {l : List α} {I : σ → Prop} {n : ℕ} {s t : σ}
    (h : ReachesAt f l s n t) (hs : I s)
    (hstep : ∀ a ∈ l, ∀ t t', I t → Gives (f a) t ⟨⟩ t' → I t') : I t := by
  have hfold := Gives.forM_foldl (g := fun _ => ()) (F := fun _ _ => ()) h hs
    fun a hmem t t' ht ha => ⟨hstep a (List.mem_of_mem_take hmem) t t' ht ha, rfl⟩
  exact hfold.1

/-- Behind the end of the slice nothing runs any more. -/
theorem reachesAt_of_getElem?_eq_none {f : α → GoM σ PUnit} {l : List α} {n : ℕ}
    (hn : l[n]? = none) {s t : σ} : ReachesAt f l s (n + 1) t ↔ ReachesAt f l s n t := by
  rw [List.getElem?_eq_none_iff] at hn
  rw [ReachesAt, ReachesAt, List.take_of_length_le hn, List.take_of_length_le (by omega)]

/-- A property that holds at first, and that an iteration keeps exactly when a condition on it
holds, holds after every prefix exactly when every iteration meets the condition. -/
theorem forall_reachesAt_iff {f : α → GoM σ PUnit} {l : List α} {s : σ}
    {P : List α → σ → Prop} {C : List α → σ → α → Prop} (hs : P [] s)
    (hstep : ∀ n a t t', l[n]? = some a → ReachesAt f l s n t → Gives (f a) t ⟨⟩ t' →
      P (l.take n) t → (P (l.take (n + 1)) t' ↔ C (l.take n) t a)) :
    (∀ n t, ReachesAt f l s n t → P (l.take n) t) ↔
      ∀ n a t t', l[n]? = some a → ReachesAt f l s n t → Gives (f a) t ⟨⟩ t' →
        C (l.take n) t a := by
  constructor
  · intro hP n a t t' ha ht ht'
    exact (hstep n a t t' ha ht ht' (hP n t ht)).mp
      (hP (n + 1) t' ((reachesAt_succ ha).mpr ⟨t, ht, ht'⟩))
  · intro hC n
    induction n with
    | zero =>
      intro t ht
      rw [reachesAt_zero.mp ht, List.take_zero]
      exact hs
    | succ n ih =>
      intro t' ht'
      cases ha : l[n]? with
      | none =>
        -- there is no element `n`, so nothing more is done
        have htake : l.take (n + 1) = l.take n := by
          rw [List.take_add_one, ha, Option.toList_none, List.append_nil]
        rw [htake]
        exact ih t' ((reachesAt_of_getElem?_eq_none ha).mp ht')
      | some a =>
        obtain ⟨t, ht, hlast⟩ := (reachesAt_succ ha).mp ht'
        exact (hstep n a t t' ha ht hlast (ih t ht)).mpr (hC n a t t' ha ht hlast)

/-- The same for a loop that completes, when the condition speaks of the slice alone. -/
theorem forall_reachesAt_iff_of_exists {f : α → GoM σ PUnit} {l : List α} {s : σ}
    {P : List α → σ → Prop} {C : List α → α → Prop} (hs : P [] s)
    (hreach : ∀ n, ∃ t, ReachesAt f l s n t)
    (hstep : ∀ n a t t', l[n]? = some a → ReachesAt f l s n t → Gives (f a) t ⟨⟩ t' →
      P (l.take n) t → (P (l.take (n + 1)) t' ↔ C (l.take n) a)) :
    (∀ n t, ReachesAt f l s n t → P (l.take n) t) ↔
      ∀ n a, l[n]? = some a → C (l.take n) a := by
  rw [forall_reachesAt_iff (C := fun l _ a => C l a) hs hstep]
  constructor
  · intro h n a ha
    obtain ⟨t', ht'⟩ := hreach (n + 1)
    obtain ⟨t, ht, hlast⟩ := (reachesAt_succ ha).mp ht'
    exact h n a t t' ha ht hlast
  · intro h n a t t' ha _ _
    exact h n a ha

end GoM

end Golang
