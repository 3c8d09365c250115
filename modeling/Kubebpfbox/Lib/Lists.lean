import Mathlib.Data.List.Forall2

/-!
# Lists

`List.Forall₂ R l l'` says that the two lists have one length and that `R` holds of what stands at
one place in both.  Most of the lemmas are about such lists; the others are about the first
elements of a list.
-/

namespace Lists

theorem exists_of_forall₂_of_mem {α β : Type*} {R : α → β → Prop} {l : List α} {l' : List β}
    (h : List.Forall₂ R l l') {b : β} (hb : b ∈ l') : ∃ a ∈ l, R a b := by
  induction h with
  | nil => cases hb
  | @cons a b' l l' hab _ ih =>
    rcases List.mem_cons.mp hb with rfl | hb
    · exact ⟨a, List.mem_cons_self .., hab⟩
    · obtain ⟨a', ha', hr⟩ := ih hb
      exact ⟨a', List.mem_cons_of_mem _ ha', hr⟩

theorem exists_of_forall₂_of_getElem? {α β : Type*} {R : α → β → Prop} {l : List α} {l' : List β}
    (h : List.Forall₂ R l l') {k : ℕ} {b : β} (hb : l'[k]? = some b) :
    ∃ a, l[k]? = some a ∧ R a b := by
  induction h generalizing k with
  | nil => cases hb
  | @cons a b' l l' hab _ ih =>
    cases k with
    | zero =>
      cases hb
      exact ⟨a, rfl, hab⟩
    | succ k => exact ih hb

/-- When two lists correspond, what a function makes of the second one corresponds to a part of the
first. -/
theorem exists_sublist_forall₂_filterMap {α β γ : Type*} {R : α → β → Prop} {l : List α}
    {l' : List β} (h : List.Forall₂ R l l') (f : β → Option γ) :
    ∃ l₁, l₁.Sublist l ∧
      List.Forall₂ (fun a c => ∃ b ∈ l', R a b ∧ f b = some c) l₁ (l'.filterMap f) := by
  induction h with
  | nil => exact ⟨[], .slnil, .nil⟩
  | @cons a b l l' hab _ ih =>
    obtain ⟨l₁, hsub, hall⟩ := ih
    have hall' : List.Forall₂ (fun a c => ∃ b' ∈ b :: l', R a b' ∧ f b' = some c) l₁
        (l'.filterMap f) := hall.imp fun a c ⟨b', hb', hr⟩ => ⟨b', List.mem_cons_of_mem _ hb', hr⟩
    cases hf : f b with
    | none =>
      rw [List.filterMap_cons_none hf]
      exact ⟨l₁, hsub.cons _, hall'⟩
    | some c =>
      rw [List.filterMap_cons_some hf]
      exact ⟨a :: l₁, hsub.cons_cons _, .cons ⟨b, List.mem_cons_self .., hab, hf⟩ hall'⟩

/-- What a function makes of a list corresponds to the part of which it makes something. -/
theorem forall₂_filterMap {α β : Type*} (f : α → Option β) (l : List α) :
    List.Forall₂ (fun a b => f a = some b) (l.filter fun a => (f a).isSome) (l.filterMap f) := by
  induction l with
  | nil => exact .nil
  | cons a l ih =>
    cases h : f a with
    | none =>
      rw [List.filterMap_cons_none h, List.filter_cons_of_neg (by rw [h]; simp)]
      exact ih
    | some b =>
      rw [List.filterMap_cons_some h, List.filter_cons_of_pos (by rw [h]; rfl)]
      exact .cons h ih

/-- Two correspondences, one after the other. -/
theorem forall₂_comp {α β γ : Type*} {R : α → β → Prop} {S : β → γ → Prop} {l : List α}
    {l' : List β} {l'' : List γ} (h : List.Forall₂ R l l') (h' : List.Forall₂ S l' l'') :
    List.Forall₂ (fun a c => ∃ b, R a b ∧ S b c) l l'' := by
  induction h generalizing l'' with
  | nil =>
    cases h'
    exact .nil
  | @cons a b l l' hab _ ih =>
    cases h' with
    | cons hbc h' => exact .cons ⟨b, hab, hbc⟩ (ih h')

/-- The first elements of one list correspond to the first ones of the other. -/
theorem exists_prefix_forall₂ {α β : Type*} {R : α → β → Prop} {l : List α} {l' m' : List β}
    (h : List.Forall₂ R l l') (hm : m' <+: l') : ∃ m, m <+: l ∧ List.Forall₂ R m m' := by
  refine ⟨l.take m'.length, List.take_prefix _ _, ?_⟩
  rw [List.prefix_iff_eq_take.mp hm, List.length_take]
  have htake := List.forall₂_take m'.length h
  rw [Nat.min_eq_left hm.length_le]
  exact htake

/-! ### The first elements of a list -/

/-- The element behind a `takeWhile` does not pass its test. -/
theorem exists_getElem?_length_takeWhile {α : Type*} {p : α → Bool} {l : List α} {a : α}
    (ha : a ∈ l) (hp : p a = false) :
    ∃ b, l[(l.takeWhile p).length]? = some b ∧ p b = false := by
  induction l with
  | nil => exact absurd ha List.not_mem_nil
  | cons b l ih =>
    by_cases hb : p b = true
    · rw [List.takeWhile_cons_of_pos hb, List.length_cons, List.getElem?_cons_succ]
      rcases List.mem_cons.mp ha with rfl | hmem
      · rw [hb] at hp
        cases hp
      · exact ih hmem
    · rw [List.takeWhile_cons_of_neg hb]
      exact ⟨b, rfl, Bool.eq_false_iff.mpr hb⟩

/-- What is made of the first elements is made of elements at the same places. -/
theorem exists_of_getElem?_map_take {α β : Type*} {l : List α} {n k : ℕ} {f : α → β} {b : β}
    (h : ((l.take n).map f)[k]? = some b) : ∃ a, l[k]? = some a ∧ b = f a := by
  rw [List.getElem?_map] at h
  obtain ⟨a, ha, rfl⟩ := Option.map_eq_some_iff.mp h
  refine ⟨a, ?_, rfl⟩
  rw [List.getElem?_take] at ha
  split_ifs at ha
  exact ha

end Lists
