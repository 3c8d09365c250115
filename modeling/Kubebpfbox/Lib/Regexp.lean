import Mathlib.Data.List.Forall2
import Mathlib.Data.List.Infix

/-!
# Leftmost-first regular expressions

`Regexp α` are the regular expressions over characters of a type `α` that concatenation, greedy
repetition of a character class and capture groups build.  `ways` lists the ways to match a prefix of
a word in the order in which a backtracking matcher tries them, and `findSubmatch` takes the first
way at the leftmost position that has one, and returns what the expression and its groups match.

`Matches` is the meaning of an expression as a relation between words and groups.  `mem_ways_iff`
connects the two; `exists_of_findSubmatch` and `findSubmatch_of_forall` are the rules to use.
-/

namespace Golang

/-- A regular expression. -/
inductive Regexp (α : Type*) where
  | empty
  /-- one character of a class -/
  | one (p : α → Bool)
  /-- one character of a class or more, as many as possible -/
  | plus (p : α → Bool)
  | cat (r s : Regexp α)
  | group (r : Regexp α)

namespace Regexp

variable {α : Type*}

/-- One character of each class in turn. -/
def word (ps : List (α → Bool)) : Regexp α := ps.foldr (fun p r => cat (one p) r) empty

/-- `n` characters of a class. -/
def times (p : α → Bool) (n : ℕ) : Regexp α := word (List.replicate n p)

/-- One expression after another. -/
def seq (rs : List (Regexp α)) : Regexp α := rs.foldr cat empty

/-! ### The matcher -/

/-- A way to match a prefix of a word. -/
structure Way (α : Type*) where
  matched : List α
  groups : List (List α)
  rest : List α

/-- The ways to match one character or more; more come first. -/
def plusWays (p : α → Bool) : List α → List (Way α)
  | [] => []
  | a :: w =>
    if p a then
      ((plusWays p w).map fun x => ⟨a :: x.matched, [], x.rest⟩) ++ [⟨[a], [], w⟩]
    else []

/-- The ways to match a prefix of the word, in the order of preference. -/
def ways : Regexp α → List α → List (Way α)
  | empty, w => [⟨[], [], w⟩]
  | one _, [] => []
  | one p, a :: w => if p a then [⟨[a], [], w⟩] else []
  | plus p, w => plusWays p w
  | cat r s, w => (ways r w).flatMap fun x =>
      (ways s x.rest).map fun y => ⟨x.matched ++ y.matched, x.groups ++ y.groups, y.rest⟩
  | group r, w => (ways r w).map fun x => ⟨x.matched, x.matched :: x.groups, x.rest⟩

/-- What the expression and its groups match at the start of the word. -/
def matchStart (r : Regexp α) (w : List α) : Option (List (List α)) :=
  (r.ways w).head?.map fun x => x.matched :: x.groups

/-- `FindSubmatch`: what the expression and its groups match at the leftmost position. -/
def findSubmatch (r : Regexp α) : List α → Option (List (List α))
  | [] => r.matchStart []
  | a :: w => (r.matchStart (a :: w)).or (r.findSubmatch w)

/-! ### The meaning -/

/-- The expression matches the word `m`, and its groups match `gs`. -/
def Matches : Regexp α → List α → List (List α) → Prop
  | empty, m, gs => m = [] ∧ gs = []
  | one p, m, gs => (∃ a, p a = true ∧ m = [a]) ∧ gs = []
  | plus p, m, gs => (m ≠ [] ∧ ∀ a ∈ m, p a = true) ∧ gs = []
  | cat r s, m, gs => ∃ m₁ g₁ m₂ g₂, Matches r m₁ g₁ ∧ Matches s m₂ g₂ ∧
      m = m₁ ++ m₂ ∧ gs = g₁ ++ g₂
  | group r, m, gs => ∃ g, Matches r m g ∧ gs = m :: g

theorem mem_plusWays_iff {p : α → Bool} {w : List α} {x : Way α} :
    x ∈ plusWays p w ↔ w = x.matched ++ x.rest ∧ (plus p).Matches x.matched x.groups := by
  induction w generalizing x with
  | nil =>
    refine iff_of_false List.not_mem_nil ?_
    rintro ⟨hw, ⟨hne, -⟩, -⟩
    exact hne (List.append_eq_nil_iff.mp hw.symm).1
  | cons a w ih =>
    obtain ⟨m, gs, rest⟩ := x
    simp only [plusWays, Matches]
    constructor
    · intro h
      split_ifs at h with ha
      · rcases List.mem_append.mp h with h | h
        · obtain ⟨y, hy, heq⟩ := List.mem_map.mp h
          obtain ⟨hw, ⟨-, hall⟩, -⟩ := ih.mp hy
          cases heq
          refine ⟨by rw [hw, List.cons_append], ⟨List.cons_ne_nil _ _, ?_⟩, rfl⟩
          exact List.forall_mem_cons.mpr ⟨ha, hall⟩
        · cases List.mem_singleton.mp h
          exact ⟨rfl, ⟨List.cons_ne_nil _ _, List.forall_mem_cons.mpr ⟨ha, by simp⟩⟩, rfl⟩
      · cases h
    · rintro ⟨hw, ⟨hne, hall⟩, rfl⟩
      cases m with
      | nil => exact absurd rfl hne
      | cons b m =>
        rw [List.cons_append, List.cons.injEq] at hw
        obtain ⟨rfl, hw⟩ := hw
        obtain ⟨ha, hall⟩ := List.forall_mem_cons.mp hall
        rw [if_pos ha, List.mem_append]
        cases m with
        | nil =>
          -- the shortest way is the last one
          right
          rw [hw]
          exact List.mem_singleton.mpr rfl
        | cons c m =>
          left
          refine List.mem_map.mpr ⟨⟨c :: m, [], rest⟩, ih.mpr ⟨hw, ?_⟩, rfl⟩
          exact ⟨⟨List.cons_ne_nil _ _, hall⟩, rfl⟩

/-- The ways to match are the prefixes that the expression matches. -/
theorem mem_ways_iff {r : Regexp α} {w : List α} {x : Way α} :
    x ∈ r.ways w ↔ w = x.matched ++ x.rest ∧ r.Matches x.matched x.groups := by
  induction r generalizing w x with
  | empty =>
    obtain ⟨m, gs, rest⟩ := x
    simp only [ways, Matches, List.mem_singleton, Way.mk.injEq]
    constructor
    · rintro ⟨rfl, rfl, rfl⟩
      exact ⟨rfl, rfl, rfl⟩
    · rintro ⟨hw, rfl, rfl⟩
      exact ⟨rfl, rfl, hw.symm⟩
  | one p =>
    obtain ⟨m, gs, rest⟩ := x
    simp only [Matches]
    cases w with
    | nil =>
      refine iff_of_false List.not_mem_nil ?_
      rintro ⟨hw, ⟨a, -, rfl⟩, -⟩
      cases hw
    | cons a w =>
      rw [ways]
      constructor
      · intro h
        split_ifs at h with ha
        · cases List.mem_singleton.mp h
          exact ⟨rfl, ⟨a, ha, rfl⟩, rfl⟩
        · cases h
      · rintro ⟨hw, ⟨b, hb, rfl⟩, rfl⟩
        cases hw
        rw [if_pos hb]
        exact List.mem_singleton.mpr rfl
  | plus p => exact mem_plusWays_iff
  | cat r s ihr ihs =>
    obtain ⟨m, gs, rest⟩ := x
    simp only [ways, Matches, List.mem_flatMap, List.mem_map, Way.mk.injEq]
    constructor
    · rintro ⟨x, hx, y, hy, rfl, rfl, rfl⟩
      obtain ⟨hw, hr⟩ := ihr.mp hx
      obtain ⟨hrest, hs⟩ := ihs.mp hy
      exact ⟨by rw [hw, hrest, List.append_assoc], _, _, _, _, hr, hs, rfl, rfl⟩
    · rintro ⟨hw, m₁, g₁, m₂, g₂, hr, hs, rfl, rfl⟩
      -- `r` leaves over what `s` matches and the rest
      refine ⟨⟨m₁, g₁, m₂ ++ rest⟩, ihr.mpr ⟨?_, hr⟩, ⟨m₂, g₂, rest⟩, ihs.mpr ⟨rfl, hs⟩, rfl, rfl,
        rfl⟩
      rw [hw, List.append_assoc]
  | group r ih =>
    obtain ⟨m, gs, rest⟩ := x
    simp only [ways, Matches, List.mem_map, Way.mk.injEq]
    constructor
    · rintro ⟨x, hx, rfl, rfl, rfl⟩
      obtain ⟨hw, hr⟩ := ih.mp hx
      exact ⟨hw, _, hr, rfl⟩
    · rintro ⟨hw, g, hr, rfl⟩
      exact ⟨⟨m, g, rest⟩, ih.mpr ⟨hw, hr⟩, rfl, rfl, rfl⟩

/-! ### What the matcher finds -/

theorem matchStart_eq_none_iff {r : Regexp α} {w : List α} :
    r.matchStart w = none ↔ ∀ m gs post, w = m ++ post → ¬ r.Matches m gs := by
  rw [matchStart, Option.map_eq_none_iff, List.head?_eq_none_iff, List.eq_nil_iff_forall_not_mem]
  constructor
  · intro h m gs post hw hm
    exact h ⟨m, gs, post⟩ (mem_ways_iff.mpr ⟨hw, hm⟩)
  · intro h x hx
    obtain ⟨hw, hm⟩ := mem_ways_iff.mp hx
    exact h _ _ _ hw hm

theorem exists_of_matchStart {r : Regexp α} {w : List α} {l : List (List α)}
    (h : r.matchStart w = some l) :
    ∃ m gs post, w = m ++ post ∧ r.Matches m gs ∧ l = m :: gs := by
  rw [matchStart, Option.map_eq_some_iff] at h
  obtain ⟨x, hx, rfl⟩ := h
  obtain ⟨hw, hm⟩ := mem_ways_iff.mp (List.mem_of_head? hx)
  exact ⟨_, _, _, hw, hm, rfl⟩

/-- What is found stands in the word and matches. -/
theorem exists_of_findSubmatch {r : Regexp α} {w : List α} {l : List (List α)}
    (h : r.findSubmatch w = some l) :
    ∃ pre m gs post, w = pre ++ m ++ post ∧ r.Matches m gs ∧ l = m :: gs := by
  induction w with
  | nil =>
    obtain ⟨m, gs, post, hw, hm, hl⟩ := exists_of_matchStart h
    exact ⟨[], m, gs, post, hw, hm, hl⟩
  | cons a w ih =>
    rw [findSubmatch, Option.or_eq_some_iff] at h
    rcases h with h | ⟨-, h⟩
    · obtain ⟨m, gs, post, hw, hm, hl⟩ := exists_of_matchStart h
      exact ⟨[], m, gs, post, hw, hm, hl⟩
    · obtain ⟨pre, m, gs, post, hw, hm, hl⟩ := ih h
      exact ⟨a :: pre, m, gs, post, by rw [hw]; rfl, hm, hl⟩

/-- A word of which the expression matches a part is not missed. -/
theorem findSubmatch_ne_none {r : Regexp α} {m : List α} {gs : List (List α)}
    (hm : r.Matches m gs) (pre post : List α) : r.findSubmatch (pre ++ m ++ post) ≠ none := by
  induction pre with
  | nil =>
    have hstart : r.matchStart (m ++ post) ≠ none :=
      fun h => matchStart_eq_none_iff.mp h m gs post rfl hm
    rw [List.nil_append]
    cases hw : m ++ post with
    | nil => rwa [hw] at hstart
    | cons a w =>
      rw [findSubmatch, Ne, Option.or_eq_none_iff, not_and_or]
      rw [hw] at hstart
      exact Or.inl hstart
  | cons a pre ih =>
    rw [List.cons_append, List.cons_append, findSubmatch, Ne, Option.or_eq_none_iff, not_and_or]
    exact Or.inr ih

/-- If all parts of the word that match have the same groups, these are found. -/
theorem findSubmatch_of_forall {r : Regexp α} {w : List α} {gs : List (List α)}
    (hm : ∃ pre m post, w = pre ++ m ++ post ∧ r.Matches m gs)
    (hall : ∀ pre m gs' post, w = pre ++ m ++ post → r.Matches m gs' → gs' = gs) :
    ∃ m, r.findSubmatch w = some (m :: gs) := by
  obtain ⟨pre, m, post, hw, hm⟩ := hm
  obtain ⟨l, hl⟩ := Option.ne_none_iff_exists'.mp (findSubmatch_ne_none hm pre post)
  obtain ⟨pre', m', gs', post', hw', hm', rfl⟩ := exists_of_findSubmatch hl
  rw [hall pre' m' gs' post' (hw.trans hw') hm'] at hl
  exact ⟨m', by rw [hw, hl]⟩

/-! ### The meaning, constructor by constructor -/

theorem matches_empty {m : List α} {gs : List (List α)} :
    (empty : Regexp α).Matches m gs ↔ m = [] ∧ gs = [] := Iff.rfl

theorem matches_cat {r s : Regexp α} {m : List α} {gs : List (List α)} :
    (cat r s).Matches m gs ↔
      ∃ m₁ g₁ m₂ g₂, r.Matches m₁ g₁ ∧ s.Matches m₂ g₂ ∧ m = m₁ ++ m₂ ∧ gs = g₁ ++ g₂ := Iff.rfl

theorem matches_group {r : Regexp α} {m : List α} {gs : List (List α)} :
    (group r).Matches m gs ↔ ∃ g, r.Matches m g ∧ gs = m :: g := Iff.rfl

/-! ### The meaning of the derived expressions -/

theorem matches_word {ps : List (α → Bool)} {m : List α} {gs : List (List α)} :
    (word ps).Matches m gs ↔ List.Forall₂ (fun p a => p a = true) ps m ∧ gs = [] := by
  induction ps generalizing m gs with
  | nil =>
    rw [List.forall₂_nil_left_iff]
    exact Iff.rfl
  | cons p ps ih =>
    rw [List.forall₂_cons_left_iff]
    constructor
    · rintro ⟨m₁, g₁, m₂, g₂, ⟨⟨a, ha, rfl⟩, rfl⟩, h₂, rfl, rfl⟩
      obtain ⟨hall, rfl⟩ := ih.mp h₂
      exact ⟨⟨a, m₂, ha, hall, rfl⟩, rfl⟩
    · rintro ⟨⟨a, m₂, ha, hall, rfl⟩, rfl⟩
      exact ⟨[a], [], m₂, [], ⟨⟨a, ha, rfl⟩, rfl⟩, ih.mpr ⟨hall, rfl⟩, rfl, rfl⟩

theorem matches_times {p : α → Bool} {n : ℕ} {m : List α} {gs : List (List α)} :
    (times p n).Matches m gs ↔ (m.length = n ∧ ∀ a ∈ m, p a = true) ∧ gs = [] := by
  rw [times, matches_word]
  refine and_congr_left fun _ => ?_
  induction n generalizing m with
  | zero =>
    rw [List.replicate_zero, List.forall₂_nil_left_iff, List.length_eq_zero_iff]
    constructor
    · rintro rfl
      exact ⟨rfl, by simp⟩
    · exact fun h => h.1
  | succ n ih =>
    rw [List.replicate_succ, List.forall₂_cons_left_iff]
    constructor
    · rintro ⟨a, m, ha, hall, rfl⟩
      obtain ⟨hlen, hall⟩ := ih.mp hall
      exact ⟨congrArg (· + 1) hlen, List.forall_mem_cons.mpr ⟨ha, hall⟩⟩
    · rintro ⟨hlen, hall⟩
      cases m with
      | nil => cases hlen
      | cons a m =>
        obtain ⟨ha, hall⟩ := List.forall_mem_cons.mp hall
        exact ⟨a, m, ha, ih.mpr ⟨Nat.succ.inj hlen, hall⟩, rfl⟩

end Regexp

end Golang
