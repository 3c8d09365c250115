import Kubebpfbox.Lib.GoMap
import Mathlib.Algebra.BigOperators.Group.Multiset.Basic
import Mathlib.Tactic.Ring

/-!
# Aggregation by key, window by window

A loop that receives values and ticks is driven by a list of `Timed` values.  The `window` of such a
list is what came since the last tick, `closed` the windows that its ticks have closed, and `ofKey`
the part of a window with one key.

The map a loop of assignments builds from a window (`upsert`) holds for every key the fold of the
values with that key: `lookup_upsert_of_foldFirst` is the step, and the induction over the run is
the caller's.  `GoMap.sum` adds up a quantity over all entries of a map; `sum_insert` and
`sum_of_lookup` say how the assignments and the deletes change it.
-/

namespace Golang

/-- A value that is received, or a tick. -/
inductive Timed (α : Type*) where
  | value (a : α)
  | tick
  deriving DecidableEq

namespace Timed

variable {α : Type*}

/-- The value, if it is one. -/
def value? : Timed α → Option α
  | value a => some a
  | tick => none

/-- The window, one step further. -/
def extend (w : List α) : Timed α → List α
  | value a => w ++ [a]
  | tick => []

/-- The values since the last tick. -/
def window (l : List (Timed α)) : List α := l.foldl extend []

/-- The windows that the ticks close, in order, when `w` has come before. -/
def closedFrom (w : List α) : List (Timed α) → List (List α)
  | [] => []
  | value a :: l => closedFrom (w ++ [a]) l
  | tick :: l => w :: closedFrom [] l

/-- The windows that the ticks close, in order. -/
def closed (l : List (Timed α)) : List (List α) := closedFrom [] l

/-- All values. -/
def values (l : List (Timed α)) : List α := l.filterMap value?

@[simp] theorem window_concat (l : List (Timed α)) (t : Timed α) :
    window (l ++ [t]) = extend (window l) t := by
  rw [window, List.foldl_append]
  rfl

theorem closedFrom_concat_value (w : List α) (l : List (Timed α)) (a : α) :
    closedFrom w (l ++ [value a]) = closedFrom w l := by
  induction l generalizing w with
  | nil => rfl
  | cons t l ih =>
    cases t with
    | value b => exact ih (w ++ [b])
    | tick => exact congrArg (w :: ·) (ih [])

theorem closedFrom_concat_tick (w : List α) (l : List (Timed α)) :
    closedFrom w (l ++ [tick]) = closedFrom w l ++ [l.foldl extend w] := by
  induction l generalizing w with
  | nil => rfl
  | cons t l ih =>
    cases t with
    | value b => exact ih (w ++ [b])
    | tick => exact congrArg (w :: ·) (ih [])

@[simp] theorem closed_concat_value (l : List (Timed α)) (a : α) :
    closed (l ++ [value a]) = closed l := closedFrom_concat_value [] l a

@[simp] theorem closed_concat_tick (l : List (Timed α)) :
    closed (l ++ [tick]) = closed l ++ [window l] := closedFrom_concat_tick [] l

@[simp] theorem values_concat_value (l : List (Timed α)) (a : α) :
    values (l ++ [value a]) = values l ++ [a] := by
  rw [values, List.filterMap_append]
  rfl

@[simp] theorem values_concat_tick (l : List (Timed α)) : values (l ++ [tick]) = values l := by
  rw [values, List.filterMap_append]
  exact List.append_nil _

end Timed

/-! ### The fold of the values with one key -/

section Fold

variable {α β κ : Type*}

/-- A fold whose start is made from the first element. -/
def foldFirst (first : α → β) (add : β → α → β) : List α → Option β
  | [] => none
  | a :: l => some (l.foldl add (first a))

/-- One more element. -/
theorem foldFirst_concat (first : α → β) (add : β → α → β) (l : List α) (a : α) :
    foldFirst first add (l ++ [a]) =
      some ((foldFirst first add l).elim (first a) fun b => add b a) := by
  cases l with
  | nil => rfl
  | cons a' l => simp [foldFirst, List.foldl_append]

theorem foldFirst_eq_none_iff {first : α → β} {add : β → α → β} {l : List α} :
    foldFirst first add l = none ↔ l = [] := by
  cases l with
  | nil => simp [foldFirst]
  | cons a l => simp [foldFirst]

/-- What holds of the fold over one element and is kept by one more, holds of the fold over any
list. -/
theorem foldFirst_induction {first : α → β} {add : β → α → β} {P : List α → β → Prop}
    (hfirst : ∀ a, P [a] (first a)) (hadd : ∀ l b a, P l b → P (l ++ [a]) (add b a)) {l : List α}
    {b : β} (h : foldFirst first add l = some b) : P l b := by
  induction l using List.reverseRecOn generalizing b with
  | nil => cases h
  | append_singleton l a ih =>
    rw [foldFirst_concat, Option.some.injEq] at h
    rw [← h]
    cases hl : foldFirst first add l with
    | none =>
      rw [foldFirst_eq_none_iff.mp hl]
      exact hfirst a
    | some b' => exact hadd l b' a (ih hl)

variable [DecidableEq κ] (key : α → κ)

/-- The elements with the key `k`. -/
def ofKey (k : κ) (l : List α) : List α := l.filter fun a => key a = k

theorem ofKey_concat_self (l : List α) (a : α) : ofKey key (key a) (l ++ [a]) =
    ofKey key (key a) l ++ [a] := by
  simp [ofKey, List.filter_append]

theorem ofKey_concat_of_ne {l : List α} {a : α} {k : κ} (h : key a ≠ k) :
    ofKey key k (l ++ [a]) = ofKey key k l := by
  simp [ofKey, List.filter_append, h]

theorem ofKey_eq_nil_iff {l : List α} {k : κ} : ofKey key k l = [] ↔ k ∉ l.map key := by
  simp [ofKey, List.filter_eq_nil_iff]

variable {key}

theorem mem_ofKey {l : List α} {k : κ} {a : α} : a ∈ ofKey key k l ↔ a ∈ l ∧ key a = k := by
  simp [ofKey]

/-- Two keys that single out the same elements. -/
theorem ofKey_congr {κ' : Type*} [DecidableEq κ'] {key' : α → κ'} {l : List α} {k : κ} {k' : κ'}
    (h : ∀ a ∈ l, key a = k ↔ key' a = k') : ofKey key k l = ofKey key' k' l :=
  List.filter_congr fun a ha => decide_eq_decide.mpr (h a ha)

/-! ### The map of the folds -/

namespace GoMap

/-- The entry for `k` is made or updated. -/
def upsert (m : GoMap κ β) (k : κ) (first : β) (add : β → β) : GoMap κ β :=
  m.insert k ((m.lookup k).elim first add)

/-- If every entry is the fold over its key's elements, that stays so with one element more. -/
theorem lookup_upsert_of_foldFirst {m : GoMap κ β} {first : α → β} {add : β → α → β} {w : List α}
    (h : ∀ k, m.lookup k = foldFirst first add (ofKey key k w)) (a : α) (k : κ) :
    (m.upsert (key a) (first a) fun b => add b a).lookup k =
      foldFirst first add (ofKey key k (w ++ [a])) := by
  unfold upsert
  by_cases hk : key a = k
  · subst hk
    rw [Finmap.lookup_insert, ofKey_concat_self, foldFirst_concat, h]
  · rw [Finmap.lookup_insert_of_ne _ (Ne.symm hk), ofKey_concat_of_ne key hk, h]

end GoMap

end Fold

/-! ### Sums over the entries of a map -/

namespace GoMap

variable {κ ν : Type*} [DecidableEq κ]

/-- The sum of `f` over the values of the map. -/
def sum (f : ν → ℤ) (m : GoMap κ ν) : ℤ := (m.entries.map fun e => f e.2).sum

theorem sum_insert_of_not_mem {f : ν → ℤ} {m : GoMap κ ν} {k : κ} (h : k ∉ m) (v : ν) :
    sum f (m.insert k v) = f v + sum f m := by
  rw [sum, Finmap.entries_insert_of_notMem h, Multiset.map_cons, Multiset.sum_cons]
  rfl

theorem insert_erase (m : GoMap κ ν) (k : κ) (v : ν) : (m.erase k).insert k v = m.insert k v := by
  apply Finmap.ext_lookup
  intro k'
  by_cases hk : k' = k
  · rw [hk, Finmap.lookup_insert, Finmap.lookup_insert]
  · rw [Finmap.lookup_insert_of_ne _ hk, Finmap.lookup_insert_of_ne _ hk,
      Finmap.lookup_erase_ne hk]

theorem insert_eq_self {m : GoMap κ ν} {k : κ} {v : ν} (h : m.lookup k = some v) :
    m.insert k v = m := by
  apply Finmap.ext_lookup
  intro k'
  by_cases hk : k' = k
  · rw [hk, Finmap.lookup_insert, h]
  · rw [Finmap.lookup_insert_of_ne _ hk]

/-- The entry for `k` apart. -/
theorem sum_insert (f : ν → ℤ) (m : GoMap κ ν) (k : κ) (v : ν) :
    sum f (m.insert k v) = f v + sum f (m.erase k) := by
  rw [← insert_erase, sum_insert_of_not_mem Finmap.notMem_erase_self]

theorem sum_of_lookup {f : ν → ℤ} {m : GoMap κ ν} {k : κ} {v : ν} (h : m.lookup k = some v) :
    sum f m = f v + sum f (m.erase k) := by
  rw [← sum_insert, insert_eq_self h]

theorem erase_of_lookup_eq_none {m : GoMap κ ν} {k : κ} (h : m.lookup k = none) :
    m.erase k = m := by
  apply Finmap.ext_lookup
  intro k'
  by_cases hk : k' = k
  · rw [hk, Finmap.lookup_erase, h]
  · rw [Finmap.lookup_erase_ne hk]

/-- Making an entry adds what it holds, and updating one adds the change. -/
theorem sum_upsert (f : ν → ℤ) (m : GoMap κ ν) (k : κ) {first : ν} {add : ν → ν} {d : ℤ}
    (hfirst : f first = d) (hadd : ∀ v, f (add v) = f v + d) :
    sum f (m.upsert k first add) = sum f m + d := by
  unfold upsert
  rw [sum_insert]
  cases hk : m.lookup k with
  | none =>
    rw [erase_of_lookup_eq_none hk, Option.elim_none, hfirst, add_comm]
  | some v =>
    rw [sum_of_lookup hk, Option.elim_some, hadd]
    ring

/-- Ranging over a map and deleting what is visited leaves nothing. -/
theorem IsRange.eraseAll {m : GoMap κ ν} {order : List κ} (h : m.IsRange order) :
    m.eraseAll order = ∅ := by
  apply Finmap.ext_lookup
  intro k
  rw [Finmap.lookup_empty, Finmap.lookup_eq_none, mem_eraseAll, h.mem_iff]
  tauto

/-- Every map can be ranged over. -/
theorem exists_isRange (m : GoMap κ ν) : ∃ order, m.IsRange order :=
  ⟨m.keys.toList, Finset.nodup_toList _, Finset.toList_toFinset _⟩

end GoMap

end Golang
