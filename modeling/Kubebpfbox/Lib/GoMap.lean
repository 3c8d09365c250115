import Mathlib.Data.Finmap

/-!
# Go maps

`GoMap κ ν` is a `map[κ]ν`.  `insertAll` and `eraseAll` are what a loop of assignments and a loop of
deletes leave behind; `mem_insertAll`, `lookup_insertAll_of_mem` and `mem_eraseAll` say which entries
those are.

A loop that ranges over a map visits its keys in an order the language does not specify:
`IsRange m order` says that `order` is one such order, and `entriesIn m order` is what the loop
visits.
-/

namespace Golang

/-- `map[κ]ν`. -/
abbrev GoMap (κ ν : Type*) := Finmap fun _ : κ => ν

namespace GoMap

variable {κ ν : Type*} [DecidableEq κ]

/-- The entries of `l` assigned one after another: the last one for a key stays. -/
def insertAll (m : GoMap κ ν) (l : List (κ × ν)) : GoMap κ ν :=
  l.foldl (fun m e => m.insert e.1 e.2) m

/-- The keys of `ks` deleted one after another. -/
def eraseAll (m : GoMap κ ν) (ks : List κ) : GoMap κ ν := ks.foldl (fun m k => m.erase k) m

@[simp] theorem insertAll_nil (m : GoMap κ ν) : m.insertAll [] = m := rfl

@[simp] theorem insertAll_cons (m : GoMap κ ν) (e : κ × ν) (l : List (κ × ν)) :
    m.insertAll (e :: l) = GoMap.insertAll (m.insert e.1 e.2) l := rfl

@[simp] theorem eraseAll_nil (m : GoMap κ ν) : m.eraseAll [] = m := rfl

@[simp] theorem eraseAll_cons (m : GoMap κ ν) (k : κ) (ks : List κ) :
    m.eraseAll (k :: ks) = GoMap.eraseAll (m.erase k) ks := rfl

theorem mem_insertAll {m : GoMap κ ν} {l : List (κ × ν)} {k : κ} :
    k ∈ m.insertAll l ↔ k ∈ m ∨ k ∈ l.map Prod.fst := by
  induction l generalizing m with
  | nil => simp
  | cons e l ih =>
    rw [insertAll_cons, ih, Finmap.mem_insert, List.map_cons, List.mem_cons]
    tauto

theorem lookup_insertAll_of_not_mem {m : GoMap κ ν} {l : List (κ × ν)} {k : κ}
    (h : k ∉ l.map Prod.fst) : (m.insertAll l).lookup k = m.lookup k := by
  induction l generalizing m with
  | nil => rfl
  | cons e l ih =>
    rw [List.map_cons, List.mem_cons, not_or] at h
    rw [insertAll_cons, ih h.2, Finmap.lookup_insert_of_ne _ h.1]

/-- **The last assignment** to a key stays; without one, what was there before does. -/
theorem lookup_insertAll (m : GoMap κ ν) (l : List (κ × ν)) (k : κ) :
    (m.insertAll l).lookup k
      = ((l.filter fun e => e.1 = k).getLast?.map Prod.snd).or (m.lookup k) := by
  induction l using List.reverseRecOn with
  | nil => rfl
  | append_singleton l e ih =>
    have hlast : m.insertAll (l ++ [e]) = (m.insertAll l).insert e.1 e.2 := List.foldl_append
    rw [hlast, List.filter_append]
    by_cases hk : e.1 = k
    · have hone : [e].filter (fun e => decide (e.1 = k)) = [e] :=
        List.filter_eq_self.mpr fun e' he' => by simpa [List.mem_singleton.mp he'] using hk
      rw [hone, List.getLast?_concat, ← hk, Finmap.lookup_insert]
      rfl
    · have hnone : [e].filter (fun e => decide (e.1 = k)) = [] :=
        List.filter_eq_nil_iff.mpr fun e' he' => by simpa [List.mem_singleton.mp he'] using hk
      rw [hnone, List.append_nil, Finmap.lookup_insert_of_ne _ (Ne.symm hk), ih]

/-- What was there before makes no difference to a key that is assigned. -/
theorem lookup_insertAll_of_mem {m : GoMap κ ν} {l : List (κ × ν)} {k : κ}
    (h : k ∈ l.map Prod.fst) (m' : GoMap κ ν) :
    (m.insertAll l).lookup k = (m'.insertAll l).lookup k := by
  induction l generalizing m m' with
  | nil => cases h
  | cons e l ih =>
    rw [insertAll_cons, insertAll_cons]
    by_cases hl : k ∈ l.map Prod.fst
    · exact ih hl _
    · have hk : k = e.1 := (List.mem_cons.mp h).resolve_right hl
      rw [lookup_insertAll_of_not_mem hl, lookup_insertAll_of_not_mem hl, hk,
        Finmap.lookup_insert, Finmap.lookup_insert]

/-- What is found after some assignments was assigned, or was there before. -/
theorem mem_of_lookup_insertAll {m : GoMap κ ν} {l : List (κ × ν)} {k : κ} {v : ν}
    (h : (m.insertAll l).lookup k = some v) : (k, v) ∈ l ∨ m.lookup k = some v := by
  induction l generalizing m with
  | nil => exact Or.inr h
  | cons e l ih =>
    rcases ih h with hin | hm
    · exact Or.inl (List.mem_cons_of_mem _ hin)
    · by_cases hk : k = e.1
      · rw [hk, Finmap.lookup_insert, Option.some.injEq] at hm
        refine Or.inl ?_
        rw [hk, ← hm]
        exact List.mem_cons_self ..
      · rw [Finmap.lookup_insert_of_ne _ hk] at hm
        exact Or.inr hm

theorem mem_eraseAll {m : GoMap κ ν} {ks : List κ} {k : κ} :
    k ∈ m.eraseAll ks ↔ k ∈ m ∧ k ∉ ks := by
  induction ks generalizing m with
  | nil => simp
  | cons k' ks ih =>
    rw [eraseAll_cons, ih, Finmap.mem_erase, List.mem_cons]
    tauto

theorem lookup_eraseAll_of_not_mem {m : GoMap κ ν} {ks : List κ} {k : κ} (h : k ∉ ks) :
    (m.eraseAll ks).lookup k = m.lookup k := by
  induction ks generalizing m with
  | nil => rfl
  | cons k' ks ih =>
    rw [List.mem_cons, not_or] at h
    rw [eraseAll_cons, ih h.2, Finmap.lookup_erase_ne h.1]

/-- An order in which a loop may range over the map. -/
def IsRange (m : GoMap κ ν) (order : List κ) : Prop := order.Nodup ∧ order.toFinset = m.keys

instance (m : GoMap κ ν) (order : List κ) : Decidable (m.IsRange order) :=
  inferInstanceAs (Decidable (_ ∧ _))

theorem IsRange.mem_iff {m : GoMap κ ν} {order : List κ} (h : m.IsRange order) {k : κ} :
    k ∈ order ↔ k ∈ m := by
  rw [← List.mem_toFinset, h.2, Finmap.mem_keys]

/-- The entries of a loop that visits the keys of `order`. -/
def entriesIn (m : GoMap κ ν) (order : List κ) : List (κ × ν) :=
  order.filterMap fun k => (m.lookup k).map (k, ·)

theorem mem_entriesIn {m : GoMap κ ν} {order : List κ} {e : κ × ν} :
    e ∈ m.entriesIn order ↔ e.1 ∈ order ∧ m.lookup e.1 = some e.2 := by
  rw [entriesIn, List.mem_filterMap]
  constructor
  · rintro ⟨k, hk, he⟩
    obtain ⟨v, hv, rfl⟩ := Option.map_eq_some_iff.mp he
    exact ⟨hk, hv⟩
  · rintro ⟨hk, hv⟩
    exact ⟨e.1, hk, by rw [hv, Option.map_some]⟩

/-- When no two assignments to one key differ, each of them stays. -/
theorem lookup_insertAll_eq_some {m : GoMap κ ν} {l : List (κ × ν)}
    (h : ∀ e ∈ l, ∀ e' ∈ l, e.1 = e'.1 → e.2 = e'.2) {e : κ × ν} (he : e ∈ l) :
    (m.insertAll l).lookup e.1 = some e.2 := by
  induction l generalizing m with
  | nil => cases he
  | cons e' l ih =>
    have htail : ∀ a ∈ l, ∀ b ∈ l, a.1 = b.1 → a.2 = b.2 := fun a ha b hb =>
      h a (List.mem_cons_of_mem _ ha) b (List.mem_cons_of_mem _ hb)
    rw [insertAll_cons]
    by_cases hl : e.1 ∈ l.map Prod.fst
    · -- a later entry for the key holds the same value
      obtain ⟨a, ha, hkey⟩ := List.mem_map.mp hl
      have hval : a.2 = e.2 := h a (List.mem_cons_of_mem _ ha) e he hkey
      have hsame : a = e := Prod.ext hkey hval
      exact ih htail (hsame ▸ ha)
    · have hhead : e = e' := (List.mem_cons.mp he).resolve_right fun hmem =>
        hl (List.mem_map_of_mem hmem)
      rw [lookup_insertAll_of_not_mem hl, hhead, Finmap.lookup_insert]

/-- So does each of those to different keys. -/
theorem lookup_insertAll_of_nodup {m : GoMap κ ν} {l : List (κ × ν)}
    (hnodup : (l.map Prod.fst).Nodup) {e : κ × ν} (he : e ∈ l) :
    (m.insertAll l).lookup e.1 = some e.2 := by
  refine lookup_insertAll_eq_some (fun a ha b hb hkey => ?_) he
  rw [List.inj_on_of_nodup_map hnodup ha hb hkey]

/-- A loop that copies what it visits makes a copy of the map. -/
theorem IsRange.insertAll_entriesIn {m : GoMap κ ν} {order : List κ} (h : m.IsRange order) :
    GoMap.insertAll ∅ (m.entriesIn order) = m := by
  have hone : ∀ e ∈ m.entriesIn order, ∀ e' ∈ m.entriesIn order, e.1 = e'.1 → e.2 = e'.2 := by
    intro e he e' he' hkey
    rw [mem_entriesIn] at he he'
    rw [hkey, he'.2] at he
    exact (Option.some.inj he.2).symm
  apply Finmap.ext_lookup
  intro k
  cases hk : m.lookup k with
  | some v =>
    have he : (k, v) ∈ m.entriesIn order :=
      mem_entriesIn.mpr ⟨h.mem_iff.mpr (Finmap.mem_iff.mpr ⟨v, hk⟩), hk⟩
    exact lookup_insertAll_eq_some hone he
  | none =>
    have hmem : k ∉ (m.entriesIn order).map Prod.fst := by
      rintro hmem
      obtain ⟨e, he, rfl⟩ := List.mem_map.mp hmem
      rw [mem_entriesIn, hk] at he
      cases he.2
    rw [lookup_insertAll_of_not_mem hmem, Finmap.lookup_empty]

/-- Assignments to the same keys, no two to one key, are told apart by the map they leave. -/
theorem insertAll_inj {l l' : List (κ × ν)} (hkeys : l.map Prod.fst = l'.map Prod.fst)
    (hnodup : (l.map Prod.fst).Nodup) (h : GoMap.insertAll ∅ l = GoMap.insertAll ∅ l') :
    l = l' := by
  have hone : ∀ l : List (κ × ν), (l.map Prod.fst).Nodup →
      ∀ e ∈ l, ∀ e' ∈ l, e.1 = e'.1 → e.2 = e'.2 := by
    intro l hl e he e' he' hkey
    rw [List.inj_on_of_nodup_map hl he he' hkey]
  have hlen : l.length = l'.length := by
    rw [← List.length_map (f := Prod.fst), hkeys, List.length_map]
  refine List.ext_getElem hlen fun i hi hi' => ?_
  have hkey : l[i].1 = l'[i].1 := by
    have := congrArg (·[i]?) hkeys
    simpa [List.getElem?_eq_getElem, hi, hi'] using this
  have hval := lookup_insertAll_eq_some (m := ∅) (hone l hnodup) (List.getElem_mem hi)
  rw [h, hkey, lookup_insertAll_eq_some (hone l' (hkeys ▸ hnodup)) (List.getElem_mem hi')] at hval
  exact Prod.ext hkey (Option.some.inj hval).symm

end GoMap

end Golang
