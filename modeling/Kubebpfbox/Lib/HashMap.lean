import Mathlib.Data.Finmap
import Mathlib.Tactic.Tauto

/-!
# Hash maps with a fixed number of entries

`Bpf.HashMap κ ν cap` is a `BPF_MAP_TYPE_HASH` with `max_entries = cap`: a finite map that never
holds more than `cap` keys, which is part of the type (`card_le`).

`update` and `delete` are the two operations that can fail: an update is refused exactly when the
key is new and the map is full (`HasRoom`), and nothing is evicted; a delete fails when the key is
absent.  `put` and `remove` are the same operations for a caller that ignores the result.  Their
effect on a lookup is `lookup_put` and `lookup_remove`; `put_of_not_hasRoom` is the refusal.
`mem_putAll` and `mem_removeAll` are the keys that loops of them leave.
-/

namespace Bpf

/-- A hash map with room for `cap` keys. -/
structure HashMap (κ ν : Type*) (cap : ℕ) where
  /-- The entries. -/
  entries : Finmap (fun _ : κ => ν)
  /-- There are never more than `max_entries` of them. -/
  card_le : entries.keys.card ≤ cap

namespace HashMap

variable {κ ν : Type*} {cap : ℕ}

instance : EmptyCollection (HashMap κ ν cap) := ⟨⟨∅, by simp⟩⟩

instance : Membership κ (HashMap κ ν cap) := ⟨fun m k => k ∈ m.entries⟩

/-- The keys of the map. -/
def keys (m : HashMap κ ν cap) : Finset κ := m.entries.keys

/-- The number of entries. -/
def size (m : HashMap κ ν cap) : ℕ := m.keys.card

theorem size_le (m : HashMap κ ν cap) : m.size ≤ cap := m.card_le

@[simp] theorem mem_keys {m : HashMap κ ν cap} {k : κ} : k ∈ m.keys ↔ k ∈ m := Finmap.mem_keys

@[simp] theorem not_mem_empty (k : κ) : k ∉ (∅ : HashMap κ ν cap) := Finmap.notMem_empty

/-- An update on `k` succeeds: the key is there already, or there is room for one more. -/
def HasRoom (m : HashMap κ ν cap) (k : κ) : Prop := k ∈ m ∨ m.size < cap

/-- There is no room for a new key exactly in a full map. -/
theorem not_hasRoom_iff {m : HashMap κ ν cap} {k : κ} :
    ¬ m.HasRoom k ↔ k ∉ m ∧ m.size = cap := by
  have h := m.size_le
  unfold HasRoom
  rw [not_or, not_lt]
  exact and_congr_right fun _ => ⟨fun hcap => le_antisymm h hcap, fun heq => heq.ge⟩

variable [DecidableEq κ]

instance (k : κ) (m : HashMap κ ν cap) : Decidable (k ∈ m) :=
  inferInstanceAs (Decidable (k ∈ m.entries))

/-- `bpf_map_lookup_elem`. -/
def lookup (m : HashMap κ ν cap) (k : κ) : Option ν := m.entries.lookup k

theorem mem_iff_isSome {m : HashMap κ ν cap} {k : κ} : k ∈ m ↔ (m.lookup k).isSome :=
  Finmap.lookup_isSome.symm

theorem lookup_eq_none {m : HashMap κ ν cap} {k : κ} : m.lookup k = none ↔ k ∉ m :=
  Finmap.lookup_eq_none

@[simp] theorem lookup_empty (k : κ) : (∅ : HashMap κ ν cap).lookup k = none :=
  Finmap.lookup_empty k

/-- Two maps with the same lookups are the same map. -/
theorem ext_lookup {m m' : HashMap κ ν cap} (h : ∀ k, m.lookup k = m'.lookup k) : m = m' := by
  cases m
  cases m'
  congr
  exact Finmap.ext_lookup h

instance (m : HashMap κ ν cap) (k : κ) : Decidable (m.HasRoom k) :=
  inferInstanceAs (Decidable (_ ∨ _))

theorem keys_insert (s : Finmap (fun _ : κ => ν)) (k : κ) (v : ν) :
    (s.insert k v).keys = insert k s.keys := by
  ext k'
  simp [Finmap.mem_keys, Finmap.mem_insert]

theorem card_insert_le {m : HashMap κ ν cap} {k : κ} (h : m.HasRoom k) (v : ν) :
    (m.entries.insert k v).keys.card ≤ cap := by
  rw [keys_insert]
  change (insert k m.keys).card ≤ cap
  rcases h with hmem | hlt
  · rw [Finset.insert_eq_of_mem (mem_keys.mpr hmem)]
    exact m.size_le
  · exact (Finset.card_insert_le _ _).trans hlt

/-- `bpf_map_update_elem` with `BPF_ANY`; `none` is the refusal of a full map. -/
def update (m : HashMap κ ν cap) (k : κ) (v : ν) : Option (HashMap κ ν cap) :=
  if h : m.HasRoom k then some ⟨m.entries.insert k v, card_insert_le h v⟩ else none

/-- `bpf_map_delete_elem`; `none` when there is no such key. -/
def delete (m : HashMap κ ν cap) (k : κ) : Option (HashMap κ ν cap) :=
  if k ∈ m then
    some ⟨m.entries.erase k, by
      rw [Finmap.keys_erase]
      exact (Finset.card_erase_le).trans m.card_le⟩
  else none

/-- `update` for a caller that ignores the result. -/
def put (m : HashMap κ ν cap) (k : κ) (v : ν) : HashMap κ ν cap := (m.update k v).getD m

/-- `delete` for a caller that ignores the result. -/
def remove (m : HashMap κ ν cap) (k : κ) : HashMap κ ν cap := (m.delete k).getD m

theorem update_eq_none {m : HashMap κ ν cap} {k : κ} {v : ν} :
    m.update k v = none ↔ ¬ m.HasRoom k := by
  simp [update]

theorem update_eq_some_put {m : HashMap κ ν cap} {k : κ} (h : m.HasRoom k) (v : ν) :
    m.update k v = some (m.put k v) := by
  simp [put, update, h]

theorem put_of_not_hasRoom {m : HashMap κ ν cap} {k : κ} (h : ¬ m.HasRoom k) (v : ν) :
    m.put k v = m := by
  simp [put, update, h]

theorem lookup_put {m : HashMap κ ν cap} {k : κ} (h : m.HasRoom k) (v : ν) (k' : κ) :
    (m.put k v).lookup k' = if k' = k then some v else m.lookup k' := by
  have hput : m.put k v = ⟨m.entries.insert k v, card_insert_le h v⟩ := by simp [put, update, h]
  rw [hput]
  by_cases hk : k' = k
  · rw [if_pos hk, hk]
    exact Finmap.lookup_insert _
  · rw [if_neg hk]
    exact Finmap.lookup_insert_of_ne _ hk

/-- An update never touches another key, refused or not. -/
theorem lookup_put_of_ne {m : HashMap κ ν cap} {k k' : κ} (hk : k' ≠ k) (v : ν) :
    (m.put k v).lookup k' = m.lookup k' := by
  by_cases h : m.HasRoom k
  · rw [lookup_put h, if_neg hk]
  · rw [put_of_not_hasRoom h]

theorem lookup_remove (m : HashMap κ ν cap) (k k' : κ) :
    (m.remove k).lookup k' = if k' = k then none else m.lookup k' := by
  unfold remove delete
  by_cases hmem : k ∈ m
  · rw [if_pos hmem, Option.getD_some]
    by_cases hk : k' = k
    · rw [if_pos hk, hk]
      exact Finmap.lookup_erase _ _
    · rw [if_neg hk]
      exact Finmap.lookup_erase_ne hk
  · rw [if_neg hmem, Option.getD_none]
    by_cases hk : k' = k
    · rw [if_pos hk, hk, lookup_eq_none]
      exact hmem
    · rw [if_neg hk]

theorem mem_put {m : HashMap κ ν cap} {k : κ} (h : m.HasRoom k) (v : ν) (k' : κ) :
    k' ∈ m.put k v ↔ k' = k ∨ k' ∈ m := by
  rw [mem_iff_isSome, mem_iff_isSome, lookup_put h]
  by_cases hk : k' = k <;> simp [hk]

theorem mem_remove (m : HashMap κ ν cap) (k k' : κ) : k' ∈ m.remove k ↔ k' ≠ k ∧ k' ∈ m := by
  rw [mem_iff_isSome, mem_iff_isSome, lookup_remove]
  by_cases hk : k' = k <;> simp [hk]

theorem keys_put {m : HashMap κ ν cap} {k : κ} (h : m.HasRoom k) (v : ν) :
    (m.put k v).keys = insert k m.keys := by
  ext k'
  rw [mem_keys, mem_put h, Finset.mem_insert, mem_keys]

/-- Writing an entry through a pointer into the map and deleting it is deleting it. -/
theorem remove_put {m : HashMap κ ν cap} {k : κ} (h : k ∈ m) (v : ν) :
    (m.put k v).remove k = m.remove k := by
  apply ext_lookup
  intro k'
  rw [lookup_remove, lookup_remove, lookup_put (Or.inl h)]
  by_cases hk : k' = k <;> simp [hk]

/-! ### What became of a map -/

/-- Some key has a value in `m'` that it does not have in `m`: one was inserted or overwritten. -/
def Writes (m m' : HashMap κ ν cap) : Prop := ∃ k v, m'.lookup k = some v ∧ m.lookup k ≠ some v

/-- Some key of `m` is gone in `m'`. -/
def Drops (m m' : HashMap κ ν cap) : Prop := ∃ k ∈ m, k ∉ m'

theorem not_writes_self (m : HashMap κ ν cap) : ¬ m.Writes m := by
  rintro ⟨k, v, hv, hne⟩
  exact hne hv

omit [DecidableEq κ] in
theorem not_drops_self (m : HashMap κ ν cap) : ¬ m.Drops m := by
  rintro ⟨k, hk, hnot⟩
  exact hnot hk

theorem writes_put_iff {m : HashMap κ ν cap} {k : κ} {v : ν} :
    m.Writes (m.put k v) ↔ m.put k v ≠ m := by
  constructor
  · intro h heq
    rw [heq] at h
    exact not_writes_self m h
  · intro hne
    have hroom : m.HasRoom k := by
      by_contra hfull
      exact hne (put_of_not_hasRoom hfull v)
    refine ⟨k, v, by rw [lookup_put hroom, if_pos rfl], fun hv => hne ?_⟩
    -- the value was there before
    apply ext_lookup
    intro k'
    rw [lookup_put hroom]
    split_ifs with hk
    · rw [hk, hv]
    · rfl

theorem not_drops_put (m : HashMap κ ν cap) (k : κ) (v : ν) : ¬ m.Drops (m.put k v) := by
  rintro ⟨k', hk', hnot⟩
  by_cases hroom : m.HasRoom k
  · exact hnot ((mem_put hroom v k').mpr (Or.inr hk'))
  · rw [put_of_not_hasRoom hroom] at hnot
    exact hnot hk'

theorem drops_remove_iff {m : HashMap κ ν cap} {k : κ} : m.Drops (m.remove k) ↔ k ∈ m := by
  constructor
  · rintro ⟨k', hk', hnot⟩
    by_contra hk
    refine hnot ((mem_remove m k k').mpr ⟨?_, hk'⟩)
    rintro rfl
    exact hk hk'
  · intro hk
    exact ⟨k, hk, fun hmem => ((mem_remove m k k).mp hmem).1 rfl⟩

theorem not_writes_remove (m : HashMap κ ν cap) (k : κ) : ¬ m.Writes (m.remove k) := by
  rintro ⟨k', v, hv, hne⟩
  rw [lookup_remove] at hv
  split_ifs at hv with hk
  exact hne hv

/-! ### Loops of updates and deletes -/

/-- Update the keys of `ks` one after another; an update that is refused is skipped. -/
def putAll (m : HashMap κ ν cap) (ks : List κ) (v : ν) : HashMap κ ν cap :=
  ks.foldl (fun m k => m.put k v) m

/-- Delete the keys of `ks` one after another. -/
def removeAll (m : HashMap κ ν cap) (ks : List κ) : HashMap κ ν cap := ks.foldl remove m

theorem mem_removeAll {m : HashMap κ ν cap} {ks : List κ} {k : κ} :
    k ∈ m.removeAll ks ↔ k ∈ m ∧ k ∉ ks := by
  induction ks generalizing m with
  | nil => simp [removeAll]
  | cons k' ks ih =>
    have hcons : m.removeAll (k' :: ks) = (m.remove k').removeAll ks := rfl
    rw [hcons, ih, mem_remove, List.mem_cons]
    tauto

/-- There is room for a key of a set that is small enough and holds all the keys of the map. -/
theorem hasRoom_of_subset {m : HashMap κ ν cap} {T : Finset κ} (hT : T.card ≤ cap)
    (hm : m.keys ⊆ T) {k : κ} (hk : k ∈ T) : m.HasRoom k := by
  by_cases hmem : k ∈ m
  · exact Or.inl hmem
  · refine Or.inr ?_
    have hssub : m.keys ⊂ T := by
      refine Finset.ssubset_iff_subset_ne.mpr ⟨hm, fun heq => hmem ?_⟩
      rw [← mem_keys, heq]
      exact hk
    exact (Finset.card_lt_card hssub).trans_le hT

theorem mem_putAll {m : HashMap κ ν cap} {ks : List κ} {v : ν} {T : Finset κ} (hT : T.card ≤ cap)
    (hm : m.keys ⊆ T) (hks : ∀ k ∈ ks, k ∈ T) {k : κ} : k ∈ m.putAll ks v ↔ k ∈ m ∨ k ∈ ks := by
  induction ks generalizing m with
  | nil => simp [putAll]
  | cons k' ks ih =>
    have hroom : m.HasRoom k' := hasRoom_of_subset hT hm (hks k' (List.mem_cons_self ..))
    have hkeys : (m.put k' v).keys ⊆ T := by
      rw [keys_put hroom]
      exact Finset.insert_subset (hks k' (List.mem_cons_self ..)) hm
    have hcons : m.putAll (k' :: ks) v = (m.put k' v).putAll ks v := rfl
    rw [hcons, ih hkeys fun k hk => hks k (List.mem_cons_of_mem _ hk), mem_put hroom,
      List.mem_cons]
    tauto

/-- A key that is there after updates was there before or is one of the updated keys. -/
theorem mem_of_mem_putAll {m : HashMap κ ν cap} {ks : List κ} {v : ν} {k : κ}
    (h : k ∈ m.putAll ks v) : k ∈ m ∨ k ∈ ks := by
  induction ks generalizing m with
  | nil => exact Or.inl h
  | cons k' ks ih =>
    have hcons : m.putAll (k' :: ks) v = (m.put k' v).putAll ks v := rfl
    rw [hcons] at h
    rcases ih h with hput | hmem
    · by_cases hroom : m.HasRoom k'
      · rcases (mem_put hroom v k).mp hput with rfl | hm
        · exact Or.inr (List.mem_cons_self ..)
        · exact Or.inl hm
      · rw [put_of_not_hasRoom hroom] at hput
        exact Or.inl hput
    · exact Or.inr (List.mem_cons_of_mem _ hmem)

end HashMap

end Bpf
