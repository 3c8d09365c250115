import Mathlib.Data.Finmap
import Mathlib.Data.List.Basic

/-!
# Shared informers

An informer keeps a store of objects, one for each key, and tells its listeners how the store
changes: `Event α` is a notification about objects of type `α`.

`Event.Deliverable` says which notifications the informer may send in a given store, and
`Deliverable` which sequences of them it may send from the empty one.  `Store.live_apply_iff` is
what a notification does to the set of live objects.
-/

namespace Informer

/-- A notification. -/
inductive Event (α : Type*) where
  /-- there is a new object -/
  | add (newObj : α)
  /-- an object has a new version -/
  | update (oldObj newObj : α)
  /-- an object is gone -/
  | delete (oldObj : α)
  deriving DecidableEq, Repr

variable {κ α : Type*} [DecidableEq κ] (key : α → κ)

/-- The objects an informer knows, each under its key. -/
structure Store where
  objects : Finmap fun _ : κ => α
  key_eq : ∀ k o, objects.lookup k = some o → key o = k

variable {key}

namespace Store

instance : EmptyCollection (Store key) :=
  ⟨⟨∅, by
    intro k o h
    rw [Finmap.lookup_empty] at h
    cases h⟩⟩

/-- The object is in the store. -/
def Live (s : Store key) (o : α) : Prop := s.objects.lookup (key o) = some o

theorem not_live_empty (o : α) : ¬ (∅ : Store key).Live o := by
  intro h
  have hnone : (∅ : Store key).objects.lookup (key o) = none := Finmap.lookup_empty _
  rw [Live, hnone] at h
  cases h

/-- Two live objects with the same key are the same object. -/
theorem Live.eq_of_key_eq {s : Store key} {o o' : α} (h : s.Live o) (h' : s.Live o')
    (hkey : key o = key o') : o = o' := by
  unfold Live at h h'
  rw [hkey, h'] at h
  exact (Option.some.inj h).symm

/-- The object takes the place of the one with its key, if there is one. -/
def set (s : Store key) (o : α) : Store key where
  objects := s.objects.insert (key o) o
  key_eq k o' h := by
    by_cases hk : k = key o
    · rw [hk, Finmap.lookup_insert] at h
      rw [hk, Option.some.inj h]
    · rw [Finmap.lookup_insert_of_ne _ hk] at h
      exact s.key_eq k o' h

/-- No object has the key any more. -/
def unset (s : Store key) (k : κ) : Store key where
  objects := s.objects.erase k
  key_eq k' o h := by
    by_cases hk : k' = k
    · rw [hk, Finmap.lookup_erase] at h
      cases h
    · rw [Finmap.lookup_erase_ne hk] at h
      exact s.key_eq k' o h

theorem live_set {s : Store key} {o x : α} :
    (s.set o).Live x ↔ x = o ∨ (s.Live x ∧ key x ≠ key o) := by
  unfold Live set
  by_cases hk : key x = key o
  · rw [hk, Finmap.lookup_insert, Option.some.injEq, eq_comm]
    simp
  · rw [Finmap.lookup_insert_of_ne _ hk]
    have hne : x ≠ o := fun h => hk (congrArg key h)
    simp [hne, hk]

theorem live_unset {s : Store key} {k : κ} {x : α} :
    (s.unset k).Live x ↔ s.Live x ∧ key x ≠ k := by
  unfold Live unset
  by_cases hk : key x = k
  · rw [hk, Finmap.lookup_erase]
    simp
  · rw [Finmap.lookup_erase_ne hk]
    simp [hk]

/-- The store after a notification. -/
def apply (s : Store key) : Event α → Store key
  | .add newObj => s.set newObj
  | .update _ newObj => s.set newObj
  | .delete oldObj => s.unset (key oldObj)

end Store

namespace Event

/-- The informer may send the notification: an object that is added was not known, and one that is
updated or deleted is the one last sent. -/
def Deliverable (s : Store key) : Event α → Prop
  | .add newObj => ∀ o, s.Live o → key o ≠ key newObj
  | .update oldObj newObj => s.Live oldObj ∧ key newObj = key oldObj
  | .delete oldObj => s.Live oldObj

/-- The object that is not live any more after the notification. -/
def Ends : Event α → α → Prop
  | .add _, _ => False
  | .update oldObj _, x => x = oldObj
  | .delete oldObj, x => x = oldObj

/-- The object that is live after the notification, whatever was live before. -/
def Begins : Event α → α → Prop
  | .add newObj, x => x = newObj
  | .update _ newObj, x => x = newObj
  | .delete _, _ => False

end Event

/-- A notification ends one object and begins another; the others stay. -/
theorem Store.live_apply_iff {s : Store key} {e : Event α} (h : e.Deliverable s) {x : α} :
    (s.apply e).Live x ↔ e.Begins x ∨ (s.Live x ∧ ¬ e.Ends x) := by
  cases e with
  | add newObj =>
    rw [Store.apply, Store.live_set]
    simp only [Event.Begins, Event.Ends, not_false_eq_true, and_true]
    exact or_congr_right (and_iff_left_of_imp (h x))
  | update oldObj newObj =>
    rw [Store.apply, Store.live_set, h.2]
    refine or_congr_right (and_congr_right fun hx => not_congr ?_)
    exact ⟨fun hkey => hx.eq_of_key_eq h.1 hkey, fun heq => congrArg key heq⟩
  | delete oldObj =>
    rw [Store.apply, Store.live_unset]
    simp only [Event.Begins, Event.Ends, false_or]
    refine and_congr_right fun hx => not_congr ?_
    exact ⟨fun hkey => hx.eq_of_key_eq h hkey, fun heq => congrArg key heq⟩

variable (key) in
/-- The store after the notifications, from the empty one. -/
def storeAfter (events : List (Event α)) : Store key := events.foldl Store.apply ∅

theorem storeAfter_take_succ {events : List (Event α)} {n : ℕ} {e : Event α}
    (he : events[n]? = some e) :
    storeAfter key (events.take (n + 1)) = (storeAfter key (events.take n)).apply e := by
  rw [List.take_add_one, he, Option.toList_some, storeAfter, List.foldl_append]
  rfl

variable (key) in
/-- The informer may send the notifications, one after another. -/
def Deliverable (events : List (Event α)) : Prop :=
  ∀ n (e : Event α), events[n]? = some e → e.Deliverable (storeAfter key (events.take n))

theorem deliverable_nil : Deliverable key [] := by
  intro n e he
  cases he

theorem storeAfter_concat {events : List (Event α)} {e : Event α} :
    storeAfter key (events ++ [e]) = (storeAfter key events).apply e := by
  rw [storeAfter, List.foldl_append]
  rfl

/-- What is live after one notification more. -/
theorem live_storeAfter_concat {events : List (Event α)} {e : Event α}
    (h : e.Deliverable (storeAfter key events)) {x : α} :
    (storeAfter key (events ++ [e])).Live x ↔
      e.Begins x ∨ ((storeAfter key events).Live x ∧ ¬ e.Ends x) := by
  rw [storeAfter_concat, Store.live_apply_iff h]

/-- Any object may come first. -/
theorem deliverable_add_first (o : α) : (Event.add o).Deliverable (storeAfter key []) :=
  fun x hx => absurd hx (Store.not_live_empty x)

theorem live_storeAfter_add (o : α) {x : α} : (storeAfter key [.add o]).Live x ↔ x = o := by
  have hadd : (Event.add o).Deliverable (storeAfter key []) := deliverable_add_first o
  rw [← List.nil_append [Event.add o], live_storeAfter_concat hadd]
  exact or_iff_left fun hx => Store.not_live_empty x hx.1

theorem deliverable_concat {events : List (Event α)} {e : Event α} :
    Deliverable key (events ++ [e]) ↔
      Deliverable key events ∧ e.Deliverable (storeAfter key events) := by
  constructor
  · intro h
    refine ⟨fun n e' he' => ?_, ?_⟩
    · have hlt : n < events.length := (List.getElem?_eq_some_iff.mp he').1
      have hstep := h n e' (by rw [List.getElem?_append_left hlt, he'])
      rwa [List.take_append_of_le_length hlt.le] at hstep
    · have hlast := h events.length e List.getElem?_concat_length
      rwa [List.take_left] at hlast
  · rintro ⟨h, hlast⟩ n e' he'
    by_cases hlt : n < events.length
    · rw [List.getElem?_append_left hlt] at he'
      rw [List.take_append_of_le_length hlt.le]
      exact h n e' he'
    · have hn : n = events.length := by
        have hbound := (List.getElem?_eq_some_iff.mp he').1
        rw [List.length_append, List.length_singleton] at hbound
        omega
      rw [hn, List.getElem?_concat_length, Option.some.injEq] at he'
      rw [hn, List.take_left, ← he']
      exact hlast

end Informer
