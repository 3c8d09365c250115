import Kubebpfbox.Endpoint2Pod.Equiv.Update

/-!
# Where the three handlers complete

`addEndpoints`, `deleteEndpoints` and `updateEndpoints` test `NodeName` before they dereference it,
and dereference `TargetRef` without a test.  So a call completes when every local address has a
`TargetRef` and the listeners run through.  A deletion needs the `TargetRef`s for its listeners
only.

`endpoints_complete_iff` says this for the three handlers, and
`endpoints_complete_iff_of_listenersComplete` for listeners that never panic on their own.
-/

namespace Kubebpfbox.Endpoint2Pod

open Golang GoM Kubebpfbox.Core Informer

variable {σ : Type} {nodeName : GoString} {o oldEndpoints newEndpoints : Endpoints}

/-- An addition is safe: every local address has a `TargetRef`, and the listeners do not panic. -/
def AddSafe (nodeName : GoString) (o : Endpoints) (w : World σ) : Prop :=
  HasTargetRefs nodeName o ∧ ∃ s, Told nodeName o w.endpoint2Pod.addEventHandlers w.outer s

/-- A deletion is safe: there is no listener, or every local address has a `TargetRef`, and the
listeners do not panic. -/
def DeleteSafe (nodeName : GoString) (o : Endpoints) (w : World σ) : Prop :=
  (w.endpoint2Pod.deleteEventHandlers = [] ∨ HasTargetRefs nodeName o) ∧
    ∃ s, Told nodeName o w.endpoint2Pod.deleteEventHandlers w.outer s

/-- An update is safe: its deletion is, and behind it its addition. -/
def UpdateSafe (nodeName : GoString) (oldEndpoints newEndpoints : Endpoints) (w : World σ) : Prop :=
  (w.endpoint2Pod.deleteEventHandlers = [] ∨ HasTargetRefs nodeName oldEndpoints) ∧
  HasTargetRefs nodeName newEndpoints ∧
  ∃ s s', Told nodeName oldEndpoints w.endpoint2Pod.deleteEventHandlers w.outer s ∧
    Told nodeName newEndpoints w.endpoint2Pod.addEventHandlers s s'

section Complete

variable {w : World σ}

theorem addEndpoints_complete_iff :
    (∃ w', Gives (addEndpoints o nodeName) w ⟨⟩ w') ↔ AddSafe nodeName o w := by
  simp only [gives_addEndpoints, AddSafe]
  constructor
  · rintro ⟨w', href, s, hs, -⟩
    exact ⟨href, s, hs⟩
  · rintro ⟨href, s, hs⟩
    exact ⟨_, href, s, hs, rfl⟩

theorem deleteEndpoints_complete_iff :
    (∃ w', Gives (deleteEndpoints o nodeName) w ⟨⟩ w') ↔ DeleteSafe nodeName o w := by
  simp only [gives_deleteEndpoints, DeleteSafe]
  constructor
  · rintro ⟨w', href, s, hs, -⟩
    exact ⟨href, s, hs⟩
  · rintro ⟨href, s, hs⟩
    exact ⟨_, href, s, hs, rfl⟩

theorem updateEndpoints_complete_iff :
    (∃ w', Gives (updateEndpoints oldEndpoints newEndpoints nodeName) w ⟨⟩ w') ↔
      UpdateSafe nodeName oldEndpoints newEndpoints w := by
  simp only [gives_updateEndpoints, UpdateSafe]
  constructor
  · rintro ⟨w', t, hdel, hadd⟩
    obtain ⟨hold, s, hs, rfl⟩ := gives_deleteEndpoints.mp hdel
    obtain ⟨hnew, s', hs', -⟩ := gives_addEndpoints.mp hadd
    exact ⟨hold, hnew, s, s', hs, hs'⟩
  · rintro ⟨hold, hnew, s, s', hs, hs'⟩
    -- the deletion leaves the listeners of additions as they were
    exact ⟨_, _, gives_deleteEndpoints.mpr ⟨hold, s, hs, rfl⟩,
      gives_addEndpoints.mpr ⟨hnew, s', hs', rfl⟩⟩

/-- **The handlers run to completion** exactly when every local address of the objects has a
`TargetRef` (for a deletion only if there is a listener) and the listeners do not panic on what they
are told. -/
theorem endpoints_complete_iff (w : World σ) :
    ((∃ w', Gives (addEndpoints newEndpoints nodeName) w ⟨⟩ w') ↔
        AddSafe nodeName newEndpoints w) ∧
    ((∃ w', Gives (deleteEndpoints oldEndpoints nodeName) w ⟨⟩ w') ↔
        DeleteSafe nodeName oldEndpoints w) ∧
    ((∃ w', Gives (updateEndpoints oldEndpoints newEndpoints nodeName) w ⟨⟩ w') ↔
        UpdateSafe nodeName oldEndpoints newEndpoints w) :=
  ⟨addEndpoints_complete_iff, deleteEndpoints_complete_iff, updateEndpoints_complete_iff⟩

/-- With listeners that never panic on their own only a missing `TargetRef` is left. -/
theorem endpoints_complete_iff_of_listenersComplete (h : ListenersComplete w) :
    ((∃ w', Gives (addEndpoints newEndpoints nodeName) w ⟨⟩ w') ↔
        HasTargetRefs nodeName newEndpoints) ∧
    ((∃ w', Gives (deleteEndpoints oldEndpoints nodeName) w ⟨⟩ w') ↔
        w.endpoint2Pod.deleteEventHandlers = [] ∨ HasTargetRefs nodeName oldEndpoints) ∧
    ((∃ w', Gives (updateEndpoints oldEndpoints newEndpoints nodeName) w ⟨⟩ w') ↔
        (w.endpoint2Pod.deleteEventHandlers = [] ∨ HasTargetRefs nodeName oldEndpoints) ∧
          HasTargetRefs nodeName newEndpoints) := by
  obtain ⟨hadd, hdelete⟩ := h
  rw [addEndpoints_complete_iff, deleteEndpoints_complete_iff, updateEndpoints_complete_iff]
  refine ⟨and_iff_left (calls_complete hadd ..), and_iff_left (calls_complete hdelete ..), ?_⟩
  refine and_congr_right fun _ => and_iff_left ?_
  obtain ⟨s, hs⟩ := calls_complete hdelete (entries nodeName oldEndpoints) w.outer
  obtain ⟨s', hs'⟩ := calls_complete hadd (entries nodeName newEndpoints) s
  exact ⟨s, s', hs, hs'⟩

end Complete

/-! ### An address of a service without a selector -/

/-- An address with a `NodeName` and without a `TargetRef` makes all three handlers panic. -/
theorem not_complete_bare :
    addEndpoints (webService [bare]) node (webWorld [quiet]) = .error .nilDereference ∧
    deleteEndpoints (webService [bare]) node (webWorld [quiet]) = .error .nilDereference ∧
    updateEndpoints (webService [bare]) (webService []) node (webWorld [quiet]) =
      .error .nilDereference := ⟨rfl, rfl, rfl⟩

end Kubebpfbox.Endpoint2Pod
