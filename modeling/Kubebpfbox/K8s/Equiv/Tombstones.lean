import Kubebpfbox.Endpoint2Pod.Equiv.Completion
import Kubebpfbox.K8s.Agent
import Kubebpfbox.Pid2Pod.Equiv.Attribution

/-!
# Deletes that the watch has missed

`DeleteFunc` asserts that it is given the object.  For a delete that a relist found it is given a
`cache.DeletedFinalStateUnknown`, and panics (`handlesDelete_iff`).

* `deletesHandled_iff`: which deletes of a run of the agent are handled, over all orders of the
  calls of the two informers.
* `deletesHandled_iff_of_hasTargetRefs`: for services whose addresses all have `TargetRef`s, exactly
  the deletes that carry the object.
-/

namespace Kubebpfbox.K8s

open Golang GoM Informer Kubebpfbox.Core

/-! ### One delete -/

section HandlesDelete

variable {α σ : Type} {p : Controller α σ} {nodeName : GoString} {obj : Obj α} {s : σ}

/-- `DeleteFunc` does not panic, and has applied every handler to the last known object. -/
def HandlesDelete (p : Controller α σ) (nodeName : GoString) (obj : Obj α) (s : σ) : Prop :=
  ∃ s', Gives (p.deleteFunc nodeName obj) s ⟨⟩ s' ∧
    Gives (forM p.deleteEventHandlers fun handler => handler obj.last nodeName) s ⟨⟩ s'

/-- A delete is handled when it carries the object, and the handlers do not panic on it. -/
theorem handlesDelete_iff : HandlesDelete p nodeName obj s ↔
    obj.IsObject ∧
      ∃ s', Gives (forM p.deleteEventHandlers fun handler => handler obj.last nodeName) s ⟨⟩ s' := by
  unfold HandlesDelete
  rcases obj with o | o
  · constructor
    · rintro ⟨s', -, hs'⟩
      exact ⟨trivial, s', hs'⟩
    · rintro ⟨-, s', hs'⟩
      exact ⟨s', hs', hs'⟩
  · refine iff_of_false ?_ fun h => h.1
    rintro ⟨s', hs', -⟩
    cases hs'

end HandlesDelete

variable {σ : Type} {nodeName : GoString}

/-- The handler of the pod index never panics. -/
theorem handlesDelete_podController_iff {obj : Obj Pod} {p : Pid2Pod} :
    HandlesDelete Pid2Pod.podController nodeName obj p ↔ obj.IsObject := by
  rw [handlesDelete_iff, and_iff_left]
  exact ⟨_, (Pid2Pod.gives_handle (e := .delete obj.last)).mpr rfl⟩

theorem handlesDelete_serviceController_iff {obj : Obj Endpoints} {w : World σ} :
    HandlesDelete serviceController nodeName obj w ↔
      obj.IsObject ∧ Endpoint2Pod.DeleteSafe nodeName obj.last w := by
  rw [handlesDelete_iff, ← Endpoint2Pod.deleteEndpoints_complete_iff]
  refine and_congr_right fun _ => exists_congr fun w' => ?_
  exact Endpoint2Pod.gives_handle_delete

/-! ### The deletes of a run -/

/-- A call, in a state it finds, is not a delete or is handled. -/
def Handled (nodeName : GoString) (a : Indexes σ) : Delivery → Prop
  | .pod (.delete obj) => HandlesDelete Pid2Pod.podController nodeName obj a.pid2pod
  | .service (.delete obj) => HandlesDelete serviceController nodeName obj a.world
  | _ => True

/-- The call is not a delete, or carries the object, and one of `Endpoints` is safe. -/
def Handleable (nodeName : GoString) (a : Indexes σ) : Delivery → Prop
  | .pod (.delete obj) => obj.IsObject
  | .service (.delete obj) => obj.IsObject ∧ Endpoint2Pod.DeleteSafe nodeName obj.last a.world
  | _ => True

theorem handled_iff {a : Indexes σ} (d : Delivery) :
    Handled nodeName a d ↔ Handleable nodeName a d := by
  rcases d with (_ | _ | obj) | (_ | _ | obj)
  · exact Iff.rfl
  · exact Iff.rfl
  · exact handlesDelete_podController_iff
  · exact Iff.rfl
  · exact Iff.rfl
  · exact handlesDelete_serviceController_iff

/-- Every delete that the agent comes to is handled. -/
def DeletesHandled (nodeName : GoString) (deliveries : List Delivery) (a : Indexes σ) : Prop :=
  ∀ n d a', deliveries[n]? = some d → ReachesAt (deliver nodeName) deliveries a n a' →
    Handled nodeName a' d

/-- **The deletes are handled** exactly when each that the agent comes to carries the object, and
for `Endpoints` no listener lacks a `TargetRef` or panics. -/
theorem deletesHandled_iff (deliveries : List Delivery) (a : Indexes σ) :
    DeletesHandled nodeName deliveries a ↔
      ∀ n d a', deliveries[n]? = some d → ReachesAt (deliver nodeName) deliveries a n a' →
        Handleable nodeName a' d := by
  unfold DeletesHandled
  simp only [handled_iff]

/-! ### Runs of objects that are complete -/

/-- The call is a delete that the watch has missed. -/
def Delivery.IsTombstone : Delivery → Prop
  | .pod (.delete obj) => ¬ obj.IsObject
  | .service (.delete obj) => ¬ obj.IsObject
  | _ => False

/-- The `Endpoints` of a call. -/
def Delivery.objects : Delivery → List Endpoints
  | .pod _ => []
  | .service n => Endpoint2Pod.objects n.event

/-- A call with the object itself is the notification of its event. -/
theorem notify_eq_handle {α σ : Type} (p : Controller α σ) {n : Notification α}
    (h : ∀ obj, n = .delete obj → obj.IsObject) :
    p.notify nodeName n = p.handle nodeName n.event := by
  rcases n with newObj | ⟨oldObj, newObj⟩ | (o | o)
  · rfl
  · rfl
  · rfl
  · exact (h _ rfl).elim

section Complete

variable {d : Delivery} {a : Indexes σ}

/-- A call that is no tombstone is answered to the end. -/
theorem deliver_completes (hd : ¬ d.IsTombstone)
    (href : ∀ o ∈ d.objects, Endpoint2Pod.HasTargetRefs nodeName o)
    (ha : Endpoint2Pod.ListenersComplete a.world) :
    ∃ a', Gives (deliver nodeName d) a ⟨⟩ a' ∧ Endpoint2Pod.ListenersComplete a'.world := by
  rcases d with n | n
  · have hobject : ∀ obj, n = .delete obj → obj.IsObject := by
      rintro obj rfl
      exact not_not.mp hd
    have hpods : Gives (Pid2Pod.podController.notify nodeName n) a.pid2pod ⟨⟩
        ⟨Pid2Pod.effect nodeName a.pid2pod.pods n.event⟩ := by
      rw [notify_eq_handle _ hobject]
      exact Pid2Pod.gives_handle.mpr rfl
    exact ⟨_, gives_zoom.mpr ⟨_, hpods, rfl⟩, ha⟩
  · have hobject : ∀ obj, n = .delete obj → obj.IsObject := by
      rintro obj rfl
      exact not_not.mp hd
    obtain ⟨w, hw, hcomplete⟩ := Endpoint2Pod.handle_completes href ha
    refine ⟨_, gives_zoom.mpr ⟨w, ?_, rfl⟩, hcomplete⟩
    rw [notify_eq_handle _ hobject]
    exact hw

theorem handleable_iff_not_isTombstone
    (href : ∀ o ∈ d.objects, Endpoint2Pod.HasTargetRefs nodeName o)
    (ha : Endpoint2Pod.ListenersComplete a.world) :
    Handleable nodeName a d ↔ ¬ d.IsTombstone := by
  rcases d with (_ | _ | obj) | (_ | _ | obj)
  · exact iff_of_true trivial not_false
  · exact iff_of_true trivial not_false
  · exact not_not.symm
  · exact iff_of_true trivial not_false
  · exact iff_of_true trivial not_false
  · have hsafe : Endpoint2Pod.DeleteSafe nodeName obj.last a.world :=
      ⟨Or.inr (href obj.last (List.mem_singleton.mpr rfl)), Endpoint2Pod.calls_complete ha.2 ..⟩
    exact (and_iff_left hsafe).trans not_not.symm

/-- As long as no tombstone comes, the agent lives. -/
theorem exists_reachesAt {deliveries : List Delivery} {n : ℕ}
    (hd : ∀ d ∈ deliveries.take n, ¬ d.IsTombstone)
    (href : ∀ d ∈ deliveries, ∀ o ∈ d.objects, Endpoint2Pod.HasTargetRefs nodeName o)
    (ha : Endpoint2Pod.ListenersComplete a.world) :
    ∃ a', ReachesAt (deliver nodeName) deliveries a n a' ∧
      Endpoint2Pod.ListenersComplete a'.world :=
  forM_completes ha fun d hmem _ ht =>
    deliver_completes (hd d hmem) (href d (List.mem_of_mem_take hmem)) ht

/-- Where every `Endpoints` object is complete, **the deletes are handled** exactly when none of
them is a tombstone. -/
theorem deletesHandled_iff_of_hasTargetRefs {deliveries : List Delivery}
    (href : ∀ d ∈ deliveries, ∀ o ∈ d.objects, Endpoint2Pod.HasTargetRefs nodeName o)
    (ha : Endpoint2Pod.ListenersComplete a.world) :
    DeletesHandled nodeName deliveries a ↔ ∀ d ∈ deliveries, ¬ d.IsTombstone := by
  unfold DeletesHandled
  simp only [handled_iff]
  constructor
  · intro h
    have hprefix : ∀ n, ∀ d ∈ deliveries.take n, ¬ d.IsTombstone := by
      intro n
      induction n with
      | zero => simp
      | succ n ih =>
        rw [List.take_add_one]
        intro d hd
        rcases List.mem_append.mp hd with hd | hd
        · exact ih d hd
        · -- the agent comes to the next one
          have hget : deliveries[n]? = some d := Option.mem_toList.mp hd
          obtain ⟨a', hreach, ha'⟩ := exists_reachesAt ih href ha
          exact (handleable_iff_not_isTombstone (href d (List.mem_of_getElem? hget)) ha').mp
            (h n d a' hget hreach)
    have hall := hprefix deliveries.length
    rwa [List.take_length] at hall
  · intro h n d a' hget hreach
    have htake : ∀ d ∈ deliveries.take n, ¬ d.IsTombstone :=
      fun d hd => h d (List.mem_of_mem_take hd)
    obtain ⟨t, ht, hcomplete⟩ := exists_reachesAt htake href ha
    rw [hreach.unique ht]
    have hmem := List.mem_of_getElem? hget
    exact (handleable_iff_not_isTombstone (href d hmem) hcomplete).mpr (h d hmem)

end Complete

/-! ### A relist that finds a delete -/

section Relist

/-- The agent before anything happened. -/
def freshIndexes : Indexes Unit where
  world := Endpoint2Pod.emptyWorld

/-- A pod comes, and a relist finds it gone. -/
def podRelist : List Delivery :=
  [.pod (.add Pid2Pod.docsPod), .pod (.delete (.deletedFinalStateUnknown Pid2Pod.docsPod))]

/-- A service comes, and a relist finds it gone. -/
def serviceRelist : List Delivery :=
  [.service (.add (Endpoint2Pod.service (ascii "web") 80)),
    .service (.delete (.deletedFinalStateUnknown (Endpoint2Pod.service (ascii "web") 80)))]

/-- A pod that comes and goes. -/
theorem deliverable_podRelist :
    Deliverable Pod.key [.add Pid2Pod.docsPod, .delete Pid2Pod.docsPod] := by
  have hdel : (Event.delete Pid2Pod.docsPod).Deliverable
      (storeAfter Pod.key [.add Pid2Pod.docsPod]) := (live_storeAfter_add _).mpr rfl
  refine deliverable_concat.mpr ⟨deliverable_concat.mpr ⟨deliverable_nil, ?_⟩, hdel⟩
  exact deliverable_add_first _

/-- The two informers may send these, and the agent panics at both deletes. -/
theorem not_deletesHandled_relist :
    Deliverable Pod.key [.add Pid2Pod.docsPod, .delete Pid2Pod.docsPod] ∧
    Deliverable Endpoints.key Endpoint2Pod.oneService ∧
    forM podRelist (deliver Endpoint2Pod.node) freshIndexes = .error .interfaceConversion ∧
    forM serviceRelist (deliver Endpoint2Pod.node) freshIndexes = .error .interfaceConversion ∧
    ¬ DeletesHandled Endpoint2Pod.node podRelist freshIndexes ∧
    ¬ DeletesHandled Endpoint2Pod.node serviceRelist freshIndexes := by
  have hlisteners := Endpoint2Pod.listenersComplete_emptyWorld
  refine ⟨deliverable_podRelist, Endpoint2Pod.deliverable_oneService, rfl, rfl, ?_, ?_⟩
  · have href : ∀ d ∈ podRelist, ∀ o ∈ d.objects,
        Endpoint2Pod.HasTargetRefs Endpoint2Pod.node o := by
      simp [podRelist, Delivery.objects]
    rw [deletesHandled_iff_of_hasTargetRefs href hlisteners]
    exact fun h => h _ (List.mem_of_getElem? (i := 1) rfl) id
  · have href : ∀ d ∈ serviceRelist, ∀ o ∈ d.objects,
        Endpoint2Pod.HasTargetRefs Endpoint2Pod.node o := by
      intro d hd o ho
      rcases List.mem_pair.mp hd with rfl | rfl
      · rw [List.mem_singleton.mp ho]
        exact Endpoint2Pod.hasTargetRefs_service _ _
      · rw [List.mem_singleton.mp ho]
        exact Endpoint2Pod.hasTargetRefs_service _ _
    rw [deletesHandled_iff_of_hasTargetRefs href hlisteners]
    exact fun h => h _ (List.mem_of_getElem? (i := 1) rfl) id

end Relist

end Kubebpfbox.K8s
