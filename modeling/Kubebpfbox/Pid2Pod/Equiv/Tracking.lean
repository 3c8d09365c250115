import Kubebpfbox.Pid2Pod.Equiv.Attribution

/-!
# Tracking the pods of the node

`Pods` should hold the live pods of this node, each under its UID (`Tracks`).  An update stores the
new version and never takes out the old one, so a pod that moves to another node, or is recreated
under its name with another UID, stays behind.

`pods_track_iff` says for which sequences of notifications `Pods` is right in every state.
-/

namespace Kubebpfbox.Pid2Pod

open Golang GoM Kubebpfbox.Core K8s Informer

/-- `Pods` holds the live pods of the node, each under its UID, and nothing else. -/
def Tracks (nodeName : GoString) (s : Store Pod.key) (m : GoMap GoString Pod) : Prop :=
  ∀ uid pod, m.lookup uid = some pod ↔ s.Live pod ∧ pod.nodeName = nodeName ∧ pod.uid = uid

/-- A pod of the node that is updated is still on the node, and still the same pod. -/
def StaysPut (nodeName : GoString) : Event Pod → Prop
  | .add _ => True
  | .update oldPod newPod =>
    oldPod.nodeName = nodeName → newPod.nodeName = nodeName ∧ newPod.uid = oldPod.uid
  | .delete _ => True

instance (nodeName : GoString) (e : Event Pod) : Decidable (StaysPut nodeName e) := by
  cases e <;> unfold StaysPut <;> infer_instance

/-- No other live pod of the node has the UID of a pod that comes to it. -/
def FreshUid (nodeName : GoString) (s : Store Pod.key) (e : Event Pod) : Prop :=
  ∀ newPod, e.Begins newPod → newPod.nodeName = nodeName →
    ∀ pod, s.Live pod → pod.nodeName = nodeName → pod.uid = newPod.uid → e.Ends pod

section Step

variable {nodeName : GoString} {s s' : Store Pod.key} {m : GoMap GoString Pod}
  (h : Tracks nodeName s m)
include h

/-- Two live pods of the node with one UID are one pod. -/
theorem Tracks.eq_of_uid_eq {pod pod' : Pod} (hpod : s.Live pod) (hlocal : pod.nodeName = nodeName)
    (hpod' : s.Live pod') (hlocal' : pod'.nodeName = nodeName) (huid : pod.uid = pod'.uid) :
    pod = pod' := by
  have hlook : m.lookup pod.uid = some pod := (h _ _).mpr ⟨hpod, hlocal, rfl⟩
  have hlook' : m.lookup pod'.uid = some pod' := (h _ _).mpr ⟨hpod', hlocal', rfl⟩
  rw [huid, hlook'] at hlook
  exact (Option.some.inj hlook).symm

section Begins

variable {newPod : Pod} {Ends : Pod → Prop}
  (hlive : ∀ pod, s'.Live pod ↔ pod = newPod ∨ (s.Live pod ∧ ¬ Ends pod))
include hlive

/-- What a pod of another node leaves as it is stays right when no pod of this one ends. -/
theorem Tracks.keep_iff (hfar : newPod.nodeName ≠ nodeName) :
    Tracks nodeName s' m ↔ ∀ pod, s.Live pod → pod.nodeName = nodeName → ¬ Ends pod := by
  constructor
  · intro h' pod hpod hlocal
    have hlook : m.lookup pod.uid = some pod := (h _ _).mpr ⟨hpod, hlocal, rfl⟩
    obtain ⟨hpod', -, -⟩ := (h' _ _).mp hlook
    rcases (hlive pod).mp hpod' with rfl | ⟨-, hends⟩
    · exact absurd hlocal hfar
    · exact hends
  · intro hends uid pod
    rw [h, hlive]
    constructor
    · rintro ⟨hpod, hlocal, huid⟩
      exact ⟨Or.inr ⟨hpod, hends pod hpod hlocal⟩, hlocal, huid⟩
    · rintro ⟨rfl | ⟨hpod, -⟩, hlocal, huid⟩
      · exact absurd hlocal hfar
      · exact ⟨hpod, hlocal, huid⟩

/-- A pod of the node that is stored leaves the rest right when a pod that ends has its UID, and one
that has its UID ends. -/
theorem Tracks.insert_iff (hlocal : newPod.nodeName = nodeName) :
    Tracks nodeName s' (m.insert newPod.uid newPod) ↔
      (∀ pod, s.Live pod → pod.nodeName = nodeName → Ends pod → pod.uid = newPod.uid) ∧
      ∀ pod, s.Live pod → pod.nodeName = nodeName → pod.uid = newPod.uid →
        Ends pod ∨ pod = newPod := by
  constructor
  · intro h'
    refine ⟨fun pod hpod hpodLocal hends => ?_, fun pod hpod hpodLocal huid => ?_⟩
    · -- a pod that ends and has another UID would still be found
      by_contra huid
      have hlook : (m.insert newPod.uid newPod).lookup pod.uid = some pod := by
        rw [Finmap.lookup_insert_of_ne _ huid]
        exact (h _ _).mpr ⟨hpod, hpodLocal, rfl⟩
      obtain ⟨hpod', -, -⟩ := (h' _ _).mp hlook
      rcases (hlive pod).mp hpod' with rfl | ⟨-, hnot⟩
      · exact huid rfl
      · exact hnot hends
    · -- a pod that lives on and has the UID would be lost
      by_contra hnot
      rw [not_or] at hnot
      have hpod' : s'.Live pod := (hlive pod).mpr (Or.inr ⟨hpod, hnot.1⟩)
      have hlook := (h' _ _).mpr ⟨hpod', hpodLocal, huid⟩
      rw [Finmap.lookup_insert] at hlook
      exact hnot.2 (Option.some.inj hlook).symm
  · rintro ⟨hold, hnew⟩ uid pod
    rw [hlive]
    by_cases huid : uid = newPod.uid
    · rw [huid, Finmap.lookup_insert, Option.some.injEq]
      constructor
      · rintro rfl
        exact ⟨Or.inl rfl, hlocal, rfl⟩
      · rintro ⟨rfl | ⟨hpod, hends⟩, hpodLocal, hpodUid⟩
        · rfl
        · exact ((hnew pod hpod hpodLocal hpodUid).resolve_left hends).symm
    · rw [Finmap.lookup_insert_of_ne _ huid, h]
      constructor
      · rintro ⟨hpod, hpodLocal, rfl⟩
        exact ⟨Or.inr ⟨hpod, fun hends => huid (hold pod hpod hpodLocal hends)⟩, hpodLocal, rfl⟩
      · rintro ⟨rfl | ⟨hpod, -⟩, hpodLocal, hpodUid⟩
        · exact absurd hpodUid.symm huid
        · exact ⟨hpod, hpodLocal, hpodUid⟩

end Begins

theorem tracks_add_iff {newPod : Pod} (hdel : (Event.add newPod).Deliverable s) :
    Tracks nodeName (s.apply (.add newPod)) (effect nodeName m (.add newPod)) ↔
      FreshUid nodeName s (.add newPod) := by
  have hlive : ∀ pod, (s.apply (.add newPod)).Live pod ↔
      pod = newPod ∨ (s.Live pod ∧ ¬ (Event.add newPod).Ends pod) := fun pod =>
    Store.live_apply_iff hdel
  rw [effect]
  by_cases hlocal : newPod.nodeName = nodeName
  · rw [if_neg (not_not.mpr hlocal), h.insert_iff hlive hlocal]
    constructor
    · rintro ⟨-, hnew⟩ new hbegins - pod hpod hpodLocal huid
      obtain rfl : new = newPod := hbegins
      -- the pod that is added was not live before
      have hne : pod ≠ new := fun heq => hdel pod hpod (congrArg Pod.key heq)
      exact (hnew pod hpod hpodLocal huid).resolve_right hne
    · intro hfresh
      refine ⟨fun pod _ _ hends => absurd hends id, fun pod hpod hpodLocal huid => ?_⟩
      exact Or.inl (hfresh newPod rfl hlocal pod hpod hpodLocal huid)
  · rw [if_pos hlocal, h.keep_iff hlive hlocal]
    refine iff_of_true (fun pod _ _ => id) ?_
    rintro _ rfl hnew
    exact absurd hnew hlocal

theorem tracks_update_iff {oldPod newPod : Pod}
    (hdel : (Event.update oldPod newPod).Deliverable s) :
    Tracks nodeName (s.apply (.update oldPod newPod)) (effect nodeName m (.update oldPod newPod)) ↔
      StaysPut nodeName (.update oldPod newPod) ∧ FreshUid nodeName s (.update oldPod newPod) := by
  have hlive : ∀ pod, (s.apply (.update oldPod newPod)).Live pod ↔
      pod = newPod ∨ (s.Live pod ∧ ¬ pod = oldPod) := fun pod => Store.live_apply_iff hdel
  obtain ⟨hold, hkey⟩ := hdel
  rw [effect]
  by_cases hlocal : newPod.nodeName = nodeName
  · rw [if_neg (not_not.mpr hlocal), h.insert_iff hlive hlocal]
    constructor
    · rintro ⟨hends, hnew⟩
      refine ⟨fun holdLocal => ⟨hlocal, (hends oldPod hold holdLocal rfl).symm⟩, ?_⟩
      rintro _ rfl _ pod hpod hpodLocal huid
      rcases hnew pod hpod hpodLocal huid with hend | rfl
      · exact hend
      · -- a live pod with the key of the old version is the old version
        exact hpod.eq_of_key_eq hold hkey
    · rintro ⟨hstays, hfresh⟩
      refine ⟨?_, fun pod hpod hpodLocal huid => ?_⟩
      · rintro pod - hpodLocal rfl
        exact (hstays hpodLocal).2.symm
      · exact Or.inl (hfresh newPod rfl hlocal pod hpod hpodLocal huid)
  · rw [if_pos hlocal, h.keep_iff hlive hlocal]
    constructor
    · intro hends
      refine ⟨fun holdLocal => absurd rfl (hends oldPod hold holdLocal), ?_⟩
      rintro _ rfl hnew
      exact absurd hnew hlocal
    · rintro ⟨hstays, -⟩ pod - hpodLocal rfl
      exact hlocal (hstays hpodLocal).1

theorem tracks_delete {oldPod : Pod} (hdel : (Event.delete oldPod).Deliverable s) :
    Tracks nodeName (s.apply (.delete oldPod)) (effect nodeName m (.delete oldPod)) := by
  have hlive : ∀ pod, (s.apply (.delete oldPod)).Live pod ↔ s.Live pod ∧ ¬ pod = oldPod := by
    intro pod
    rw [Store.live_apply_iff hdel]
    exact or_iff_right id
  have hold : s.Live oldPod := hdel
  intro uid pod
  rw [effect, hlive]
  split_ifs with hfar
  · -- a pod of another node was never stored
    rw [h]
    constructor
    · rintro ⟨hpod, hlocal, huid⟩
      exact ⟨⟨hpod, fun heq => hfar (heq ▸ hlocal)⟩, hlocal, huid⟩
    · rintro ⟨⟨hpod, -⟩, hlocal, huid⟩
      exact ⟨hpod, hlocal, huid⟩
  · rw [not_not] at hfar
    by_cases huid : uid = oldPod.uid
    · -- no other live pod of the node has this UID
      rw [huid, Finmap.lookup_erase]
      refine iff_of_false (by simp) ?_
      rintro ⟨⟨hpod, hne⟩, hlocal, hpodUid⟩
      exact hne (h.eq_of_uid_eq hpod hlocal hold hfar hpodUid)
    · rw [Finmap.lookup_erase_ne huid, h]
      constructor
      · rintro ⟨hpod, hlocal, hpodUid⟩
        exact ⟨⟨hpod, fun heq => huid (hpodUid.symm.trans (congrArg Pod.uid heq))⟩, hlocal, hpodUid⟩
      · rintro ⟨⟨hpod, -⟩, hlocal, hpodUid⟩
        exact ⟨hpod, hlocal, hpodUid⟩

/-- One notification leaves `Pods` right exactly when an updated pod of the node stays what it is
and a pod that comes to the node has a UID of its own. -/
theorem tracks_effect_iff {e : Event Pod} (hdel : e.Deliverable s) :
    Tracks nodeName (s.apply e) (effect nodeName m e) ↔
      StaysPut nodeName e ∧ FreshUid nodeName s e := by
  cases e with
  | add newPod =>
    rw [tracks_add_iff h hdel]
    exact (and_iff_right trivial).symm
  | update oldPod newPod => exact tracks_update_iff h hdel
  | delete oldPod =>
    refine iff_of_true (tracks_delete h hdel) ⟨trivial, ?_⟩
    rintro newPod ⟨⟩

end Step

/-! ### Sequences of notifications -/

theorem tracks_empty (nodeName : GoString) : Tracks nodeName ∅ ∅ := by
  intro uid pod
  rw [Finmap.lookup_empty]
  refine iff_of_false (by simp) ?_
  rintro ⟨hpod, -⟩
  exact Store.not_live_empty pod hpod

theorem exists_reachesAt (nodeName : GoString) (events : List (Event Pod)) (p : Pid2Pod) (n : ℕ) :
    ∃ p', ReachesAt (handle nodeName) events p n p' := by
  obtain ⟨p', hp', -⟩ := forM_completes (f := handle nodeName) (l := events) (s := p)
    (I := fun _ => True) trivial fun e _ t _ => ⟨_, gives_handle.mpr rfl, trivial⟩
  exact hp'.exists_reachesAt n

/-- **`Pods` tracks the live pods of the node** in every state of a run exactly when no update takes
a pod of the node away from it or gives it another UID, and no pod comes to the node with the UID of
another one on it. -/
theorem pods_track_iff {nodeName : GoString} {events : List (Event Pod)}
    (hdel : Deliverable Pod.key events) :
    (∀ n, ∃ p, ReachesAt (handle nodeName) events {} n p) ∧
    ((∀ n p, ReachesAt (handle nodeName) events {} n p →
        Tracks nodeName (storeAfter Pod.key (events.take n)) p.pods) ↔
      ∀ n e, events[n]? = some e →
        StaysPut nodeName e ∧ FreshUid nodeName (storeAfter Pod.key (events.take n)) e) := by
  have hreach := exists_reachesAt nodeName events {}
  refine ⟨hreach, ?_⟩
  refine forall_reachesAt_iff_of_exists
    (P := fun l (p : Pid2Pod) => Tracks nodeName (storeAfter Pod.key l) p.pods)
    (C := fun l e => StaysPut nodeName e ∧ FreshUid nodeName (storeAfter Pod.key l) e)
    (tracks_empty nodeName) hreach ?_
  intro n e t t' he _ hlast ht
  rw [storeAfter_take_succ he, gives_handle.mp hlast]
  exact tracks_effect_iff ht (hdel n e he)

/-! ### A pod that is recreated -/

/-- The pod `web-0` of a StatefulSet. -/
def webPod (uid : String) : Pod where
  nameSpace := ascii "default"
  name := ascii "web-0"
  uid := ascii uid
  labels := []
  nodeName := ascii "node1"
  containerStatuses := []

/-- The pod comes, gets a new version, and goes. -/
def onePod : List (Event Pod) :=
  [.add (webPod "a"), .update (webPod "a") (webPod "a"), .delete (webPod "a")]

/-- The pod is recreated while the watch is down. -/
def recreated : List (Event Pod) := [.add (webPod "a"), .update (webPod "a") (webPod "b")]

theorem deliverable_update (uid : String) : (Event.update (webPod "a") (webPod uid)).Deliverable
    (storeAfter Pod.key [.add (webPod "a")]) := ⟨(live_storeAfter_add _).mpr rfl, rfl⟩

theorem deliverable_add_update (uid : String) :
    Deliverable Pod.key ([.add (webPod "a")] ++ [.update (webPod "a") (webPod uid)]) := by
  refine deliverable_concat.mpr ⟨?_, deliverable_update uid⟩
  exact deliverable_concat.mpr ⟨deliverable_nil, deliverable_add_first _⟩

theorem live_storeAfter_update {uid : String} {pod : Pod} :
    (storeAfter Pod.key ([.add (webPod "a")] ++ [.update (webPod "a") (webPod uid)])).Live pod ↔
      pod = webPod uid := by
  rw [live_storeAfter_concat (deliverable_update uid), live_storeAfter_add]
  exact or_iff_left fun hpod => hpod.2 hpod.1

theorem deliverable_onePod : Deliverable Pod.key onePod := by
  have hdel : (Event.delete (webPod "a")).Deliverable
      (storeAfter Pod.key ([.add (webPod "a")] ++ [.update (webPod "a") (webPod "a")])) :=
    live_storeAfter_update.mpr rfl
  exact deliverable_concat.mpr ⟨deliverable_add_update "a", hdel⟩

theorem pods_track_iff_of_onePod :
    (∃ p, ReachesAt (handle (ascii "node1")) onePod {} 2 p) ∧
    ∀ n p, ReachesAt (handle (ascii "node1")) onePod {} n p →
      Tracks (ascii "node1") (storeAfter Pod.key (onePod.take n)) p.pods := by
  refine ⟨(pods_track_iff deliverable_onePod).1 2,
    (pods_track_iff deliverable_onePod).2.mpr fun n e he => ⟨?_, ?_⟩⟩
  · have hstays : ∀ e ∈ onePod, StaysPut (ascii "node1") e := by decide
    exact hstays e (List.mem_of_getElem? he)
  · rintro newPod hbegins - pod hpod - -
    match n, he with
    | 0, he => exact absurd hpod (Store.not_live_empty pod)
    | 1, he =>
      cases he
      exact (live_storeAfter_add _).mp hpod
    | 2, he =>
      cases he
      exact absurd hbegins id

/-- The old pod stays behind. -/
theorem not_tracks_recreated : Deliverable Pod.key recreated ∧
    ∃ p, ReachesAt (handle (ascii "node1")) recreated {} 2 p ∧
      p.pods.lookup (ascii "a") = some (webPod "a") ∧
      ¬ Tracks (ascii "node1") (storeAfter Pod.key (recreated.take 2)) p.pods := by
  obtain ⟨p, hp⟩ := exists_reachesAt (ascii "node1") recreated {} 2
  obtain ⟨t, ht, hlast⟩ := (reachesAt_succ (show recreated[1]? = some _ from rfl)).mp hp
  obtain ⟨t₀, ht₀, hfirst⟩ := (reachesAt_succ (show recreated[0]? = some _ from rfl)).mp ht
  have hold : p.pods.lookup (ascii "a") = some (webPod "a") := by
    rw [gives_handle.mp hlast, gives_handle.mp hfirst]
    show Finmap.lookup (ascii "a") (Finmap.insert (ascii "b") _ (Finmap.insert (ascii "a") _ _)) = _
    rw [Finmap.lookup_insert_of_ne _ (by decide)]
    exact Finmap.lookup_insert _
  refine ⟨deliverable_add_update "b", p, hp, hold, fun htrack => ?_⟩
  have hgone : webPod "a" = webPod "b" := live_storeAfter_update.mp ((htrack _ _).mp hold).1
  revert hgone
  decide

end Kubebpfbox.Pid2Pod
