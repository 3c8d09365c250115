import Kubebpfbox.Endpoint2Pod.Equiv.Handlers

/-!
## `Providers` and the live `Endpoints` objects

`Tracks` is what the index is for: its keys are the endpoints the live objects list on this node,
and the provider of each comes from one of the objects that list it.

* `tracks_handle_iff`: a notification keeps this exactly when no other live object lists an endpoint
  that the notification makes its object stop listing (`Unshared`).
* `providers_track_iff`: the same over whole sequences of notifications.
-/

namespace Kubebpfbox.Endpoint2Pod

open Golang GoM Kubebpfbox.Core Informer

variable {σ : Type} {nodeName : GoString}

/-- The entries `addEndpoints` leaves in an empty index. -/
def computed (nodeName : GoString) (o : Endpoints) : GoMap Endpoint Provider :=
  match addEndpoints (σ := Unit) o nodeName ⟨{}, ()⟩ with
  | .ok (_, w) => w.providers
  | .error _ => ∅

theorem computed_eq {o : Endpoints} (h : HasTargetRefs nodeName o) :
    computed nodeName o = GoMap.insertAll ∅ (entries nodeName o) := by
  have hlisteners : ListenersComplete (σ := Unit) ⟨{}, ()⟩ := by
    constructor <;> intro handler hmem <;> cases hmem
  obtain ⟨w, hw, -⟩ := addEndpoints_completes h hlisteners
  have hprov := (providers_addEndpoints hw).2
  rw [computed, show addEndpoints o nodeName _ = .ok ((), w) from hw]
  exact hprov

theorem lists_of_computed {o : Endpoints} {endpoint : Endpoint} {provider : Provider}
    (h : (computed nodeName o).lookup endpoint = some provider) : Lists nodeName o endpoint := by
  unfold computed at h
  split at h
  · rename_i w hw
    have href := hasTargetRefs_of_gives hw
    have hmem : endpoint ∈ w.providers := by
      rw [← Finmap.lookup_isSome, h]
      rfl
    rw [(providers_addEndpoints hw).2, GoMap.mem_insertAll, keys_entries href, mem_listing] at hmem
    exact hmem.resolve_left Finmap.notMem_empty
  · rw [Finmap.lookup_empty] at h
    cases h

/-- The index tracks the live objects of the store. -/
structure Tracks (nodeName : GoString) (s : Store Endpoints.key) (m : GoMap Endpoint Provider) :
    Prop where
  mem_iff : ∀ endpoint, endpoint ∈ m ↔ ∃ o, s.Live o ∧ Lists nodeName o endpoint
  lookup : ∀ endpoint provider, m.lookup endpoint = some provider →
    ∃ o, s.Live o ∧ (computed nodeName o).lookup endpoint = some provider

/-- The object of the notification listed the endpoint before and does not list it any more. -/
def Drops (nodeName : GoString) (e : Event Endpoints) (endpoint : Endpoint) : Prop :=
  (∃ o, e.Ends o ∧ Lists nodeName o endpoint) ∧ ¬ ∃ o, e.Begins o ∧ Lists nodeName o endpoint

/-- No other live object lists an endpoint that the object of the notification stops listing. -/
def Unshared (nodeName : GoString) (s : Store Endpoints.key) (e : Event Endpoints) : Prop :=
  ∀ endpoint, Drops nodeName e endpoint → ∀ o, s.Live o → ¬ e.Ends o → ¬ Lists nodeName o endpoint

/-! ### One notification -/

section Effect

variable {e : Event Endpoints} {m : GoMap Endpoint Provider} {endpoint : Endpoint}
  (href : ∀ o, e.Begins o → HasTargetRefs nodeName o)
include href

theorem mem_effect : endpoint ∈ effect nodeName e m ↔
    (∃ o, e.Begins o ∧ Lists nodeName o endpoint) ∨
      (endpoint ∈ m ∧ ¬ ∃ o, e.Ends o ∧ Lists nodeName o endpoint) := by
  cases e with
  | add o =>
    rw [effect, GoMap.mem_insertAll, keys_entries (href o rfl), mem_listing]
    simp [Event.Begins, Event.Ends, or_comm]
  | update o o' =>
    rw [effect, GoMap.mem_insertAll, keys_entries (href o' rfl), GoMap.mem_eraseAll, mem_listing,
      mem_listing]
    simp [Event.Begins, Event.Ends, or_comm]
  | delete o =>
    rw [effect, GoMap.mem_eraseAll, mem_listing]
    simp [Event.Begins, Event.Ends]

theorem lookup_effect_of_begins {o : Endpoints} (ho : e.Begins o)
    (hl : Lists nodeName o endpoint) :
    (effect nodeName e m).lookup endpoint = (computed nodeName o).lookup endpoint := by
  have hkey : endpoint ∈ (entries nodeName o).map Prod.fst := by
    rw [keys_entries (href o ho), mem_listing]
    exact hl
  rw [computed_eq (href o ho)]
  cases e with
  | add o' =>
    cases ho
    exact GoMap.lookup_insertAll_of_mem hkey _
  | update _ o' =>
    cases ho
    exact GoMap.lookup_insertAll_of_mem hkey _
  | delete o' => cases ho

theorem lookup_effect_of_not (hb : ¬ ∃ o, e.Begins o ∧ Lists nodeName o endpoint)
    (he : ¬ ∃ o, e.Ends o ∧ Lists nodeName o endpoint) :
    (effect nodeName e m).lookup endpoint = m.lookup endpoint := by
  have hkey : ∀ o, e.Begins o → endpoint ∉ (entries nodeName o).map Prod.fst := by
    intro o ho hmem
    rw [keys_entries (href o ho), mem_listing] at hmem
    exact hb ⟨o, ho, hmem⟩
  have hlist : ∀ o, e.Ends o → endpoint ∉ listing nodeName o := by
    intro o ho hmem
    exact he ⟨o, ho, mem_listing.mp hmem⟩
  cases e with
  | add o => exact GoMap.lookup_insertAll_of_not_mem (hkey o rfl)
  | update o o' =>
    rw [effect, GoMap.lookup_insertAll_of_not_mem (hkey o' rfl),
      GoMap.lookup_eraseAll_of_not_mem (hlist o rfl)]
  | delete o => exact GoMap.lookup_eraseAll_of_not_mem (hlist o rfl)

/-- **One notification** keeps the index in step exactly when it drops no shared endpoint. -/
theorem tracks_effect_iff {s : Store Endpoints.key} (hdel : e.Deliverable s)
    (h : Tracks nodeName s m) :
    Tracks nodeName (s.apply e) (effect nodeName e m) ↔ Unshared nodeName s e := by
  constructor
  · intro h' endpoint hdrop o ho hends hl
    have hlive : (s.apply e).Live o := (Store.live_apply_iff hdel).mpr (Or.inr ⟨ho, hends⟩)
    have hmem := (h'.mem_iff endpoint).mpr ⟨o, hlive, hl⟩
    rcases (mem_effect href).mp hmem with hbegins | ⟨-, hkept⟩
    · exact hdrop.2 hbegins
    · exact hkept hdrop.1
  · intro hun
    refine ⟨fun endpoint => ?_, fun endpoint provider hlook => ?_⟩
    · rw [mem_effect href]
      constructor
      · rintro (⟨o, ho, hl⟩ | ⟨hmem, hkept⟩)
        · exact ⟨o, (Store.live_apply_iff hdel).mpr (Or.inl ho), hl⟩
        · obtain ⟨o, ho, hl⟩ := (h.mem_iff endpoint).mp hmem
          have hends : ¬ e.Ends o := fun hends => hkept ⟨o, hends, hl⟩
          exact ⟨o, (Store.live_apply_iff hdel).mpr (Or.inr ⟨ho, hends⟩), hl⟩
      · rintro ⟨o, ho, hl⟩
        rcases (Store.live_apply_iff hdel).mp ho with hbegins | ⟨hlive, hends⟩
        · exact Or.inl ⟨o, hbegins, hl⟩
        · by_cases hb : ∃ o, e.Begins o ∧ Lists nodeName o endpoint
          · exact Or.inl hb
          · refine Or.inr ⟨(h.mem_iff endpoint).mpr ⟨o, hlive, hl⟩, fun hended => ?_⟩
            -- the notification would drop an endpoint that `o` still lists
            exact hun endpoint ⟨hended, hb⟩ o hlive hends hl
    · by_cases hb : ∃ o, e.Begins o ∧ Lists nodeName o endpoint
      · obtain ⟨o, ho, hl⟩ := hb
        rw [lookup_effect_of_begins href ho hl] at hlook
        exact ⟨o, (Store.live_apply_iff hdel).mpr (Or.inl ho), hlook⟩
      · have hmem : endpoint ∈ effect nodeName e m := by
          rw [← Finmap.lookup_isSome, hlook]
          rfl
        have hkept := (((mem_effect href).mp hmem).resolve_left hb).2
        rw [lookup_effect_of_not href hb hkept] at hlook
        obtain ⟨o, ho, hcomp⟩ := h.lookup endpoint provider hlook
        have hends : ¬ e.Ends o := fun hends => hkept ⟨o, hends, lists_of_computed hcomp⟩
        exact ⟨o, (Store.live_apply_iff hdel).mpr (Or.inr ⟨ho, hends⟩), hcomp⟩

end Effect

/-- An object a notification adds has the `TargetRef`s that its handling needed. -/
theorem hasTargetRefs_of_begins {e : Event Endpoints} {w w' : World σ}
    (h : Gives (handle nodeName e) w ⟨⟩ w') : ∀ o, e.Begins o → HasTargetRefs nodeName o := by
  intro o ho
  cases e with
  | add o' =>
    cases ho
    exact hasTargetRefs_of_gives (gives_handle_add.mp h)
  | update _ o' =>
    cases ho
    obtain ⟨t, -, hadd⟩ := gives_handle_update.mp h
    exact hasTargetRefs_of_gives hadd
  | delete o' => cases ho

/-- The endpoints of the index after a notification. -/
theorem mem_providers_handle {e : Event Endpoints} {w w' : World σ}
    (hg : Gives (handle nodeName e) w ⟨⟩ w') (endpoint : Endpoint) :
    endpoint ∈ w'.providers ↔ (∃ o, e.Begins o ∧ Lists nodeName o endpoint) ∨
      (endpoint ∈ w.providers ∧ ¬ ∃ o, e.Ends o ∧ Lists nodeName o endpoint) := by
  rw [(providers_handle hg).2]
  exact mem_effect (hasTargetRefs_of_begins hg)

theorem tracks_handle_iff {e : Event Endpoints} {s : Store Endpoints.key} {w w' : World σ}
    (hdel : e.Deliverable s) (hg : Gives (handle nodeName e) w ⟨⟩ w')
    (h : Tracks nodeName s w.providers) :
    Tracks nodeName (s.apply e) w'.providers ↔ Unshared nodeName s e := by
  rw [(providers_handle hg).2]
  exact tracks_effect_iff (hasTargetRefs_of_begins hg) hdel h

/-! ### Sequences of notifications -/

/-- The index before the first notification, with some listeners registered. -/
def Fresh (w : World σ) : Prop := w.providers = ∅

theorem tracks_empty : Tracks nodeName ∅ ∅ where
  mem_iff endpoint := by
    refine iff_of_false Finmap.notMem_empty ?_
    rintro ⟨o, ho, -⟩
    exact Store.not_live_empty o ho
  lookup endpoint provider h := by
    rw [Finmap.lookup_empty] at h
    cases h

/-- Notifications whose local addresses have `TargetRef`s are handled, one after another. -/
theorem forM_handle_completes {events : List (Event Endpoints)} {w : World σ}
    (href : ∀ e ∈ events, ∀ o ∈ objects e, HasTargetRefs nodeName o) (h : ListenersComplete w) :
    ∃ w', Gives (forM events (handle nodeName)) w ⟨⟩ w' ∧ ListenersComplete w' :=
  forM_completes h fun e he _ ht => handle_completes (href e he) ht

theorem exists_reachesAt {events : List (Event Endpoints)} {w : World σ}
    (href : ∀ e ∈ events, ∀ o ∈ objects e, HasTargetRefs nodeName o) (h : ListenersComplete w)
    (n : ℕ) : ∃ w', ReachesAt (handle nodeName) events w n w' := by
  obtain ⟨w', hw', -⟩ := forM_handle_completes href h
  exact hw'.exists_reachesAt n

/-- Every endpoint of the index was listed by an object of some notification. -/
theorem listed_of_mem_providers {events : List (Event Endpoints)} {w w' : World σ} {n : ℕ}
    (hfresh : Fresh w) (h : ReachesAt (handle nodeName) events w n w') {endpoint : Endpoint}
    (hmem : endpoint ∈ w'.providers) :
    ∃ e ∈ events, ∃ o, e.Begins o ∧ Lists nodeName o endpoint := by
  refine h.invariant (I := fun t => ∀ endpoint ∈ t.providers,
    ∃ e ∈ events, ∃ o, e.Begins o ∧ Lists nodeName o endpoint) ?_ ?_ endpoint hmem
  · intro endpoint hmem
    rw [hfresh] at hmem
    exact absurd hmem Finmap.notMem_empty
  · intro e he t t' ht hg endpoint hmem
    rw [mem_providers_handle hg] at hmem
    rcases hmem with ⟨o, ho, hl⟩ | ⟨hold, -⟩
    · exact ⟨e, he, o, ho, hl⟩
    · exact ht endpoint hold

/-- **`Providers` tracks the live objects** in every state of a run exactly when no notification of
the run drops an endpoint that another live object lists. -/
theorem providers_track_iff {events : List (Event Endpoints)} {w : World σ} (hfresh : Fresh w)
    (hdel : Deliverable Endpoints.key events)
    (href : ∀ e ∈ events, ∀ o ∈ objects e, HasTargetRefs nodeName o) (hl : ListenersComplete w) :
    (∀ n, ∃ w', ReachesAt (handle nodeName) events w n w') ∧
    ((∀ n w', ReachesAt (handle nodeName) events w n w' →
        Tracks nodeName (storeAfter Endpoints.key (events.take n)) w'.providers) ↔
      ∀ n e, events[n]? = some e →
        Unshared nodeName (storeAfter Endpoints.key (events.take n)) e) := by
  have hreach := exists_reachesAt href hl
  refine ⟨hreach, ?_⟩
  refine forall_reachesAt_iff_of_exists
    (P := fun l (t : World σ) => Tracks nodeName (storeAfter Endpoints.key l) t.providers)
    (C := fun l e => Unshared nodeName (storeAfter Endpoints.key l) e) ?_ hreach ?_
  · rw [hfresh]
    exact tracks_empty
  · intro n e t t' he _ hlast ht
    rw [storeAfter_take_succ he]
    exact tracks_handle_iff (hdel n e he) hlast ht

/-! ### Two services over one pod -/

section Shared

/-- The node of the samples. -/
def node : GoString := ascii "node1"

/-- A service over the pod `10.0.0.2`. -/
def service (name : GoString) (port : Int32) : Endpoints where
  nameSpace := ascii "default"
  name := name
  subsets := [{
    addresses := [{
      ip := ascii "10.0.0.2"
      nodeName := some node
      targetRef := some { nameSpace := ascii "default", name := ascii "web-0" } }]
    ports := [{ port := port }] }]

theorem hasTargetRefs_service (name : GoString) (port : Int32) :
    HasTargetRefs node (service name port) := by
  intro x hx
  simp only [locals, service, List.flatMap_cons, List.flatMap_nil, List.append_nil, if_pos,
    List.map_cons, List.map_nil, List.mem_singleton] at hx
  rw [hx]
  rfl

theorem lists_service_iff {name : GoString} {port : Int32} {endpoint : Endpoint} :
    Lists node (service name port) endpoint ↔ endpoint = ⟨ascii "10.0.0.2", port⟩ := by
  have hlisting : listing node (service name port) = [⟨ascii "10.0.0.2", port⟩] := by
    simp [listing, locals, service, endpointOf]
  rw [← mem_listing, hlisting, List.mem_singleton]

/-- The index before anything happened, without listeners. -/
def emptyWorld : World Unit := ⟨{}, ()⟩

theorem listenersComplete_emptyWorld : ListenersComplete emptyWorld := by
  constructor <;> intro handler hmem <;> cases hmem

/-- A service comes and goes. -/
def oneService : List (Event Endpoints) :=
  [.add (service (ascii "web") 80), .delete (service (ascii "web") 80)]

/-- A headless service and a ClusterIP service come, and the first goes. -/
def twoServices : List (Event Endpoints) :=
  [.add (service (ascii "web") 80), .add (service (ascii "web-headless") 80),
    .delete (service (ascii "web") 80)]

theorem service_key_ne :
    (service (ascii "web") 80).key ≠ (service (ascii "web-headless") 80).key := by
  decide

theorem deliverable_oneService : Deliverable Endpoints.key oneService := by
  have hdel : (Event.delete (service (ascii "web") 80)).Deliverable
      (storeAfter Endpoints.key [.add (service (ascii "web") 80)]) :=
    (live_storeAfter_add _).mpr rfl
  refine deliverable_concat.mpr ⟨deliverable_concat.mpr ⟨deliverable_nil, ?_⟩, hdel⟩
  exact deliverable_add_first _

theorem unshared_oneService {n : ℕ} {e : Event Endpoints} (he : oneService[n]? = some e) :
    Unshared node (storeAfter Endpoints.key (oneService.take n)) e := by
  intro endpoint hdrop o ho hends hl
  match n, he with
  | 0, he => exact Store.not_live_empty o ho
  | 1, he =>
    cases he
    exact hends ((live_storeAfter_add _).mp ho)

theorem hasTargetRefs_oneService :
    ∀ e ∈ oneService, ∀ o ∈ objects e, HasTargetRefs node o := by
  intro e he o ho
  simp only [oneService, List.mem_cons, List.not_mem_nil, or_false] at he
  rcases he with rfl | rfl <;>
  · rw [List.mem_singleton.mp ho]
    exact hasTargetRefs_service _ _

theorem providers_track_iff_of_oneService :
    (∃ w, ReachesAt (handle node) oneService emptyWorld 1 w) ∧
    ∀ n w, ReachesAt (handle node) oneService emptyWorld n w →
      Tracks node (storeAfter Endpoints.key (oneService.take n)) w.providers := by
  have htrack := providers_track_iff (w := emptyWorld) rfl deliverable_oneService
    hasTargetRefs_oneService listenersComplete_emptyWorld
  exact ⟨htrack.1 1, htrack.2.mpr fun n e he => unshared_oneService he⟩

theorem deliverable_headless : (Event.add (service (ascii "web-headless") 80)).Deliverable
    (storeAfter Endpoints.key [.add (service (ascii "web") 80)]) := by
  intro o ho
  rw [(live_storeAfter_add _).mp ho]
  exact service_key_ne

/-- Both services are live before the first goes. -/
theorem live_both {o : Endpoints} :
    (storeAfter Endpoints.key ([.add (service (ascii "web") 80)] ++
      [.add (service (ascii "web-headless") 80)])).Live o ↔
        o = service (ascii "web-headless") 80 ∨ o = service (ascii "web") 80 := by
  rw [live_storeAfter_concat deliverable_headless, live_storeAfter_add]
  exact or_congr_right (and_iff_left fun h => h)

theorem deliverable_first : (Event.delete (service (ascii "web") 80)).Deliverable
    (storeAfter Endpoints.key ([.add (service (ascii "web") 80)] ++
      [.add (service (ascii "web-headless") 80)])) := live_both.mpr (Or.inr rfl)

theorem deliverable_twoServices : Deliverable Endpoints.key twoServices := by
  refine deliverable_concat.mpr ⟨?_, deliverable_first⟩
  refine deliverable_concat.mpr ⟨?_, deliverable_headless⟩
  exact deliverable_concat.mpr ⟨deliverable_nil, deliverable_add_first _⟩

theorem live_headless_twoServices :
    (storeAfter Endpoints.key twoServices).Live (service (ascii "web-headless") 80) := by
  refine (live_storeAfter_concat deliverable_first).mpr (Or.inr ⟨live_both.mpr (Or.inl rfl), ?_⟩)
  change ¬ service (ascii "web-headless") 80 = service (ascii "web") 80
  decide

/-- When one of two services over a pod goes, the pod is not found any more. -/
theorem not_tracks_twoServices :
    Deliverable Endpoints.key twoServices ∧
    (∀ e ∈ twoServices, ∀ o ∈ objects e, HasTargetRefs node o) ∧
    ∃ w, ReachesAt (handle node) twoServices emptyWorld 3 w ∧
      w.endpoint2Pod.getPodByEndpoint (ascii "10.0.0.2") 80 = none ∧
      ¬ Tracks node (storeAfter Endpoints.key (twoServices.take 3)) w.providers := by
  have href : ∀ e ∈ twoServices, ∀ o ∈ objects e, HasTargetRefs node o := by
    intro e he o ho
    simp only [twoServices, List.mem_cons, List.not_mem_nil, or_false] at he
    rcases he with rfl | rfl | rfl <;>
    · rw [List.mem_singleton.mp ho]
      exact hasTargetRefs_service _ _
  obtain ⟨w, hw⟩ := exists_reachesAt href listenersComplete_emptyWorld 3
  obtain ⟨t, -, hlast⟩ := (reachesAt_succ (show twoServices[2]? = some _ from rfl)).mp hw
  have hgone : ⟨ascii "10.0.0.2", 80⟩ ∉ w.providers := by
    rw [(providers_handle hlast).2, effect, GoMap.mem_eraseAll, mem_listing]
    exact fun hmem => hmem.2 (lists_service_iff.mpr rfl)
  refine ⟨deliverable_twoServices, href, w, hw, Finmap.lookup_eq_none.mpr hgone, fun htrack => ?_⟩
  exact hgone ((htrack.mem_iff _).mpr ⟨_, live_headless_twoServices, lists_service_iff.mpr rfl⟩)

end Shared

end Kubebpfbox.Endpoint2Pod
