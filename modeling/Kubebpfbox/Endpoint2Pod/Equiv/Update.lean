import Kubebpfbox.Endpoint2Pod.Equiv.Providers
import Kubebpfbox.Lib.Lists

/-!
# The states of an update

`updateEndpoints` is one loop over the writes it makes to `Providers` (`updateEndpoints_eq`): a
delete for every local address of the old version, then an assignment for every one of the new.
`Seen` are the states a reader may find while the loop runs.

A reader that comes between the two halves finds nothing, also for an endpoint that both versions
list (`surviving_endpoint_iff`).
-/

namespace Kubebpfbox.Endpoint2Pod

open Golang GoM Kubebpfbox.Core Informer

variable {σ : Type} {nodeName : GoString} {oldEndpoints newEndpoints : Endpoints}

/-- A write to `Providers`, for an address and a port. -/
inductive Write where
  | delete (x : EndpointAddress × EndpointPort)
  | insert (x : EndpointAddress × EndpointPort)
  deriving DecidableEq, Repr

/-- The writes of an update, in order. -/
def writes (nodeName : GoString) (oldEndpoints newEndpoints : Endpoints) : List Write :=
  (locals nodeName oldEndpoints).map .delete ++ (locals nodeName newEndpoints).map .insert

/-- One turn of the loops: the write, and the calls of the listeners. -/
def turn (nodeName : GoString) (oldEndpoints newEndpoints : Endpoints) :
    Write → GoM (World σ) PUnit
  | .delete x => deleteEndpoint oldEndpoints nodeName x.1 x.2
  | .insert x => addEndpoint newEndpoints nodeName x.1 x.2

theorem updateEndpoints_eq : updateEndpoints (σ := σ) oldEndpoints newEndpoints nodeName =
    forM (writes nodeName oldEndpoints newEndpoints) (turn nodeName oldEndpoints newEndpoints) := by
  rw [writes, List.forM_append, List.forM_map, List.forM_map, updateEndpoints, rangeLocal_eq,
    rangeLocal_eq]
  rfl

/-- The write of a turn.  An address without a `TargetRef` has nothing to assign, and panics. -/
def mapWrite (nodeName : GoString) (newEndpoints : Endpoints) : Write → GoM (World σ) PUnit
  | .delete x => modify fun w => w.setProviders (w.providers.erase (endpointOf x))
  | .insert x => do
    let provider := providerOf newEndpoints nodeName (← deref x.1.targetRef)
    modify fun w => w.setProviders (w.providers.insert (endpointOf x) provider)

/-- The calls of the listeners in a turn. -/
def notify (nodeName : GoString) (oldEndpoints newEndpoints : Endpoints) :
    Write → GoM (World σ) PUnit
  | .delete x => do
    let handlers := (← get).endpoint2Pod.deleteEventHandlers
    World.listeners (notifyDeleted nodeName oldEndpoints handlers x)
  | .insert x => do
    let provider := providerOf newEndpoints nodeName (← deref x.1.targetRef)
    let handlers := (← get).endpoint2Pod.addEventHandlers
    World.listeners (forM handlers fun handler => discard (handler (endpointOf x) provider))

/-- A turn is its write and then the calls of the listeners. -/
theorem turn_eq (e : Write) : turn (σ := σ) nodeName oldEndpoints newEndpoints e =
    mapWrite nodeName newEndpoints e >>= fun _ => notify nodeName oldEndpoints newEndpoints e := by
  cases e with
  | delete x => rfl
  | insert x =>
    cases href : x.1.targetRef with
    | none => simp only [turn, addEndpoint, mapWrite, notify, href]; rfl
    | some ref => simp only [turn, addEndpoint, mapWrite, notify, href]; rfl

/-- A reader may find the state `w'` during an update that starts in `w`: between two turns, or in
one, when its write is done. -/
def Seen (nodeName : GoString) (oldEndpoints newEndpoints : Endpoints) (w w' : World σ) : Prop :=
  ∃ n, ReachesAt (turn nodeName oldEndpoints newEndpoints)
      (writes nodeName oldEndpoints newEndpoints) w n w' ∨
    ∃ e t, ReachesAt (turn nodeName oldEndpoints newEndpoints)
        (writes nodeName oldEndpoints newEndpoints) w n t ∧
      (writes nodeName oldEndpoints newEndpoints)[n]? = some e ∧
      Gives (mapWrite nodeName newEndpoints e) t ⟨⟩ w'

/-! ### The deletes -/

/-- The local addresses in front of the first one with the endpoint. -/
def localsBefore (nodeName : GoString) (o : Endpoints) (endpoint : Endpoint) :
    List (EndpointAddress × EndpointPort) :=
  (locals nodeName o).takeWhile fun x => endpointOf x ≠ endpoint

theorem endpointOf_ne_of_mem {o : Endpoints} {endpoint : Endpoint}
    {x : EndpointAddress × EndpointPort} (h : x ∈ localsBefore nodeName o endpoint) :
    endpointOf x ≠ endpoint := by
  simpa using List.mem_takeWhile_imp h

theorem isPrefix_localsBefore (nodeName : GoString) (o : Endpoints) (endpoint : Endpoint) :
    localsBefore nodeName o endpoint <+: locals nodeName o := List.takeWhile_prefix _

/-- Behind them comes one with the endpoint. -/
theorem exists_getElem?_localsBefore {o : Endpoints} {endpoint : Endpoint}
    (h : Lists nodeName o endpoint) :
    ∃ x, (locals nodeName o)[(localsBefore nodeName o endpoint).length]? = some x ∧
      endpointOf x = endpoint := by
  obtain ⟨x, hx, hend⟩ := List.mem_map.mp (mem_listing.mpr h)
  obtain ⟨y, hy, hstop⟩ := Lists.exists_getElem?_length_takeWhile
    (p := fun x => decide (endpointOf x ≠ endpoint)) hx (by simpa using hend)
  exact ⟨y, hy, by simpa using hstop⟩

/-- The listeners of the deletions run through for all of `l`. -/
def NotifiesAll (nodeName : GoString) (oldEndpoints : Endpoints)
    (l : List (EndpointAddress × EndpointPort)) (w : World σ) : Prop :=
  ∃ s, Gives (forM l (notifyDeleted nodeName oldEndpoints w.endpoint2Pod.deleteEventHandlers))
    w.outer ⟨⟩ s

section Surviving

variable {endpoint : Endpoint} {w w' : World σ}

/-- The first writes of an update are the deletes of the old version. -/
theorem take_writes (newEndpoints : Endpoints) {l : List (EndpointAddress × EndpointPort)}
    (h : l <+: locals nodeName oldEndpoints) :
    (writes nodeName oldEndpoints newEndpoints).take l.length = l.map .delete := by
  obtain ⟨rest, hrest⟩ := h
  rw [writes, ← hrest, List.map_append, List.append_assoc]
  exact List.take_left' (List.length_map ..)

/-- The state after the first deletes. -/
theorem reachesAt_deletes_iff (newEndpoints : Endpoints)
    {l : List (EndpointAddress × EndpointPort)} (h : l <+: locals nodeName oldEndpoints) :
    ReachesAt (turn nodeName oldEndpoints newEndpoints)
        (writes nodeName oldEndpoints newEndpoints) w l.length w' ↔
      ∃ s, Gives (forM l (notifyDeleted nodeName oldEndpoints w.endpoint2Pod.deleteEventHandlers))
          w.outer ⟨⟩ s ∧
        w' = { w.setProviders (w.providers.eraseAll (l.map endpointOf)) with outer := s } := by
  rw [ReachesAt, take_writes newEndpoints h, List.forM_map]
  exact gives_forM_deleteEndpoint

/-- The deletes in front of the first one of the endpoint leave it in the index. -/
theorem mem_of_reachesAt (hmem : endpoint ∈ w.providers) {n : ℕ}
    (hn : n ≤ (localsBefore nodeName oldEndpoints endpoint).length)
    (h : ReachesAt (turn nodeName oldEndpoints newEndpoints)
      (writes nodeName oldEndpoints newEndpoints) w n w') : endpoint ∈ w'.providers := by
  have hprefix : (localsBefore nodeName oldEndpoints endpoint).take n
      <+: locals nodeName oldEndpoints :=
    (List.take_prefix n _).trans (isPrefix_localsBefore nodeName oldEndpoints endpoint)
  have hlen : ((localsBefore nodeName oldEndpoints endpoint).take n).length = n := by
    rw [List.length_take, min_eq_left hn]
  rw [← hlen] at h
  obtain ⟨s, -, rfl⟩ := (reachesAt_deletes_iff newEndpoints hprefix).mp h
  show endpoint ∈ w.providers.eraseAll _
  rw [GoMap.mem_eraseAll]
  refine ⟨hmem, fun hlisted => ?_⟩
  obtain ⟨x, hx, hend⟩ := List.mem_map.mp hlisted
  exact endpointOf_ne_of_mem (List.mem_of_mem_take hx) hend

/-- A write in front of the first delete of the endpoint is the delete of another one. -/
theorem getElem?_writes_of_lt {n : ℕ} {e : Write}
    (hn : n < (localsBefore nodeName oldEndpoints endpoint).length)
    (he : (writes nodeName oldEndpoints newEndpoints)[n]? = some e) :
    ∃ x, e = .delete x ∧ endpointOf x ≠ endpoint := by
  have htake := take_writes newEndpoints (isPrefix_localsBefore nodeName oldEndpoints endpoint)
  have hget : ((localsBefore nodeName oldEndpoints endpoint).map Write.delete)[n]? = some e := by
    rw [← htake, List.getElem?_take_of_lt hn, he]
  rw [List.getElem?_map, Option.map_eq_some_iff] at hget
  obtain ⟨x, hx, rfl⟩ := hget
  exact ⟨x, rfl, endpointOf_ne_of_mem (List.mem_of_getElem? hx)⟩

/-- The second half of an update assigns what the new version lists. -/
theorem mem_of_updateEndpoints (hnew : Lists nodeName newEndpoints endpoint)
    (h : Gives (updateEndpoints oldEndpoints newEndpoints nodeName) w ⟨⟩ w') :
    endpoint ∈ w'.providers := by
  obtain ⟨t, -, hadd⟩ := gives_updateEndpoints.mp h
  rw [(providers_addEndpoints hadd).2, GoMap.mem_insertAll,
    keys_entries (hasTargetRefs_of_gives hadd), mem_listing]
  exact Or.inr hnew

/-- An update that comes to the first delete of the endpoint leaves a state without it. -/
theorem exists_seen_not_mem (newEndpoints : Endpoints)
    (hold : Lists nodeName oldEndpoints endpoint)
    (h : NotifiesAll nodeName oldEndpoints (localsBefore nodeName oldEndpoints endpoint) w) :
    ∃ w', Seen nodeName oldEndpoints newEndpoints w w' ∧ endpoint ∉ w'.providers := by
  obtain ⟨s, hs⟩ := h
  obtain ⟨x, hx, hend⟩ := exists_getElem?_localsBefore hold
  -- the write behind these deletes is the delete of the endpoint itself
  have hwrite : (writes nodeName oldEndpoints newEndpoints)[
      (localsBefore nodeName oldEndpoints endpoint).length]? = some (.delete x) := by
    have hlt := (List.getElem?_eq_some_iff.mp hx).1
    rw [writes, List.getElem?_append_left (by rwa [List.length_map]), List.getElem?_map, hx,
      Option.map_some]
  have hreach := (reachesAt_deletes_iff newEndpoints
    (isPrefix_localsBefore nodeName oldEndpoints endpoint)).mpr ⟨s, hs, rfl⟩
  refine ⟨_, ⟨_, Or.inr ⟨_, _, hreach, hwrite, gives_modify.mpr rfl⟩⟩, ?_⟩
  show endpoint ∉ Finmap.erase (endpointOf x) (w.providers.eraseAll _)
  rw [hend]
  exact Finmap.notMem_erase_self

/-- Where a listener panics in front of the first delete of the endpoint, that delete is never
reached. -/
theorem lt_of_reachesAt
    (hpanic : ¬ NotifiesAll nodeName oldEndpoints (localsBefore nodeName oldEndpoints endpoint) w)
    {n : ℕ} (h : ReachesAt (turn nodeName oldEndpoints newEndpoints)
      (writes nodeName oldEndpoints newEndpoints) w n w') :
    n < (localsBefore nodeName oldEndpoints endpoint).length := by
  -- a later turn is reached only when the listeners in front of it run through
  by_contra hge
  obtain ⟨t, ht⟩ := h.exists_reachesAt (localsBefore nodeName oldEndpoints endpoint).length
  rw [ReachesAt, List.take_take, min_eq_left (by omega)] at ht
  obtain ⟨s, hs, -⟩ := (reachesAt_deletes_iff newEndpoints
    (isPrefix_localsBefore nodeName oldEndpoints endpoint)).mp ht
  exact hpanic ⟨s, hs⟩

/-- So every state of such an update has the endpoint. -/
theorem mem_of_seen (hmem : endpoint ∈ w.providers)
    (hpanic : ¬ NotifiesAll nodeName oldEndpoints (localsBefore nodeName oldEndpoints endpoint) w)
    (h : Seen nodeName oldEndpoints newEndpoints w w') : endpoint ∈ w'.providers := by
  obtain ⟨n, ht | ⟨e, t, ht, he, hwrite⟩⟩ := h
  · exact mem_of_reachesAt hmem (lt_of_reachesAt hpanic ht).le ht
  · have hlt := lt_of_reachesAt hpanic ht
    obtain ⟨x, rfl, hne⟩ := getElem?_writes_of_lt hlt he
    rw [gives_modify.mp hwrite]
    exact Finmap.mem_erase.mpr ⟨hne.symm, mem_of_reachesAt hmem hlt.le ht⟩

/-- **An endpoint that both versions list** is there when the update has run through.  It can be
found all the time exactly when the update panics before it comes to it: when a listener does not
run through for a local address of the old version in front of the first one with the endpoint. -/
theorem surviving_endpoint_iff (hold : Lists nodeName oldEndpoints endpoint)
    (hnew : Lists nodeName newEndpoints endpoint) (hmem : endpoint ∈ w.providers) :
    (∀ w', Gives (updateEndpoints oldEndpoints newEndpoints nodeName) w ⟨⟩ w' →
        (w'.endpoint2Pod.getPodByEndpoint endpoint.ip endpoint.port).isSome) ∧
    ((∀ w', Seen nodeName oldEndpoints newEndpoints w w' →
        (w'.endpoint2Pod.getPodByEndpoint endpoint.ip endpoint.port).isSome) ↔
      ¬ NotifiesAll nodeName oldEndpoints (localsBefore nodeName oldEndpoints endpoint) w) := by
  have hfound : ∀ w' : World σ, (w'.endpoint2Pod.getPodByEndpoint endpoint.ip endpoint.port).isSome
      ↔ endpoint ∈ w'.providers := fun w' => Finmap.lookup_isSome
  simp only [hfound]
  refine ⟨fun w' hw' => mem_of_updateEndpoints hnew hw', ?_⟩
  constructor
  · intro hseen hnotifies
    obtain ⟨w', hw', hgone⟩ := exists_seen_not_mem newEndpoints hold hnotifies
    exact hgone (hseen w' hw')
  · intro hpanic w' hw'
    exact mem_of_seen hmem hpanic hw'

end Surviving

/-- Where no listener panics on its own, the deletions run through unless a `TargetRef` is missing
that a listener needs. -/
theorem notifiesAll_iff {w : World σ} (h : ListenersComplete w) {o : Endpoints}
    {l : List (EndpointAddress × EndpointPort)} :
    NotifiesAll nodeName o l w ↔
      w.endpoint2Pod.deleteEventHandlers = [] ∨ ∀ x ∈ l, x.1.targetRef.isSome := by
  simp only [NotifiesAll, gives_forM_notifyDeleted, exists_and_left]
  exact and_iff_left (calls_complete h.2 _ _)

/-! ### A service that is scaled up -/

section Scaled

/-- The endpoint of the samples. -/
def web : Endpoint := ⟨ascii "10.0.0.2", 80⟩

/-- An address on the node of the samples. -/
def address (ip : GoString) (targetRef : Option ObjectReference) : EndpointAddress where
  ip := ip
  nodeName := some node
  targetRef := targetRef

/-- The service of `web`, with some addresses in front of its own. -/
def webService (front : List EndpointAddress) : Endpoints where
  nameSpace := ascii "default"
  name := ascii "web"
  subsets := [{
    addresses := front ++ [address web.ip (some
      { nameSpace := ascii "default", name := ascii "web-0" })]
    ports := [{ port := web.port }] }]

theorem lists_webService (front : List EndpointAddress) : Lists node (webService front) web := by
  have hlast := List.mem_append_right front (List.mem_singleton.mpr (Eq.refl (address web.ip (some
    { nameSpace := ascii "default", name := ascii "web-0" }))))
  exact ⟨_, List.mem_singleton.mpr rfl, ⟨_, hlast, rfl, rfl⟩, _, List.mem_singleton.mpr rfl, rfl⟩

/-- The index with the endpoint of `web`, and some listeners of deletions. -/
def webWorld (handlers : List (EventHandler Unit)) : World Unit where
  endpoint2Pod := {
    providers := (∅ : GoMap Endpoint Provider).insert web
      ⟨ascii "web-0", node, ascii "default", ascii "web"⟩
    deleteEventHandlers := handlers }
  outer := ()

theorem mem_webWorld (handlers : List (EventHandler Unit)) :
    web ∈ (webWorld handlers).providers := by
  unfold World.providers webWorld
  exact Finmap.mem_insert.mpr (Or.inl rfl)

/-- An address that a service without a selector may have. -/
def bare : EndpointAddress := address (ascii "10.0.0.9") none

theorem localsBefore_bare :
    localsBefore node (webService [bare]) web = [(bare, { port := 80 })] := by
  decide

/-- A listener that does nothing. -/
def quiet : EventHandler Unit := fun _ _ => pure none

theorem listenersComplete_quiet : ListenersComplete (webWorld [quiet]) := by
  constructor
  · intro handler hmem
    cases hmem
  · intro handler hmem endpoint provider s
    rw [List.mem_singleton.mp hmem]
    exact ⟨none, s, gives_pure.mpr ⟨rfl, rfl⟩⟩

/-- The update panics at the address without a `TargetRef`, before it comes to `web`. -/
theorem surviving_endpoint_iff_of_bare :
    Seen node (webService [bare]) (webService [bare]) (webWorld [quiet]) (webWorld [quiet]) ∧
    ∀ w', Seen node (webService [bare]) (webService [bare]) (webWorld [quiet]) w' →
      (w'.endpoint2Pod.getPodByEndpoint web.ip web.port).isSome := by
  refine ⟨⟨0, Or.inl (reachesAt_zero.mpr rfl)⟩, (surviving_endpoint_iff (lists_webService _)
    (lists_webService _) (mem_webWorld [quiet])).2.mpr ?_⟩
  rw [notifiesAll_iff listenersComplete_quiet, localsBefore_bare]
  rintro (hnil | href)
  · cases hnil
  · cases href _ (List.mem_singleton.mpr rfl)

/-- A second pod comes to the service of `web`, and for a moment `web` cannot be found. -/
theorem web_not_found : ∃ w',
    Lists node (webService []) web ∧
    Lists node (webService [address (ascii "10.0.0.1") (some
      { nameSpace := ascii "default", name := ascii "web-1" })]) web ∧
    web ∈ (webWorld []).providers ∧
    Seen node (webService []) (webService [address (ascii "10.0.0.1") (some
      { nameSpace := ascii "default", name := ascii "web-1" })]) (webWorld []) w' ∧
    w'.endpoint2Pod.getPodByEndpoint web.ip web.port = none := by
  refine ⟨(webWorld []).setProviders ((webWorld []).providers.erase web), lists_webService _,
    lists_webService _, mem_webWorld [], ⟨0, Or.inr ⟨_, _, reachesAt_zero.mpr rfl, rfl, ?_⟩⟩, ?_⟩
  · exact gives_modify.mpr rfl
  · show Finmap.lookup web (Finmap.erase web _) = none
    exact Finmap.lookup_erase web _

end Scaled

end Kubebpfbox.Endpoint2Pod
