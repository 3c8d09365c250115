import Kubebpfbox.Endpoint2Pod.Basic
import Mathlib.Tactic.Tauto

/-!
## What the handlers do

* `mem_listing`: the endpoints an `Endpoints` object lists on a node, read off the three loops.
* `gives_addEndpoint`, `gives_deleteEndpoint`: one turn of the loops that add and delete.
* `gives_addEndpoints`, `gives_deleteEndpoints`: what the two handlers do, and when they complete.
* `providers_handle`: what a notification does to `Providers`, whatever the listeners do.
* `handle_completes`: a notification about objects whose local addresses have a `TargetRef` is
  handled to the end.
-/

namespace Kubebpfbox.Endpoint2Pod

open Golang GoM Kubebpfbox.Core Informer

variable {σ : Type} {nodeName : GoString} {o : Endpoints}

/-! ### The endpoints an object lists -/

/-- Some subset of the object lists the address, on this node, and the port. -/
def Lists (nodeName : GoString) (o : Endpoints) (endpoint : Endpoint) : Prop :=
  ∃ subsets ∈ o.subsets, (∃ address ∈ subsets.addresses,
    address.nodeName = some nodeName ∧ address.ip = endpoint.ip) ∧
    ∃ port ∈ subsets.ports, port.port = endpoint.port

/-- The local addresses with their ports, in the order of the loops. -/
def locals (nodeName : GoString) (o : Endpoints) : List (EndpointAddress × EndpointPort) :=
  o.subsets.flatMap fun subsets => subsets.addresses.flatMap fun address =>
    if address.nodeName = some nodeName then subsets.ports.map (address, ·) else []

/-- The endpoint of an address and a port. -/
def endpointOf (x : EndpointAddress × EndpointPort) : Endpoint := ⟨x.1.ip, x.2.port⟩

/-- The endpoints the object lists, in the order of the loops. -/
def listing (nodeName : GoString) (o : Endpoints) : List Endpoint :=
  (locals nodeName o).map endpointOf

theorem mem_listing {endpoint : Endpoint} :
    endpoint ∈ listing nodeName o ↔ Lists nodeName o endpoint := by
  simp only [listing, locals, List.mem_map, List.mem_flatMap]
  constructor
  · rintro ⟨⟨a, p⟩, ⟨subsets, hsub, address, haddr, hx⟩, rfl⟩
    by_cases hn : address.nodeName = some nodeName
    · rw [if_pos hn, List.mem_map] at hx
      obtain ⟨port, hport, heq⟩ := hx
      cases heq
      exact ⟨subsets, hsub, ⟨a, haddr, hn, rfl⟩, p, hport, rfl⟩
    · rw [if_neg hn] at hx
      cases hx
  · rintro ⟨subsets, hsub, ⟨address, haddr, hn, hip⟩, port, hport, hp⟩
    refine ⟨(address, port), ⟨subsets, hsub, address, haddr, ?_⟩, ?_⟩
    · rw [if_pos hn]
      exact List.mem_map_of_mem hport
    · rw [endpointOf, hip, hp]

instance (o : Endpoints) (endpoint : Endpoint) : Decidable (Lists nodeName o endpoint) :=
  decidable_of_iff _ mem_listing

theorem rangeLocal_eq (o : Endpoints)
    (body : EndpointAddress → EndpointPort → GoM (World σ) PUnit) :
    rangeLocal o nodeName body = forM (locals nodeName o) fun x => body x.1 x.2 := by
  rw [rangeLocal, locals, forM_flatMap]
  congr 1
  funext subsets
  rw [forM_flatMap]
  congr 1
  funext address
  by_cases hn : address.nodeName = some nodeName
  · simp only [if_pos hn, List.forM_map]
  · simp only [if_neg hn, List.forM_nil]
    induction subsets.ports with
    | nil => rfl
    | cons port ports ih => rw [List.forM_cons, ih, pure_bind]

/-! ### One turn of the loops -/

theorem gives_addEndpoint {address : EndpointAddress} {port : EndpointPort}
    {w w' : World σ} :
    Gives (addEndpoint o nodeName address port) w ⟨⟩ w' ↔
      ∃ ref s, address.targetRef = some ref ∧
        Gives (forM w.endpoint2Pod.addEventHandlers fun handler =>
          discard (handler ⟨address.ip, port.port⟩ (providerOf o nodeName ref))) w.outer ⟨⟩ s ∧
        w' = { w.setProviders (w.providers.insert ⟨address.ip, port.port⟩
          (providerOf o nodeName ref)) with outer := s } := by
  simp only [addEndpoint, gives_bind, gives_deref, gives_modify, gives_get, World.listeners,
    gives_zoom]
  constructor
  · rintro ⟨ref, _, ⟨href, rfl⟩, _, _, rfl, _, _, ⟨rfl, rfl⟩, s, hs, rfl⟩
    exact ⟨ref, s, href, hs, rfl⟩
  · rintro ⟨ref, s, href, hs, rfl⟩
    exact ⟨ref, _, ⟨href, rfl⟩, ⟨⟩, _, rfl, _, _, ⟨rfl, rfl⟩, s, hs, rfl⟩

theorem gives_deleteEndpoint {address : EndpointAddress} {port : EndpointPort}
    {w w' : World σ} :
    Gives (deleteEndpoint o nodeName address port) w ⟨⟩ w' ↔
      ∃ s, Gives (forM w.endpoint2Pod.deleteEventHandlers fun handler => do
          let provider := providerOf o nodeName (← deref address.targetRef)
          discard (handler ⟨address.ip, port.port⟩ provider)) w.outer ⟨⟩ s ∧
        w' = { w.setProviders (w.providers.erase ⟨address.ip, port.port⟩) with outer := s } := by
  simp only [deleteEndpoint, gives_bind, gives_modify, gives_get, World.listeners, gives_zoom]
  constructor
  · rintro ⟨_, _, rfl, _, _, ⟨rfl, rfl⟩, s, hs, rfl⟩
    exact ⟨s, hs, rfl⟩
  · rintro ⟨s, hs, rfl⟩
    exact ⟨⟨⟩, _, rfl, _, _, ⟨rfl, rfl⟩, s, hs, rfl⟩

/-! ### The entries of an object -/

/-- The entries of some local addresses, in their order. -/
def entriesOf (nodeName : GoString) (o : Endpoints) (l : List (EndpointAddress × EndpointPort)) :
    List (Endpoint × Provider) :=
  l.filterMap fun x => x.1.targetRef.map fun ref => (endpointOf x, providerOf o nodeName ref)

theorem entriesOf_cons {x : EndpointAddress × EndpointPort} {ref : ObjectReference}
    (href : x.1.targetRef = some ref) (l : List (EndpointAddress × EndpointPort)) :
    entriesOf nodeName o (x :: l) =
      (endpointOf x, providerOf o nodeName ref) :: entriesOf nodeName o l := by
  unfold entriesOf
  rw [List.filterMap_cons, href, Option.map_some]

theorem entriesOf_append (l l' : List (EndpointAddress × EndpointPort)) :
    entriesOf nodeName o (l ++ l') = entriesOf nodeName o l ++ entriesOf nodeName o l' :=
  List.filterMap_append

/-- The entries `addEndpoints` assigns, in the order of the loops. -/
def entries (nodeName : GoString) (o : Endpoints) : List (Endpoint × Provider) :=
  entriesOf nodeName o (locals nodeName o)

/-- Every local address of the object has a `TargetRef`. -/
def HasTargetRefs (nodeName : GoString) (o : Endpoints) : Prop :=
  ∀ x ∈ locals nodeName o, x.1.targetRef.isSome

theorem keys_entriesOf {l : List (EndpointAddress × EndpointPort)}
    (h : ∀ x ∈ l, x.1.targetRef.isSome) :
    (entriesOf nodeName o l).map Prod.fst = l.map endpointOf := by
  induction l with
  | nil => rfl
  | cons x l ih =>
    obtain ⟨hsome, h⟩ := List.forall_mem_cons.mp h
    obtain ⟨ref, href⟩ := Option.isSome_iff_exists.mp hsome
    rw [entriesOf_cons href, List.map_cons, List.map_cons, ih h]

theorem keys_entries (h : HasTargetRefs nodeName o) :
    (entries nodeName o).map Prod.fst = listing nodeName o := keys_entriesOf h

/-! ### The calls of the listeners -/

/-- The calls of the listeners, for endpoints and their providers. -/
def calls (handlers : List (EventHandler σ)) (l : List (Endpoint × Provider)) : GoM σ PUnit :=
  forM l fun e => forM handlers fun handler => discard (handler e.1 e.2)

theorem gives_calls_nil {l : List (Endpoint × Provider)} {s s' : σ} :
    Gives (calls [] l) s ⟨⟩ s' ↔ s' = s := by
  unfold calls
  induction l with
  | nil => exact gives_forM_nil
  | cons e l ih =>
    rw [gives_forM_cons]
    simp only [gives_forM_nil, exists_eq_left]
    exact ih

theorem gives_calls_append {handlers : List (EventHandler σ)} {l l' : List (Endpoint × Provider)}
    {s s' : σ} : Gives (calls handlers (l ++ l')) s ⟨⟩ s' ↔
      ∃ t, Gives (calls handlers l) s ⟨⟩ t ∧ Gives (calls handlers l') t ⟨⟩ s' := by
  unfold calls
  rw [List.forM_append, gives_bind]
  exact ⟨fun ⟨_, t, hl, hl'⟩ => ⟨t, hl, hl'⟩, fun ⟨t, hl, hl'⟩ => ⟨⟨⟩, t, hl, hl'⟩⟩

/-- The calls of the listeners for a deletion. -/
def notifyDeleted (nodeName : GoString) (oldEndpoints : Endpoints)
    (handlers : List (EventHandler σ)) (x : EndpointAddress × EndpointPort) : GoM σ PUnit :=
  forM handlers fun handler => do
    let provider := providerOf oldEndpoints nodeName (← deref x.1.targetRef)
    discard (handler (endpointOf x) provider)

/-- The provider is made for each listener, so only a listener can find it missing. -/
theorem gives_notifyDeleted {handlers : List (EventHandler σ)} {x : EndpointAddress × EndpointPort}
    {s s' : σ} : Gives (notifyDeleted nodeName o handlers x) s ⟨⟩ s' ↔
      (handlers = [] ∨ x.1.targetRef.isSome) ∧
        Gives (calls handlers (entriesOf nodeName o [x])) s ⟨⟩ s' := by
  rcases href : x.1.targetRef with _ | ref
  · have hnone : entriesOf nodeName o [x] = [] := by
      rw [entriesOf, List.filterMap_cons, href]
      rfl
    rw [hnone, calls, gives_forM_nil]
    rcases handlers with _ | ⟨handler, handlers⟩
    · rw [notifyDeleted, gives_forM_nil, and_iff_right (Or.inl rfl)]
    · -- the first listener panics
      refine iff_of_false ?_ (by simp)
      rw [notifyDeleted, gives_forM_cons, href]
      rintro ⟨t, hfirst, -⟩
      obtain ⟨ref, _, hderef, -⟩ := gives_bind.mp hfirst
      cases (gives_deref.mp hderef).1
  · have hturn : notifyDeleted nodeName o handlers x = forM handlers fun handler =>
        discard (handler (endpointOf x) (providerOf o nodeName ref)) := by
      simp only [notifyDeleted, href, deref, pure_bind]
    rw [hturn, entriesOf_cons href, Option.isSome_some, and_iff_right (Or.inr rfl)]
    exact gives_forM_singleton.symm

theorem gives_forM_notifyDeleted {handlers : List (EventHandler σ)}
    {l : List (EndpointAddress × EndpointPort)} {s s' : σ} :
    Gives (forM l (notifyDeleted nodeName o handlers)) s ⟨⟩ s' ↔
      (handlers = [] ∨ ∀ x ∈ l, x.1.targetRef.isSome) ∧
        Gives (calls handlers (entriesOf nodeName o l)) s ⟨⟩ s' := by
  induction l generalizing s with
  | nil => exact (and_iff_right (Or.inr (List.forall_mem_nil _))).symm
  | cons x l ih =>
    have hcons : entriesOf nodeName o (x :: l) = entriesOf nodeName o [x] ++ entriesOf nodeName o l :=
      entriesOf_append [x] l
    rw [gives_forM_cons, hcons, gives_calls_append, List.forall_mem_cons, or_and_left]
    simp only [gives_notifyDeleted, ih]
    constructor
    · rintro ⟨t, ⟨hx, hfirst⟩, hl, hrest⟩
      exact ⟨⟨hx, hl⟩, t, hfirst, hrest⟩
    · rintro ⟨⟨hx, hl⟩, t, hfirst, hrest⟩
      exact ⟨t, ⟨hx, hfirst⟩, hl, hrest⟩

/-! ### The loops -/

theorem gives_forM_addEndpoint {l : List (EndpointAddress × EndpointPort)} {w w' : World σ} :
    Gives (forM l fun x => addEndpoint o nodeName x.1 x.2) w ⟨⟩ w' ↔
      (∀ x ∈ l, x.1.targetRef.isSome) ∧
      ∃ s, Gives (calls w.endpoint2Pod.addEventHandlers (entriesOf nodeName o l)) w.outer ⟨⟩ s ∧
        w' = { w.setProviders (w.providers.insertAll (entriesOf nodeName o l)) with outer := s } := by
  induction l generalizing w with
  | nil =>
    show _ ↔ _ ∧ ∃ s, Gives (forM [] _) w.outer ⟨⟩ s ∧ _
    simp only [gives_forM_nil, List.not_mem_nil, false_implies, implies_true, true_and,
      exists_eq_left]
    exact Iff.rfl
  | cons x l ih =>
    rw [gives_forM_cons]
    constructor
    · rintro ⟨t, hx, hrest⟩
      obtain ⟨ref, s, href, hs, rfl⟩ := gives_addEndpoint.mp hx
      obtain ⟨hall, s', hs', rfl⟩ := ih.mp hrest
      refine ⟨List.forall_mem_cons.mpr ⟨by rw [href]; rfl, hall⟩, s', ?_, ?_⟩
      · rw [entriesOf_cons href]
        exact gives_forM_cons.mpr ⟨s, hs, hs'⟩
      · rw [entriesOf_cons href]
        rfl
    · rintro ⟨hall, s', hs', hw'⟩
      obtain ⟨hsome, hall⟩ := List.forall_mem_cons.mp hall
      -- the first address has the `TargetRef` that `addEndpoint` reads
      obtain ⟨ref, href⟩ := Option.isSome_iff_exists.mp hsome
      rw [entriesOf_cons href] at hs' hw'
      obtain ⟨s, hs, hrest⟩ := gives_forM_cons.mp hs'
      refine ⟨_, gives_addEndpoint.mpr ⟨ref, s, href, hs, rfl⟩, ?_⟩
      exact ih.mpr ⟨hall, s', hrest, hw'⟩

/-- Deletes one after another are deletes from `Providers` and calls of the listeners. -/
theorem gives_forM_deleteEndpoint {l : List (EndpointAddress × EndpointPort)} {w w' : World σ} :
    Gives (forM l fun x => deleteEndpoint o nodeName x.1 x.2) w ⟨⟩ w' ↔
      ∃ s, Gives (forM l (notifyDeleted nodeName o w.endpoint2Pod.deleteEventHandlers)) w.outer
          ⟨⟩ s ∧
        w' = { w.setProviders (w.providers.eraseAll (l.map endpointOf)) with outer := s } := by
  induction l generalizing w with
  | nil =>
    rw [gives_forM_nil]
    simp only [gives_forM_nil, exists_eq_left]
    exact Iff.rfl
  | cons x l ih =>
    rw [gives_forM_cons]
    constructor
    · rintro ⟨t, hx, hrest⟩
      obtain ⟨s, hs, rfl⟩ := gives_deleteEndpoint.mp hx
      obtain ⟨s', hs', rfl⟩ := ih.mp hrest
      exact ⟨s', gives_forM_cons.mpr ⟨s, hs, hs'⟩, rfl⟩
    · rintro ⟨s', hall, rfl⟩
      obtain ⟨s, hs, hs'⟩ := gives_forM_cons.mp hall
      exact ⟨_, gives_deleteEndpoint.mpr ⟨s, hs, rfl⟩, ih.mpr ⟨s', hs', rfl⟩⟩

/-- The listeners run through for the entries of the object, and lead from `s` to `s'`. -/
def Told (nodeName : GoString) (o : Endpoints) (handlers : List (EventHandler σ)) (s s' : σ) :
    Prop := Gives (calls handlers (entries nodeName o)) s ⟨⟩ s'

section Loops

variable {w w' : World σ}

/-- **What `addEndpoints` does**, and when it completes. -/
theorem gives_addEndpoints : Gives (addEndpoints o nodeName) w ⟨⟩ w' ↔
    HasTargetRefs nodeName o ∧ ∃ s, Told nodeName o w.endpoint2Pod.addEventHandlers w.outer s ∧
      w' = { w.setProviders (w.providers.insertAll (entries nodeName o)) with outer := s } := by
  rw [addEndpoints, rangeLocal_eq]
  exact gives_forM_addEndpoint

/-- **What `deleteEndpoints` does**, and when it completes. -/
theorem gives_deleteEndpoints : Gives (deleteEndpoints o nodeName) w ⟨⟩ w' ↔
    (w.endpoint2Pod.deleteEventHandlers = [] ∨ HasTargetRefs nodeName o) ∧
    ∃ s, Told nodeName o w.endpoint2Pod.deleteEventHandlers w.outer s ∧
      w' = { w.setProviders (w.providers.eraseAll (listing nodeName o)) with outer := s } := by
  rw [deleteEndpoints, rangeLocal_eq, gives_forM_deleteEndpoint]
  simp only [gives_forM_notifyDeleted]
  constructor
  · rintro ⟨s, ⟨href, hs⟩, rfl⟩
    exact ⟨href, s, hs, rfl⟩
  · rintro ⟨href, s, hs, rfl⟩
    exact ⟨s, ⟨href, hs⟩, rfl⟩

/-- The listeners that are registered stay the same. -/
def SameHandlers (w w' : World σ) : Prop :=
  w'.endpoint2Pod.addEventHandlers = w.endpoint2Pod.addEventHandlers ∧
    w'.endpoint2Pod.deleteEventHandlers = w.endpoint2Pod.deleteEventHandlers

theorem SameHandlers.trans {w'' : World σ} (h : SameHandlers w w') (h' : SameHandlers w' w'') :
    SameHandlers w w'' := ⟨h'.1.trans h.1, h'.2.trans h.2⟩

theorem hasTargetRefs_of_gives (h : Gives (addEndpoints o nodeName) w ⟨⟩ w') :
    HasTargetRefs nodeName o := (gives_addEndpoints.mp h).1

theorem providers_addEndpoints (h : Gives (addEndpoints o nodeName) w ⟨⟩ w') :
    SameHandlers w w' ∧ w'.providers = w.providers.insertAll (entries nodeName o) := by
  obtain ⟨-, s, -, rfl⟩ := gives_addEndpoints.mp h
  exact ⟨⟨rfl, rfl⟩, rfl⟩

theorem providers_deleteEndpoints (h : Gives (deleteEndpoints o nodeName) w ⟨⟩ w') :
    SameHandlers w w' ∧ w'.providers = w.providers.eraseAll (listing nodeName o) := by
  obtain ⟨-, s, -, rfl⟩ := gives_deleteEndpoints.mp h
  exact ⟨⟨rfl, rfl⟩, rfl⟩

/-- What the listeners do to their state for one endpoint, they do for all that are listed. -/
theorem Told.eq_foldl {handlers : List (EventHandler σ)} {f : σ → Endpoint → σ} {s s' : σ}
    (hf : ∀ endpoint provider s s', Gives (forM handlers fun handler =>
      discard (handler endpoint provider)) s ⟨⟩ s' → s' = f s endpoint)
    (href : HasTargetRefs nodeName o) (h : Told nodeName o handlers s s') :
    s' = (listing nodeName o).foldl f s := by
  have hfold := Gives.forM_foldl (I := fun _ => True) (g := fun s : σ => s)
    (F := fun (s : σ) (e : Endpoint × Provider) => f s e.1) h trivial
    fun e _ t t' _ he => ⟨trivial, hf e.1 e.2 t t' he⟩
  rw [← keys_entries href, List.foldl_map]
  exact hfold.2

theorem outer_addEndpoints {f : σ → Endpoint → σ}
    (hf : ∀ endpoint provider s s', Gives (forM w.endpoint2Pod.addEventHandlers fun handler =>
      discard (handler endpoint provider)) s ⟨⟩ s' → s' = f s endpoint)
    (h : Gives (addEndpoints o nodeName) w ⟨⟩ w') :
    w'.outer = (listing nodeName o).foldl f w.outer := by
  obtain ⟨href, s, hs, rfl⟩ := gives_addEndpoints.mp h
  exact hs.eq_foldl hf href

theorem outer_deleteEndpoints {f : σ → Endpoint → σ}
    (hf : ∀ endpoint provider s s', Gives (forM w.endpoint2Pod.deleteEventHandlers fun handler =>
      discard (handler endpoint provider)) s ⟨⟩ s' → s' = f s endpoint)
    (h : Gives (deleteEndpoints o nodeName) w ⟨⟩ w') :
    w'.outer = (listing nodeName o).foldl f w.outer := by
  obtain ⟨hnil | href, s, hs, rfl⟩ := gives_deleteEndpoints.mp h
  · -- nobody listens, and `f` does nothing
    rw [hnil] at hf hs
    have hid : ∀ endpoint, f w.outer endpoint = w.outer := fun endpoint =>
      (hf endpoint ⟨[], [], [], []⟩ w.outer w.outer (gives_forM_nil.mpr rfl)).symm
    rw [List.foldl_fixed' hid]
    exact gives_calls_nil.mp hs
  · exact hs.eq_foldl hf href

end Loops

/-! ### Notifications -/

section Handle

variable {w w' : World σ}

theorem gives_handle_add : Gives (handle nodeName (.add o)) w ⟨⟩ w' ↔
    Gives (addEndpoints o nodeName) w ⟨⟩ w' := by
  show Gives (forM [addEndpoints] fun handler => handler o nodeName) w ⟨⟩ w' ↔ _
  rw [gives_forM_singleton]

theorem gives_handle_delete : Gives (handle nodeName (.delete o)) w ⟨⟩ w' ↔
    Gives (deleteEndpoints o nodeName) w ⟨⟩ w' := by
  show Gives (forM [deleteEndpoints] fun handler => handler o nodeName) w ⟨⟩ w' ↔ _
  rw [gives_forM_singleton]

/-- An update deletes the old object and then adds the new one. -/
theorem gives_updateEndpoints {o' : Endpoints} : Gives (updateEndpoints o o' nodeName) w ⟨⟩ w' ↔
    ∃ t, Gives (deleteEndpoints o nodeName) w ⟨⟩ t ∧ Gives (addEndpoints o' nodeName) t ⟨⟩ w' := by
  show Gives (deleteEndpoints o nodeName >>= fun _ => addEndpoints o' nodeName) w ⟨⟩ w' ↔ _
  rw [gives_bind]
  constructor
  · rintro ⟨_, t, hdel, hadd⟩
    exact ⟨t, hdel, hadd⟩
  · rintro ⟨t, hdel, hadd⟩
    exact ⟨⟨⟩, t, hdel, hadd⟩

theorem gives_handle_update {o' : Endpoints} : Gives (handle nodeName (.update o o')) w ⟨⟩ w' ↔
    ∃ t, Gives (deleteEndpoints o nodeName) w ⟨⟩ t ∧ Gives (addEndpoints o' nodeName) t ⟨⟩ w' := by
  show Gives (forM [updateEndpoints] fun handler => handler o o' nodeName) w ⟨⟩ w' ↔ _
  rw [gives_forM_singleton]
  exact gives_updateEndpoints

/-- What a notification does to `Providers`. -/
def effect (nodeName : GoString) : Event Endpoints → GoMap Endpoint Provider →
    GoMap Endpoint Provider
  | .add newObj, m => m.insertAll (entries nodeName newObj)
  | .update oldObj newObj, m =>
    (m.eraseAll (listing nodeName oldObj)).insertAll (entries nodeName newObj)
  | .delete oldObj, m => m.eraseAll (listing nodeName oldObj)

/-- **`Providers` after a notification**, whatever the listeners do. -/
theorem providers_handle {e : Event Endpoints} (h : Gives (handle nodeName e) w ⟨⟩ w') :
    SameHandlers w w' ∧ w'.providers = effect nodeName e w.providers := by
  cases e with
  | add o => exact providers_addEndpoints (gives_handle_add.mp h)
  | delete o => exact providers_deleteEndpoints (gives_handle_delete.mp h)
  | update o o' =>
    obtain ⟨t, hdel, hadd⟩ := gives_handle_update.mp h
    obtain ⟨hsame, hprov⟩ := providers_deleteEndpoints hdel
    obtain ⟨hsame', hprov'⟩ := providers_addEndpoints hadd
    rw [hprov] at hprov'
    exact ⟨hsame.trans hsame', hprov'⟩

/-- A listener that never panics. -/
def Completes (handler : EventHandler σ) : Prop :=
  ∀ endpoint provider s, ∃ r s', Gives (handler endpoint provider) s r s'

/-- Every listener that is registered completes. -/
def ListenersComplete (w : World σ) : Prop :=
  (∀ handler ∈ w.endpoint2Pod.addEventHandlers, Completes handler) ∧
    ∀ handler ∈ w.endpoint2Pod.deleteEventHandlers, Completes handler

theorem listeners_complete {handlers : List (EventHandler σ)}
    (h : ∀ handler ∈ handlers, Completes handler) (endpoint : Endpoint) (provider : Provider)
    (s : σ) : ∃ s', Gives (forM handlers fun handler =>
      discard (handler endpoint provider)) s ⟨⟩ s' := by
  have hstep : ∀ handler ∈ handlers, ∀ t : σ, True →
      ∃ t', Gives (discard (handler endpoint provider)) t ⟨⟩ t' ∧ True := by
    intro handler hmem t _
    obtain ⟨r, t', ht'⟩ := h handler hmem endpoint provider t
    exact ⟨t', gives_discard.mpr ⟨r, ht'⟩, trivial⟩
  obtain ⟨s', hs', -⟩ := forM_completes (s := s) trivial hstep
  exact ⟨s', hs'⟩

/-- They run through, whatever they are told. -/
theorem calls_complete {handlers : List (EventHandler σ)}
    (h : ∀ handler ∈ handlers, Completes handler) (l : List (Endpoint × Provider)) (s : σ) :
    ∃ s', Gives (calls handlers l) s ⟨⟩ s' := by
  have hstep : ∀ e ∈ l, ∀ t : σ, True →
      ∃ t', Gives (forM handlers fun handler => discard (handler e.1 e.2)) t ⟨⟩ t' ∧ True := by
    intro e _ t _
    obtain ⟨t', ht'⟩ := listeners_complete h e.1 e.2 t
    exact ⟨t', ht', trivial⟩
  obtain ⟨s', hs', -⟩ := forM_completes (s := s) trivial hstep
  exact ⟨s', hs'⟩

theorem addEndpoints_completes (href : HasTargetRefs nodeName o) (h : ListenersComplete w) :
    ∃ w', Gives (addEndpoints o nodeName) w ⟨⟩ w' ∧ ListenersComplete w' := by
  obtain ⟨s, hs⟩ := calls_complete h.1 (entries nodeName o) w.outer
  exact ⟨_, gives_addEndpoints.mpr ⟨href, s, hs, rfl⟩, h⟩

theorem deleteEndpoints_completes (href : HasTargetRefs nodeName o) (h : ListenersComplete w) :
    ∃ w', Gives (deleteEndpoints o nodeName) w ⟨⟩ w' ∧ ListenersComplete w' := by
  obtain ⟨s, hs⟩ := calls_complete h.2 (entries nodeName o) w.outer
  exact ⟨_, gives_deleteEndpoints.mpr ⟨Or.inr href, s, hs, rfl⟩, h⟩

/-- The objects of a notification. -/
def objects : Event Endpoints → List Endpoints
  | .add newObj => [newObj]
  | .update oldObj newObj => [oldObj, newObj]
  | .delete oldObj => [oldObj]

/-- **A notification is handled to the end** when every local address in it has a `TargetRef`. -/
theorem handle_completes {e : Event Endpoints}
    (href : ∀ o ∈ objects e, HasTargetRefs nodeName o) (h : ListenersComplete w) :
    ∃ w', Gives (handle nodeName e) w ⟨⟩ w' ∧ ListenersComplete w' := by
  cases e with
  | add o =>
    obtain ⟨w', hw', hc⟩ := addEndpoints_completes (href o (List.mem_singleton.mpr rfl)) h
    exact ⟨w', gives_handle_add.mpr hw', hc⟩
  | delete o =>
    obtain ⟨w', hw', hc⟩ := deleteEndpoints_completes (href o (List.mem_singleton.mpr rfl)) h
    exact ⟨w', gives_handle_delete.mpr hw', hc⟩
  | update o o' =>
    obtain ⟨t, ht, hc⟩ := deleteEndpoints_completes (href o (by simp [objects])) h
    obtain ⟨w', hw', hc'⟩ := addEndpoints_completes (href o' (by simp [objects])) hc
    exact ⟨w', gives_handle_update.mpr ⟨t, ht, hw'⟩, hc'⟩

end Handle

end Kubebpfbox.Endpoint2Pod
