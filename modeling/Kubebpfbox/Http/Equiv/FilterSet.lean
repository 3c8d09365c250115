import Kubebpfbox.Endpoint2Pod.Equiv.Providers
import Kubebpfbox.Http.Ebpf

/-!
# The filter set and the provider index

`AddFilterIP` and `DeleteFilterIP` listen to the provider index and keep `filter_ip` up to date.
The index is keyed by address and port, the filter by address alone, so deleting one port of an
address untracks the others.

* `filterFollows_handle_iff`: with room in the map, a notification keeps the filter in step exactly
  when no address it deletes is left behind a port that it does not delete (`KeepsAddresses`).
* `filterFollows_iff`: the same over whole sequences of notifications.
-/

namespace Kubebpfbox.Http

open Golang GoM Kubebpfbox.Core Informer Endpoint2Pod

variable {κ : Type} [DecidableEq κ] {f : GoString → κ} {nodeName : GoString}

section Listeners

variable {endpoint : Endpoint} {provider : Provider} {m m' : FilterSet κ} {r : Option GoString}

theorem gives_addFilterIP
    (h : Gives (addFilterIP (fun s => .ok (f s)) endpoint provider) m r m') :
    m' = m.put (f endpoint.ip) 1 := by
  simp only [addFilterIP, eval, pure_bind, gives_bind, gives_get] at h
  obtain ⟨t, t', ⟨ht, ht'⟩, hm⟩ := h
  rw [ht, ht'] at hm
  cases hup : m.update (f endpoint.ip) 1 with
  | none =>
    rw [hup] at hm
    rw [(gives_pure.mp hm).2, Bpf.HashMap.put, hup, Option.getD_none]
  | some m₁ =>
    rw [hup] at hm
    obtain ⟨_, t₁, hset, hpure⟩ := gives_bind.mp hm
    rw [(gives_pure.mp hpure).2, gives_set.mp hset, Bpf.HashMap.put, hup, Option.getD_some]

theorem gives_deleteFilterIP
    (h : Gives (deleteFilterIP (fun s => .ok (f s)) endpoint provider) m r m') :
    m' = m.remove (f endpoint.ip) := by
  simp only [deleteFilterIP, eval, pure_bind, gives_bind, gives_get] at h
  obtain ⟨t, t', ⟨ht, ht'⟩, hm⟩ := h
  rw [ht, ht'] at hm
  cases hdel : m.delete (f endpoint.ip) with
  | none =>
    rw [hdel] at hm
    rw [(gives_pure.mp hm).2, Bpf.HashMap.remove, hdel, Option.getD_none]
  | some m₁ =>
    rw [hdel] at hm
    obtain ⟨_, t₁, hset, hpure⟩ := gives_bind.mp hm
    rw [(gives_pure.mp hpure).2, gives_set.mp hset, Bpf.HashMap.remove, hdel, Option.getD_some]

theorem addFilterIP_completes :
    Completes (σ := FilterSet κ) (addFilterIP fun s => .ok (f s)) := by
  intro endpoint provider m
  simp only [addFilterIP, eval, pure_bind, gives_bind, gives_get]
  cases hup : m.update (f endpoint.ip) 1 with
  | none =>
    refine ⟨some (ascii "add filter ip map failed"), m, m, m, ⟨rfl, rfl⟩, ?_⟩
    rw [hup]
    exact gives_pure.mpr ⟨rfl, rfl⟩
  | some m₁ =>
    refine ⟨none, m₁, m, m, ⟨rfl, rfl⟩, ?_⟩
    rw [hup]
    exact gives_bind.mpr ⟨⟨⟩, m₁, gives_set.mpr rfl, gives_pure.mpr ⟨rfl, rfl⟩⟩

theorem deleteFilterIP_completes :
    Completes (σ := FilterSet κ) (deleteFilterIP fun s => .ok (f s)) := by
  intro endpoint provider m
  simp only [deleteFilterIP, eval, pure_bind, gives_bind, gives_get]
  cases hdel : m.delete (f endpoint.ip) with
  | none =>
    refine ⟨some (ascii "delete filter ip map failed"), m, m, m, ⟨rfl, rfl⟩, ?_⟩
    rw [hdel]
    exact gives_pure.mpr ⟨rfl, rfl⟩
  | some m₁ =>
    refine ⟨none, m₁, m, m, ⟨rfl, rfl⟩, ?_⟩
    rw [hdel]
    exact gives_bind.mpr ⟨⟨⟩, m₁, gives_set.mpr rfl, gives_pure.mpr ⟨rfl, rfl⟩⟩

end Listeners

/-- The two handlers are the only listeners of the index. -/
def Registered (f : GoString → κ) (w : World (FilterSet κ)) : Prop :=
  w.endpoint2Pod.addEventHandlers = [addFilterIP fun s => .ok (f s)] ∧
    w.endpoint2Pod.deleteEventHandlers = [deleteFilterIP fun s => .ok (f s)]

/-- The keys of the addresses an object lists, in the order of the loops. -/
def listingKeys (f : GoString → κ) (nodeName : GoString) (o : Endpoints) : List κ :=
  (listing nodeName o).map fun endpoint => f endpoint.ip

/-- What a notification does to `filter_ip`. -/
def filterEffect (f : GoString → κ) (nodeName : GoString) : Event Endpoints → FilterSet κ →
    FilterSet κ
  | .add newObj, m => m.putAll (listingKeys f nodeName newObj) 1
  | .update oldObj newObj, m =>
    (m.removeAll (listingKeys f nodeName oldObj)).putAll (listingKeys f nodeName newObj) 1
  | .delete oldObj, m => m.removeAll (listingKeys f nodeName oldObj)

section Handle

variable {w w' : World (FilterSet κ)} {o : Endpoints}

theorem registered_of_sameHandlers (h : SameHandlers w w') (hreg : Registered f w) :
    Registered f w' := ⟨h.1.trans hreg.1, h.2.trans hreg.2⟩

theorem outer_addEndpoints_filter (hreg : Registered f w)
    (h : Gives (addEndpoints o nodeName) w ⟨⟩ w') :
    w'.outer = w.outer.putAll (listingKeys f nodeName o) 1 := by
  rw [Bpf.HashMap.putAll, listingKeys, List.foldl_map]
  refine outer_addEndpoints (fun endpoint provider s s' hs => ?_) h
  rw [hreg.1, gives_forM_cons] at hs
  obtain ⟨t, ht, hnil⟩ := hs
  obtain ⟨r, hr⟩ := gives_discard.mp ht
  rw [gives_forM_nil.mp hnil]
  exact gives_addFilterIP hr

theorem outer_deleteEndpoints_filter (hreg : Registered f w)
    (h : Gives (deleteEndpoints o nodeName) w ⟨⟩ w') :
    w'.outer = w.outer.removeAll (listingKeys f nodeName o) := by
  rw [Bpf.HashMap.removeAll, listingKeys, List.foldl_map]
  refine outer_deleteEndpoints (fun endpoint provider s s' hs => ?_) h
  rw [hreg.2, gives_forM_cons] at hs
  obtain ⟨t, ht, hnil⟩ := hs
  obtain ⟨r, hr⟩ := gives_discard.mp ht
  rw [gives_forM_nil.mp hnil]
  exact gives_deleteFilterIP hr

/-- **`filter_ip` after a notification.** -/
theorem outer_handle {e : Event Endpoints} (hreg : Registered f w)
    (h : Gives (handle nodeName e) w ⟨⟩ w') : w'.outer = filterEffect f nodeName e w.outer := by
  cases e with
  | add o => exact outer_addEndpoints_filter hreg (gives_handle_add.mp h)
  | delete o => exact outer_deleteEndpoints_filter hreg (gives_handle_delete.mp h)
  | update o o' =>
    obtain ⟨t, hdel, hadd⟩ := gives_handle_update.mp h
    have hreg' : Registered f t :=
      registered_of_sameHandlers (providers_deleteEndpoints hdel).1 hreg
    rw [outer_addEndpoints_filter hreg' hadd, outer_deleteEndpoints_filter hreg hdel]
    rfl

end Handle

/-! ### Keeping in step -/

/-- The addresses of the endpoints in the index. -/
def addresses (m : GoMap Endpoint Provider) : Finset GoString := m.keys.image Endpoint.ip

theorem mem_addresses {m : GoMap Endpoint Provider} {ip : GoString} :
    ip ∈ addresses m ↔ ∃ port, (⟨ip, port⟩ : Endpoint) ∈ m := by
  rw [addresses, Finset.mem_image]
  constructor
  · rintro ⟨endpoint, hmem, rfl⟩
    exact ⟨endpoint.port, Finmap.mem_keys.mp hmem⟩
  · rintro ⟨port, hmem⟩
    exact ⟨_, Finmap.mem_keys.mpr hmem, rfl⟩

/-- The filter follows the index: it holds the key of an address exactly when the index holds an
endpoint with the address. -/
def FilterFollows (f : GoString → κ) (w : World (FilterSet κ)) : Prop :=
  ∀ ip, f ip ∈ w.outer ↔ ∃ port, (⟨ip, port⟩ : Endpoint) ∈ w.providers

/-- The filter holds keys of addresses only. -/
def OnlyAddresses (f : GoString → κ) (m : FilterSet κ) : Prop := ∀ k ∈ m, ∃ ip, k = f ip

/-- The object lists the address, with some port. -/
def ListsAddress (nodeName : GoString) (o : Endpoints) (ip : GoString) : Prop :=
  ∃ port, Lists nodeName o ⟨ip, port⟩

omit [DecidableEq κ] in
theorem mem_listingKeys (hf : Function.Injective f) {o : Endpoints} {ip : GoString} :
    f ip ∈ listingKeys f nodeName o ↔ ListsAddress nodeName o ip := by
  rw [listingKeys, List.mem_map]
  constructor
  · rintro ⟨endpoint, hmem, heq⟩
    cases hf heq
    exact ⟨endpoint.port, mem_listing.mp hmem⟩
  · rintro ⟨port, hl⟩
    exact ⟨_, mem_listing.mpr hl, rfl⟩

/-- An address that the notification deletes and does not add again is left with no endpoint: its
object listed all the endpoints the index holds for it. -/
def KeepsAddresses (nodeName : GoString) (m : GoMap Endpoint Provider) (e : Event Endpoints) :
    Prop :=
  ∀ ip, (∃ o, e.Ends o ∧ ListsAddress nodeName o ip) →
    (¬ ∃ o, e.Begins o ∧ ListsAddress nodeName o ip) →
    ∀ port, (⟨ip, port⟩ : Endpoint) ∈ m → ∃ o, e.Ends o ∧ Lists nodeName o ⟨ip, port⟩

theorem mem_filterEffect {e : Event Endpoints} {m : FilterSet κ} {T : Finset κ}
    (hT : T.card ≤ maxMapFilterIp)
    (hm : ∀ k ∈ m, (¬ ∃ o, e.Ends o ∧ k ∈ listingKeys f nodeName o) → k ∈ T)
    (hb : ∀ o, e.Begins o → ∀ k ∈ listingKeys f nodeName o, k ∈ T) {k : κ} :
    k ∈ filterEffect f nodeName e m ↔ (∃ o, e.Begins o ∧ k ∈ listingKeys f nodeName o) ∨
      (k ∈ m ∧ ¬ ∃ o, e.Ends o ∧ k ∈ listingKeys f nodeName o) := by
  cases e with
  | add o =>
    have hkeys : m.keys ⊆ T := fun k hk => hm k (Bpf.HashMap.mem_keys.mp hk) (by simp [Event.Ends])
    rw [filterEffect, Bpf.HashMap.mem_putAll hT hkeys (hb o rfl)]
    simp [Event.Begins, Event.Ends, or_comm]
  | update o o' =>
    have hkeys : (m.removeAll (listingKeys f nodeName o)).keys ⊆ T := by
      intro k hk
      rw [Bpf.HashMap.mem_keys, Bpf.HashMap.mem_removeAll] at hk
      refine hm k hk.1 ?_
      rintro ⟨_, rfl, hlist⟩
      exact hk.2 hlist
    rw [filterEffect, Bpf.HashMap.mem_putAll hT hkeys (hb o' rfl), Bpf.HashMap.mem_removeAll]
    simp [Event.Begins, Event.Ends, or_comm]
  | delete o =>
    rw [filterEffect, Bpf.HashMap.mem_removeAll]
    simp [Event.Begins, Event.Ends]

theorem onlyAddresses_filterEffect {e : Event Endpoints} {m : FilterSet κ}
    (h : OnlyAddresses f m) : OnlyAddresses f (filterEffect f nodeName e m) := by
  have hlist : ∀ o, ∀ k ∈ listingKeys f nodeName o, ∃ ip, k = f ip := by
    intro o k hk
    obtain ⟨endpoint, -, rfl⟩ := List.mem_map.mp hk
    exact ⟨endpoint.ip, rfl⟩
  intro k hk
  cases e with
  | add o => exact (Bpf.HashMap.mem_of_mem_putAll hk).elim (h k) (hlist o k)
  | update o o' =>
    refine (Bpf.HashMap.mem_of_mem_putAll hk).elim (fun hrem => ?_) (hlist o' k)
    exact h k (Bpf.HashMap.mem_removeAll.mp hrem).1
  | delete o => exact h k (Bpf.HashMap.mem_removeAll.mp hk).1

/-- The addresses in the filter after a notification, when there is room for all the tracked ones. -/
theorem mem_outer_handle (hf : Function.Injective f) {e : Event Endpoints}
    {w w' : World (FilterSet κ)} (hreg : Registered f w) (honly : OnlyAddresses f w.outer)
    (hg : Gives (handle nodeName e) w ⟨⟩ w')
    (hcap : (addresses w'.providers).card ≤ maxMapFilterIp) (h : FilterFollows f w)
    (ip : GoString) :
    f ip ∈ w'.outer ↔ (∃ o, e.Begins o ∧ ListsAddress nodeName o ip) ∨
      (f ip ∈ w.outer ∧ ¬ ∃ o, e.Ends o ∧ ListsAddress nodeName o ip) := by
  have hmem := mem_providers_handle hg
  simp only [← mem_listingKeys hf]
  rw [outer_handle hreg hg]
  -- the keys of the addresses that are tracked afterwards bound the filter all the way
  refine mem_filterEffect (T := (addresses w'.providers).image f)
    (Finset.card_image_le.trans hcap) ?_ ?_
  · intro k hk hends
    obtain ⟨ip, rfl⟩ := honly k hk
    obtain ⟨port, hport⟩ := (h ip).mp hk
    refine Finset.mem_image_of_mem f (mem_addresses.mpr ⟨port, (hmem _).mpr (Or.inr ⟨hport, ?_⟩)⟩)
    rintro ⟨o, ho, hl⟩
    exact hends ⟨o, ho, (mem_listingKeys hf).mpr ⟨port, hl⟩⟩
  · intro o ho k hk
    obtain ⟨endpoint, hl, rfl⟩ := List.mem_map.mp hk
    refine Finset.mem_image_of_mem f (mem_addresses.mpr ⟨endpoint.port, (hmem _).mpr ?_⟩)
    exact Or.inl ⟨o, ho, mem_listing.mp hl⟩

/-- **One notification** keeps the filter in step exactly when it keeps the addresses. -/
theorem filterFollows_handle_iff (hf : Function.Injective f) {e : Event Endpoints}
    {w w' : World (FilterSet κ)} (hreg : Registered f w) (honly : OnlyAddresses f w.outer)
    (hg : Gives (handle nodeName e) w ⟨⟩ w')
    (hcap : (addresses w'.providers).card ≤ maxMapFilterIp) (h : FilterFollows f w) :
    FilterFollows f w' ↔ KeepsAddresses nodeName w.providers e := by
  have hmem := mem_providers_handle hg
  have hfilter := mem_outer_handle hf hreg honly hg hcap h
  constructor
  · intro h' ip hends hbegins port hport
    by_contra hother
    -- another port of the address is still tracked
    have hstill : f ip ∈ w'.outer :=
      (h' ip).mpr ⟨port, (hmem _).mpr (Or.inr ⟨hport, hother⟩)⟩
    rcases (hfilter ip).mp hstill with hbegun | ⟨-, hkept⟩
    · exact hbegins hbegun
    · exact hkept hends
  · intro hkeep ip
    rw [hfilter]
    constructor
    · rintro (⟨o, ho, port, hl⟩ | ⟨hold, hkept⟩)
      · exact ⟨port, (hmem _).mpr (Or.inl ⟨o, ho, hl⟩)⟩
      · obtain ⟨port, hport⟩ := (h ip).mp hold
        refine ⟨port, (hmem _).mpr (Or.inr ⟨hport, ?_⟩)⟩
        rintro ⟨o, ho, hl⟩
        exact hkept ⟨o, ho, port, hl⟩
    · rintro ⟨port, hport⟩
      by_cases hbegun : ∃ o, e.Begins o ∧ ListsAddress nodeName o ip
      · exact Or.inl hbegun
      · rcases (hmem _).mp hport with ⟨o, ho, hl⟩ | ⟨hold, hkept⟩
        · exact absurd ⟨o, ho, port, hl⟩ hbegun
        · refine Or.inr ⟨(h ip).mpr ⟨port, hold⟩, fun hends => ?_⟩
          exact hkept (hkeep ip hends hbegun port hold)

/-- The index with the two handlers registered, before the first notification. -/
def registeredWorld (f : GoString → κ) : World (FilterSet κ) :=
  ⟨registry (fun s => .ok (f s)) {}, ∅⟩

theorem fresh_registeredWorld : Fresh (registeredWorld f) := rfl

theorem registered_registeredWorld : Registered f (registeredWorld f) := ⟨rfl, rfl⟩

omit [DecidableEq κ] in
theorem onlyAddresses_empty : OnlyAddresses f (∅ : FilterSet κ) :=
  fun k hk => absurd hk (Bpf.HashMap.not_mem_empty k)

theorem filterFollows_registeredWorld : FilterFollows f (registeredWorld f) := by
  intro ip
  refine iff_of_false (Bpf.HashMap.not_mem_empty _) ?_
  rintro ⟨port, hmem⟩
  exact Finmap.notMem_empty hmem

/-- What does not depend on the notifications keeping the addresses. -/
theorem registered_reachesAt {events : List (Event Endpoints)} {n : ℕ}
    {w w' : World (FilterSet κ)} (h : ReachesAt (handle nodeName) events w n w')
    (hreg : Registered f w) (honly : OnlyAddresses f w.outer) :
    Registered f w' ∧ OnlyAddresses f w'.outer := by
  refine h.invariant (I := fun t => Registered f t ∧ OnlyAddresses f t.outer) ⟨hreg, honly⟩ ?_
  intro e _ t t' ht hg
  refine ⟨registered_of_sameHandlers (providers_handle hg).1 ht.1, ?_⟩
  rw [outer_handle ht.1 hg]
  exact onlyAddresses_filterEffect ht.2

/-- **The filter follows the index** in every state of a run exactly when every notification of the
run keeps the addresses. -/
theorem filterFollows_iff (hf : Function.Injective f) {events : List (Event Endpoints)}
    (hcap : ∀ n w, ReachesAt (handle nodeName) events (registeredWorld f) n w →
      (addresses w.providers).card ≤ maxMapFilterIp) :
    (∀ n w, ReachesAt (handle nodeName) events (registeredWorld f) n w → FilterFollows f w) ↔
      ∀ n e w w', events[n]? = some e → ReachesAt (handle nodeName) events (registeredWorld f) n w →
        Gives (handle nodeName e) w ⟨⟩ w' → KeepsAddresses nodeName w.providers e := by
  refine forall_reachesAt_iff (P := fun _ w => FilterFollows f w)
    (C := fun _ w e => KeepsAddresses nodeName w.providers e) filterFollows_registeredWorld ?_
  intro n e w w' he hw hlast hfollows
  obtain ⟨hreg, honly⟩ := registered_reachesAt hw registered_registeredWorld onlyAddresses_empty
  have hw' := (reachesAt_succ he).mpr ⟨w, hw, hlast⟩
  exact filterFollows_handle_iff hf hreg honly hlast (hcap (n + 1) w' hw') hfollows

theorem listenersComplete_registeredWorld : ListenersComplete (registeredWorld f) := by
  constructor
  · intro handler hmem
    rw [List.mem_singleton.mp hmem]
    exact addFilterIP_completes
  · intro handler hmem
    rw [List.mem_singleton.mp hmem]
    exact deleteFilterIP_completes

/-! ### Two ports of one address -/

/-- The notifications are about services over one pod, so there is one address at most. -/
theorem card_addresses_le_one {events : List (Event Endpoints)} {n : ℕ}
    {w : World (FilterSet GoString)}
    (hev : ∀ e ∈ events, ∀ o, e.Begins o → ∃ name port, o = service name port)
    (h : ReachesAt (handle node) events (registeredWorld id) n w) :
    (addresses w.providers).card ≤ 1 := by
  have hsub : addresses w.providers ⊆ {ascii "10.0.0.2"} := by
    intro ip hip
    obtain ⟨port, hmem⟩ := mem_addresses.mp hip
    obtain ⟨e, he, o, ho, hl⟩ := listed_of_mem_providers fresh_registeredWorld h hmem
    obtain ⟨name, port', rfl⟩ := hev e he o ho
    rw [Finset.mem_singleton]
    exact congrArg Endpoint.ip (lists_service_iff.mp hl)
  exact (Finset.card_le_card hsub).trans_eq (Finset.card_singleton _)

theorem filterFollows_iff_of_oneService :
    (∃ w, ReachesAt (handle node) oneService (registeredWorld id) 2 w) ∧
    ∀ n w, ReachesAt (handle node) oneService (registeredWorld id) n w → FilterFollows id w := by
  refine ⟨exists_reachesAt hasTargetRefs_oneService listenersComplete_registeredWorld 2, ?_⟩
  have hev : ∀ e ∈ oneService, ∀ o, e.Begins o → ∃ name port, o = service name port := by
    intro e he o ho
    simp only [oneService, List.mem_cons, List.not_mem_nil, or_false] at he
    rcases he with rfl | rfl
    · exact ⟨_, _, ho⟩
    · cases ho
  refine (filterFollows_iff Function.injective_id fun n w h =>
    (card_addresses_le_one hev h).trans (by decide)).mpr ?_
  intro n e w w' he hw _ ip hends _ port hport
  obtain ⟨e₀, he₀, o₀, ho₀, hl₀⟩ := listed_of_mem_providers fresh_registeredWorld hw hport
  obtain ⟨name, port', rfl⟩ := hev e₀ he₀ o₀ ho₀
  have hmem := List.mem_of_getElem? he
  simp only [oneService, List.mem_cons, List.not_mem_nil, or_false] at hmem he₀
  rcases hmem with rfl | rfl
  · obtain ⟨_, hfalse, -⟩ := hends
    cases hfalse
  · -- the only endpoint there ever was is the one of the object that is deleted
    refine ⟨_, rfl, ?_⟩
    rcases he₀ with rfl | rfl
    · cases ho₀
      exact hl₀
    · cases ho₀

/-- A service on port 80 and one on port 90 of a pod come, and the first goes. -/
def twoPorts : List (Event Endpoints) :=
  [.add (service (ascii "web") 80), .add (service (ascii "metrics") 90),
    .delete (service (ascii "web") 80)]

/-- When one of two ports of an address goes, the address is not tracked any more. -/
theorem not_filterFollows_twoPorts :
    (∀ n w, ReachesAt (handle node) twoPorts (registeredWorld id) n w →
      (addresses w.providers).card ≤ maxMapFilterIp) ∧
    ∃ w, ReachesAt (handle node) twoPorts (registeredWorld id) 3 w ∧
      (⟨ascii "10.0.0.2", 90⟩ : Endpoint) ∈ w.providers ∧ ascii "10.0.0.2" ∉ w.outer ∧
      ¬ FilterFollows id w := by
  have hmem : ∀ e ∈ twoPorts, ∀ o ∈ objects e, ∃ name port, o = service name port := by
    intro e he o ho
    simp only [twoPorts, List.mem_cons, List.not_mem_nil, or_false] at he
    rcases he with rfl | rfl | rfl <;> exact ⟨_, _, List.mem_singleton.mp ho⟩
  have hev : ∀ e ∈ twoPorts, ∀ o, e.Begins o → ∃ name port, o = service name port := by
    intro e he o ho
    simp only [twoPorts, List.mem_cons, List.not_mem_nil, or_false] at he
    rcases he with rfl | rfl | rfl
    · exact ⟨_, _, ho⟩
    · exact ⟨_, _, ho⟩
    · cases ho
  refine ⟨fun n w h => (card_addresses_le_one hev h).trans (by decide), ?_⟩
  have href : ∀ e ∈ twoPorts, ∀ o ∈ objects e, HasTargetRefs node o := by
    intro e he o ho
    obtain ⟨name, port, rfl⟩ := hmem e he o ho
    exact hasTargetRefs_service name port
  obtain ⟨w, hw⟩ : ∃ w, ReachesAt (handle node) twoPorts (registeredWorld id) 3 w :=
    exists_reachesAt href listenersComplete_registeredWorld 3
  obtain ⟨t, ht, hlast⟩ := (reachesAt_succ (show twoPorts[2]? = some _ from rfl)).mp hw
  obtain ⟨s, hs, hsecond⟩ := (reachesAt_succ (show twoPorts[1]? = some _ from rfl)).mp ht
  have hreg : Registered id t :=
    (registered_reachesAt ht registered_registeredWorld onlyAddresses_empty).1
  -- the second service still lists the address with its own port
  have hkept : (⟨ascii "10.0.0.2", 90⟩ : Endpoint) ∈ w.providers := by
    have hadded : (⟨ascii "10.0.0.2", 90⟩ : Endpoint) ∈ t.providers := by
      rw [mem_providers_handle hsecond]
      exact Or.inl ⟨_, rfl, lists_service_iff.mpr rfl⟩
    rw [mem_providers_handle hlast]
    refine Or.inr ⟨hadded, ?_⟩
    rintro ⟨o, rfl, hl⟩
    have hport : (90 : Int32) = 80 := congrArg Endpoint.port (lists_service_iff.mp hl)
    exact absurd hport (by decide)
  -- the deletion of the first one takes the address out of the filter
  have hgone : ascii "10.0.0.2" ∉ w.outer := by
    rw [outer_handle hreg hlast, filterEffect, Bpf.HashMap.mem_removeAll]
    rintro ⟨-, hnot⟩
    exact hnot ((mem_listingKeys Function.injective_id).mpr ⟨80, lists_service_iff.mpr rfl⟩)
  exact ⟨w, hw, hkept, hgone, fun h => hgone ((h _).mpr ⟨90, hkept⟩)⟩

end Kubebpfbox.Http
