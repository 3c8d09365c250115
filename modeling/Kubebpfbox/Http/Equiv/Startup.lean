import Kubebpfbox.Http.Equiv.FilterSet
import Kubebpfbox.Http.Startup

/-!
# Endpoint notifications during start-up

`Start` copies the addresses of the index and registers its handlers in two steps.  A notification
that is handled in between reaches the index but not `filter_ip`.

* `Runs.exists_schedule`: every run in which `Start` has registered its handlers has the form
  `schedule pre order window post`, with the notifications of `window` in between the two steps.
* `filterExact_schedule_iff`: if every endpoint has its own address, the filter is exact in every
  state from the registration on exactly when the notifications of `window` leave the tracked
  addresses as they were, and there is room for all of them.
-/

namespace Kubebpfbox.Http

open Golang GoM Kubebpfbox.Core Informer Endpoint2Pod

variable {κ : Type} [DecidableEq κ] {f : GoString → κ} {nodeName : GoString}

/-! ### Schedules -/

/-- The notifications `pre`, then `WriteFilterIP`, then the notifications `window`, then `Registry`,
then the notifications `post`. -/
def schedule (pre : List (Event Endpoints)) (order : List Endpoint)
    (window post : List (Event Endpoints)) : List Action :=
  pre.map .event ++ [.writeFilterIP order] ++ window.map .event ++ [.registry] ++ post.map .event

section Runs

variable {filterKey : GoString → Except Panic κ} {acts : List Action} {a b : Agent κ}

theorem runs_concat_iff {act : Action} : Runs filterKey nodeName (acts ++ [act]) b ↔
    ∃ a, Runs filterKey nodeName acts a ∧ Step filterKey nodeName a act b := by
  constructor
  · intro h
    generalize heq : acts ++ [act] = l at h
    cases h with
    | nil => simp at heq
    | concat h hstep =>
      obtain ⟨rfl, hlast⟩ := List.append_inj' heq rfl
      cases hlast
      exact ⟨_, h, hstep⟩
  · rintro ⟨a, h, hstep⟩
    exact h.concat hstep

/-- A step of a party ends in one state only. -/
theorem Step.unique {act : Action} {b' : Agent κ} (h : Step filterKey nodeName a act b)
    (h' : Step filterKey nodeName a act b') : b = b' := by
  cases h with
  | event hg =>
    cases h' with
    | event hg' => rw [(hg.unique hg').2]
  | writeFilterIP _ _ hg =>
    cases h' with
    | writeFilterIP _ _ hg' =>
      obtain ⟨hr, hm⟩ := hg.unique hg'
      rw [hr, hm]
  | registry _ =>
    cases h' with
    | registry _ => rfl

theorem Runs.unique {b' : Agent κ} (h : Runs filterKey nodeName acts b)
    (h' : Runs filterKey nodeName acts b') : b = b' := by
  induction h generalizing b' with
  | nil =>
    generalize heq : ([] : List Action) = l at h'
    cases h' with
    | nil => rfl
    | concat _ _ => simp at heq
  | concat _ hstep ih =>
    obtain ⟨a', ha', hstep'⟩ := runs_concat_iff.mp h'
    rw [ih ha'] at hstep
    exact hstep.unique hstep'

/-- Notifications run the handlers and leave `Start` where it is. -/
theorem runs_append_events_iff {events : List (Event Endpoints)} :
    Runs filterKey nodeName (acts ++ events.map .event) b ↔
      ∃ a w, Runs filterKey nodeName acts a ∧
        Gives (forM events (handle nodeName)) a.world ⟨⟩ w ∧ b = ⟨w, a.start⟩ := by
  induction events using List.reverseRecOn generalizing b with
  | nil =>
    rw [List.map_nil, List.append_nil]
    constructor
    · intro h
      exact ⟨b, b.world, h, gives_forM_nil.mpr rfl, rfl⟩
    · rintro ⟨a, w, h, hnil, rfl⟩
      rw [gives_forM_nil.mp hnil]
      exact h
  | append_singleton events e ih =>
    rw [List.map_append, List.map_singleton, ← List.append_assoc, runs_concat_iff]
    constructor
    · rintro ⟨_, hprev, hstep⟩
      obtain ⟨a, w, h, hw, rfl⟩ := ih.mp hprev
      cases hstep with
      | event hg => exact ⟨a, _, h, gives_forM_concat.mpr ⟨w, hw, hg⟩, rfl⟩
    · rintro ⟨a, w, h, hw, rfl⟩
      obtain ⟨t, ht, hg⟩ := gives_forM_concat.mp hw
      exact ⟨_, ih.mpr ⟨a, t, h, ht, rfl⟩, .event hg⟩

/-- Every run comes from `Start` having done none, one or both of its steps. -/
theorem Runs.shape (h : Runs filterKey nodeName acts a) :
    (a.start = .begun → ∃ pre : List (Event Endpoints), acts = pre.map .event) ∧
    (a.start = .written → ∃ (pre : List (Event Endpoints)) (order : List Endpoint)
      (window : List (Event Endpoints)),
      acts = pre.map .event ++ [.writeFilterIP order] ++ window.map .event) ∧
    (a.start = .registered → ∃ pre order window post, acts = schedule pre order window post) := by
  induction h with
  | nil =>
    refine ⟨fun _ => ⟨[], rfl⟩, fun hs => ?_, fun hs => ?_⟩ <;> cases hs
  | concat _ hstep ih =>
    cases hstep with
    | @event e w _ =>
      -- an event joins the last group of the stage it comes in
      refine ⟨fun hs => ?_, fun hs => ?_, fun hs => ?_⟩
      · obtain ⟨pre, rfl⟩ := ih.1 hs
        exact ⟨pre ++ [e], by simp⟩
      · obtain ⟨pre, order, window, rfl⟩ := ih.2.1 hs
        exact ⟨pre, order, window ++ [e], by simp⟩
      · obtain ⟨pre, order, window, post, rfl⟩ := ih.2.2 hs
        exact ⟨pre, order, window, post ++ [e], by simp [schedule]⟩
    | @writeFilterIP order r m hstart _ _ =>
      obtain ⟨pre, rfl⟩ := ih.1 hstart
      refine ⟨fun hs => ?_, fun _ => ⟨pre, order, [], by simp⟩, fun hs => ?_⟩
      · cases r <;> cases hs
      · cases r <;> cases hs
    | registry hstart =>
      obtain ⟨pre, order, window, rfl⟩ := ih.2.1 hstart
      refine ⟨fun hs => ?_, fun hs => ?_, fun _ => ⟨pre, order, window, [], by simp [schedule]⟩⟩
      · cases hs
      · cases hs

theorem Runs.exists_schedule (h : Runs filterKey nodeName acts a) (hs : a.start = .registered) :
    ∃ pre order window post, acts = schedule pre order window post := h.shape.2.2 hs

end Runs

/-! ### The tracked addresses -/

/-- The addresses an object lists. -/
def listedAddresses (nodeName : GoString) (o : Endpoints) : Finset GoString :=
  ((listing nodeName o).map Endpoint.ip).toFinset

/-- The tracked addresses after a notification. -/
def track (nodeName : GoString) (s : Finset GoString) : Event Endpoints → Finset GoString
  | .add newObj => s ∪ listedAddresses nodeName newObj
  | .update oldObj newObj =>
    (s \ listedAddresses nodeName oldObj) ∪ listedAddresses nodeName newObj
  | .delete oldObj => s \ listedAddresses nodeName oldObj

/-- The addresses that notifications leave tracked: the last one that lists the address adds it. -/
def tracked (nodeName : GoString) (events : List (Event Endpoints)) : Finset GoString :=
  events.foldl (track nodeName) ∅

theorem tracked_append (events events' : List (Event Endpoints)) :
    tracked nodeName (events ++ events') = events'.foldl (track nodeName) (tracked nodeName events) :=
  List.foldl_append

theorem mem_listedAddresses {o : Endpoints} {ip : GoString} :
    ip ∈ listedAddresses nodeName o ↔ ListsAddress nodeName o ip := by
  rw [listedAddresses, List.mem_toFinset, List.mem_map]
  constructor
  · rintro ⟨endpoint, hmem, rfl⟩
    exact ⟨endpoint.port, mem_listing.mp hmem⟩
  · rintro ⟨port, hl⟩
    exact ⟨_, mem_listing.mpr hl, rfl⟩

theorem mem_track {s : Finset GoString} {e : Event Endpoints} {ip : GoString} :
    ip ∈ track nodeName s e ↔ (∃ o, e.Begins o ∧ ListsAddress nodeName o ip) ∨
      (ip ∈ s ∧ ¬ ∃ o, e.Ends o ∧ ListsAddress nodeName o ip) := by
  cases e <;>
    simp [track, Event.Begins, Event.Ends, mem_listedAddresses, or_comm]

/-- An object of one of the notifications lists the endpoint. -/
def Listed (nodeName : GoString) (events : List (Event Endpoints)) (endpoint : Endpoint) : Prop :=
  ∃ e ∈ events, ∃ o ∈ objects e, Lists nodeName o endpoint

/-- Every endpoint has an address of its own. -/
def OwnAddresses (nodeName : GoString) (events : List (Event Endpoints)) : Prop :=
  ∀ ip port port', Listed nodeName events ⟨ip, port⟩ → Listed nodeName events ⟨ip, port'⟩ →
    port = port'

theorem mem_objects_of_begins {e : Event Endpoints} {o : Endpoints} (h : e.Begins o) :
    o ∈ objects e := by
  cases e with
  | add _ => exact List.mem_singleton.mpr h
  | update _ _ => exact List.mem_cons_of_mem _ (List.mem_singleton.mpr h)
  | delete _ => cases h

theorem mem_objects_of_ends {e : Event Endpoints} {o : Endpoints} (h : e.Ends o) :
    o ∈ objects e := by
  cases e with
  | add _ => cases h
  | update _ _ =>
    rw [show o = _ from h]
    exact List.mem_cons_self ..
  | delete _ => exact List.mem_singleton.mpr h

section Segment

variable {σ : Type} {events segment : List (Event Endpoints)}
  (hown : OwnAddresses nodeName events) (hsub : ∀ e ∈ segment, e ∈ events) {w w' : World σ}
  (hl : ∀ endpoint ∈ w.providers, Listed nodeName events endpoint)
include hown hsub hl

/-- A port an object lists for an address is the one the index holds. -/
theorem eq_port_of_ends {e : Event Endpoints} (he : e ∈ segment) {o : Endpoints} (ho : e.Ends o)
    {ip : GoString} {port port' : Int32} (hlist : Lists nodeName o ⟨ip, port⟩)
    (hmem : (⟨ip, port'⟩ : Endpoint) ∈ w.providers) : port = port' :=
  hown ip port port' ⟨e, hsub e he, o, mem_objects_of_ends ho, hlist⟩ (hl _ hmem)

theorem keepsAddresses_of_own {e : Event Endpoints} (he : e ∈ segment) :
    KeepsAddresses nodeName w.providers e := by
  rintro ip ⟨o, ho, port', hlist⟩ - port hmem
  refine ⟨o, ho, ?_⟩
  rw [← eq_port_of_ends hown hsub hl he ho hlist hmem]
  exact hlist

theorem addresses_handle {e : Event Endpoints} (he : e ∈ segment)
    (h : Gives (handle nodeName e) w ⟨⟩ w') :
    (∀ endpoint ∈ w'.providers, Listed nodeName events endpoint) ∧
      addresses w'.providers = track nodeName (addresses w.providers) e := by
  have hmem : ∀ endpoint, endpoint ∈ w'.providers ↔
      (∃ o, e.Begins o ∧ Lists nodeName o endpoint) ∨
        (endpoint ∈ w.providers ∧ ¬ ∃ o, e.Ends o ∧ Lists nodeName o endpoint) := by
    intro endpoint
    rw [(providers_handle h).2]
    exact mem_effect (hasTargetRefs_of_begins h)
  refine ⟨fun endpoint hin => ?_, ?_⟩
  · rcases (hmem endpoint).mp hin with ⟨o, ho, hlist⟩ | ⟨hold, -⟩
    · exact ⟨e, hsub e he, o, mem_objects_of_begins ho, hlist⟩
    · exact hl endpoint hold
  · ext ip
    rw [mem_track, mem_addresses, mem_addresses]
    constructor
    · rintro ⟨port, hin⟩
      rcases (hmem _).mp hin with ⟨o, ho, hlist⟩ | ⟨hold, hkept⟩
      · exact Or.inl ⟨o, ho, port, hlist⟩
      · refine Or.inr ⟨⟨port, hold⟩, ?_⟩
        rintro ⟨o, ho, port', hlist⟩
        -- an address has one port, so this endpoint is the one that ends
        rw [eq_port_of_ends hown hsub hl he ho hlist hold] at hlist
        exact hkept ⟨o, ho, hlist⟩
    · rintro (⟨o, ho, port, hlist⟩ | ⟨⟨port, hold⟩, hkept⟩)
      · exact ⟨port, (hmem _).mpr (Or.inl ⟨o, ho, hlist⟩)⟩
      · refine ⟨port, (hmem _).mpr (Or.inr ⟨hold, ?_⟩)⟩
        rintro ⟨o, ho, hlist⟩
        exact hkept ⟨o, ho, port, hlist⟩

/-- **The addresses of the index** are the tracked ones, in every segment of a run. -/
theorem addresses_forM (h : Gives (forM segment (handle nodeName)) w ⟨⟩ w') :
    (∀ endpoint ∈ w'.providers, Listed nodeName events endpoint) ∧
      addresses w'.providers = segment.foldl (track nodeName) (addresses w.providers) :=
  h.forM_foldl (I := fun t => ∀ endpoint ∈ t.providers, Listed nodeName events endpoint)
    (g := fun t => addresses t.providers) hl
    fun _ he _ _ ht hg => addresses_handle hown hsub ht he hg

end Segment

/-! ### The two steps of `Start` -/

/-- What `WriteFilterIP` wrote when it returned no error. -/
theorem mem_of_writeFilterIP {order : List Endpoint} {m m' : FilterSet κ} {r : Option GoString}
    (h : Gives (writeFilterIP (fun s => .ok (f s)) order) m r m') (hr : r.isNone) {k : κ} :
    k ∈ m' ↔ k ∈ m ∨ ∃ endpoint ∈ order, k = f endpoint.ip := by
  induction order generalizing m with
  | nil =>
    rw [writeFilterIP] at h
    rw [(gives_pure.mp h).2]
    simp
  | cons endpoint order ih =>
    simp only [writeFilterIP, eval, pure_bind, gives_bind, gives_get] at h
    obtain ⟨t, t', ⟨ht, ht'⟩, hm⟩ := h
    rw [ht, ht'] at hm
    by_cases hroom : m.HasRoom (f endpoint.ip)
    · rw [Bpf.HashMap.update_eq_some_put hroom] at hm
      obtain ⟨_, t₁, hset, hrest⟩ := gives_bind.mp hm
      rw [gives_set.mp hset] at hrest
      rw [ih hrest, Bpf.HashMap.mem_put hroom, List.exists_mem_cons_iff]
      tauto
    · -- the loop stops with an error
      rw [Bpf.HashMap.update_eq_none.mpr hroom] at hm
      rw [(gives_pure.mp hm).1] at hr
      cases hr

section Untouched

variable {σ : Type} {m : σ} {w w' : World σ}

/-- No listener is registered, and the listeners' state is `m`. -/
def Untouched (m : σ) (w : World σ) : Prop :=
  w.endpoint2Pod.addEventHandlers = [] ∧ w.endpoint2Pod.deleteEventHandlers = [] ∧ w.outer = m

theorem untouched_addEndpoints {o : Endpoints} (h : Untouched m w)
    (hg : Gives (addEndpoints o nodeName) w ⟨⟩ w') : Untouched m w' := by
  obtain ⟨hsame, hsame'⟩ := (providers_addEndpoints hg).1
  refine ⟨hsame.trans h.1, hsame'.trans h.2.1, ?_⟩
  have hfold := outer_addEndpoints (f := fun s _ => s) (fun endpoint provider s s' hs => ?_) hg
  · rw [hfold, ← h.2.2]
    exact List.foldl_fixed _
  · rw [h.1] at hs
    exact gives_forM_nil.mp hs

theorem untouched_deleteEndpoints {o : Endpoints} (h : Untouched m w)
    (hg : Gives (deleteEndpoints o nodeName) w ⟨⟩ w') : Untouched m w' := by
  obtain ⟨hsame, hsame'⟩ := (providers_deleteEndpoints hg).1
  refine ⟨hsame.trans h.1, hsame'.trans h.2.1, ?_⟩
  have hfold := outer_deleteEndpoints (f := fun s _ => s) (fun endpoint provider s s' hs => ?_) hg
  · rw [hfold, ← h.2.2]
    exact List.foldl_fixed _
  · rw [h.2.1] at hs
    exact gives_forM_nil.mp hs

/-- Without listeners no notification reaches their state. -/
theorem untouched_handle {e : Event Endpoints} (h : Untouched m w)
    (hg : Gives (handle nodeName e) w ⟨⟩ w') : Untouched m w' := by
  cases e with
  | add o => exact untouched_addEndpoints h (gives_handle_add.mp hg)
  | delete o => exact untouched_deleteEndpoints h (gives_handle_delete.mp hg)
  | update o o' =>
    obtain ⟨t, hd, ha⟩ := gives_handle_update.mp hg
    exact untouched_addEndpoints (untouched_deleteEndpoints h hd) ha

theorem untouched_forM {events : List (Event Endpoints)} (h : Untouched m w)
    (hg : Gives (forM events (handle nodeName)) w ⟨⟩ w') : Untouched m w' := by
  have hfold := hg.forM_foldl (I := Untouched m) (g := fun _ => ()) (F := fun _ _ => ()) h
    fun e _ t t' ht hg => ⟨untouched_handle ht hg, rfl⟩
  exact hfold.1

end Untouched

/-! ### Exactness from the registration on -/

/-- `filter_ip` holds exactly the keys of the addresses in the index. -/
def FilterExact (f : GoString → κ) (w : World (FilterSet κ)) : Prop :=
  w.outer.keys = (addresses w.providers).image f

theorem filterExact_iff (hf : Function.Injective f) {w : World (FilterSet κ)}
    (h : OnlyAddresses f w.outer) : FilterExact f w ↔ FilterFollows f w := by
  constructor
  · intro hex ip
    rw [← Bpf.HashMap.mem_keys, hex, Finset.mem_image, ← mem_addresses]
    constructor
    · rintro ⟨ip', hip', heq⟩
      rw [← hf heq]
      exact hip'
    · intro hip
      exact ⟨ip, hip, rfl⟩
  · intro hfollows
    ext k
    rw [Bpf.HashMap.mem_keys, Finset.mem_image]
    constructor
    · intro hk
      obtain ⟨ip, rfl⟩ := h k hk
      exact ⟨ip, mem_addresses.mpr ((hfollows ip).mp hk), rfl⟩
    · rintro ⟨ip, hip, rfl⟩
      exact (hfollows ip).mpr (mem_addresses.mp hip)

/-- An empty filter is filled with the keys of the addresses in the index. -/
theorem keys_of_writeFilterIP {w : World (FilterSet κ)} {order : List Endpoint}
    {r : Option GoString} {m : FilterSet κ} (hempty : w.outer = ∅)
    (horder : w.providers.IsRange order)
    (h : Gives (writeFilterIP (fun s => .ok (f s)) order) w.outer r m) (hr : r.isNone) :
    m.keys = (addresses w.providers).image f := by
  ext k
  rw [Bpf.HashMap.mem_keys, mem_of_writeFilterIP h hr, Finset.mem_image]
  constructor
  · rintro (hold | ⟨endpoint, hmem, rfl⟩)
    · rw [hempty] at hold
      exact absurd hold (Bpf.HashMap.not_mem_empty k)
    · exact ⟨endpoint.ip, mem_addresses.mpr ⟨endpoint.port, horder.mem_iff.mp hmem⟩, rfl⟩
  · rintro ⟨ip, hip, rfl⟩
    obtain ⟨port, hmem⟩ := mem_addresses.mp hip
    exact Or.inr ⟨_, horder.mem_iff.mpr hmem, rfl⟩

section Schedule

variable {pre window post : List (Event Endpoints)} {order : List Endpoint}
  (hown : OwnAddresses nodeName (pre ++ window ++ post))
include hown

/-- The state right after the registration: the filter holds what was tracked before the copy, the
index what is tracked now. -/
theorem state_of_registry {a : Agent κ}
    (h : Runs (fun s => .ok (f s)) nodeName (schedule pre order window []) a) :
    a.start = .registered ∧ Registered f a.world ∧
      a.world.outer.keys = (tracked nodeName pre).image f ∧
      addresses a.world.providers = tracked nodeName (pre ++ window) ∧
      ∀ endpoint ∈ a.world.providers, Listed nodeName (pre ++ window ++ post) endpoint := by
  -- the steps of the schedule, from the last one back
  rw [schedule, List.map_nil, List.append_nil, runs_concat_iff] at h
  obtain ⟨_, h₃, hreg⟩ := h
  obtain ⟨_, w₂, h₂, hw₂, rfl⟩ := runs_append_events_iff.mp h₃
  obtain ⟨_, h₁, hwrite⟩ := runs_concat_iff.mp h₂
  rw [← List.nil_append (List.map _ pre)] at h₁
  obtain ⟨_, w₁, h₀, hw₁, rfl⟩ := runs_append_events_iff.mp h₁
  rw [h₀.unique .nil] at hw₁ hwrite
  cases hwrite with
  | @writeFilterIP _ r m hstart horder hgives =>
    cases hreg with
    | registry hwritten =>
      have hr : r.isNone := by
        by_contra hr
        rw [if_neg hr] at hwritten
        cases hwritten
      have hfresh : ∀ endpoint ∈ (Agent.initial : Agent κ).world.providers,
          Listed nodeName (pre ++ window ++ post) endpoint := fun _ hmem =>
        absurd hmem Finmap.notMem_empty
      obtain ⟨hl₁, haddr₁⟩ := addresses_forM hown (fun e he => by simp [he]) hfresh hw₁
      obtain ⟨hl₂, haddr₂⟩ := addresses_forM hown (fun e he => by simp [he])
        (w := ⟨w₁.endpoint2Pod, m⟩) hl₁ hw₂
      have hunt₁ : Untouched ∅ w₁ := untouched_forM ⟨rfl, rfl, rfl⟩ hw₁
      have hunt₂ : Untouched m w₂ :=
        untouched_forM (w := ⟨w₁.endpoint2Pod, m⟩) ⟨hunt₁.1, hunt₁.2.1, rfl⟩ hw₂
      have htracked₁ : addresses w₁.providers = tracked nodeName pre := haddr₁
      refine ⟨rfl, ⟨?_, ?_⟩, ?_, ?_, hl₂⟩
      · change w₂.endpoint2Pod.addEventHandlers ++ _ = _
        rw [hunt₂.1, List.nil_append]
      · change w₂.endpoint2Pod.deleteEventHandlers ++ _ = _
        rw [hunt₂.2.1, List.nil_append]
      · change w₂.outer.keys = _
        rw [hunt₂.2.2, ← htracked₁]
        exact keys_of_writeFilterIP (w := w₁) hunt₁.2.2 horder hgives hr
      · change addresses w₂.providers = _
        rw [haddr₂, tracked_append]
        exact congrArg (window.foldl (track nodeName)) haddr₁

/-- The addresses of the index after some of the later notifications. -/
theorem addresses_of_post {a b : Agent κ} {n : ℕ}
    (ha : Runs (fun s => .ok (f s)) nodeName (schedule pre order window []) a)
    (hb : ReachesAt (handle nodeName) post a.world n b.world) :
    addresses b.world.providers = tracked nodeName (pre ++ window ++ post.take n) := by
  obtain ⟨-, -, -, haddr, hl⟩ := state_of_registry hown ha
  have hsub : ∀ e ∈ post.take n, e ∈ pre ++ window ++ post := fun e he =>
    List.mem_append_right _ (List.mem_of_mem_take he)
  have hpost := addresses_forM hown hsub hl hb
  rw [hpost.2, haddr, ← tracked_append]

omit hown in
/-- The states from the registration on are those the later notifications reach. -/
theorem runs_schedule_iff {a b : Agent κ} {l : List (Event Endpoints)}
    (ha : Runs (fun s => .ok (f s)) nodeName (schedule pre order window []) a) :
    Runs (fun s => .ok (f s)) nodeName (schedule pre order window l) b ↔
      Gives (forM l (handle nodeName)) a.world ⟨⟩ b.world ∧ b.start = a.start := by
  have hsplit : schedule pre order window l = schedule pre order window [] ++ l.map .event := by
    simp [schedule]
  rw [hsplit, runs_append_events_iff]
  constructor
  · rintro ⟨a₁, w', ha₁, hw', rfl⟩
    rw [ha₁.unique ha] at hw' ⊢
    exact ⟨hw', rfl⟩
  · rintro ⟨hb, hs⟩
    exact ⟨a, b.world, ha, hb, by rw [← hs]⟩

/-- At the registration the filter is exact when the window has changed nothing. -/
theorem filterExact_registry_iff (hf : Function.Injective f) {a : Agent κ}
    (ha : Runs (fun s => .ok (f s)) nodeName (schedule pre order window []) a) :
    FilterExact f a.world ↔ tracked nodeName (pre ++ window) = tracked nodeName pre := by
  obtain ⟨-, -, hkeys, haddr, -⟩ := state_of_registry hown ha
  rw [FilterExact, hkeys, haddr, (Finset.image_injective hf).eq_iff]
  exact eq_comm

/-- From the registration on the handlers stay registered, and the filter holds keys of addresses
only. -/
theorem registered_of_post {a : Agent κ} {n : ℕ} {t : World (FilterSet κ)}
    (ha : Runs (fun s => .ok (f s)) nodeName (schedule pre order window []) a)
    (ht : ReachesAt (handle nodeName) post a.world n t) :
    Registered f t ∧ OnlyAddresses f t.outer := by
  obtain ⟨-, hreg, hkeys, -⟩ := state_of_registry hown ha
  apply registered_reachesAt ht hreg
  intro k hk
  rw [← Bpf.HashMap.mem_keys, hkeys, Finset.mem_image] at hk
  obtain ⟨ip, -, rfl⟩ := hk
  exact ⟨ip, rfl⟩

/-- No later notification takes an address away from an endpoint it does not list. -/
theorem keepsAddresses_of_post {a : Agent κ} {n : ℕ} {t : World (FilterSet κ)}
    {e : Event Endpoints}
    (ha : Runs (fun s => .ok (f s)) nodeName (schedule pre order window []) a)
    (ht : ReachesAt (handle nodeName) post a.world n t) (he : post[n]? = some e) :
    KeepsAddresses nodeName t.providers e := by
  obtain ⟨-, -, -, -, hl⟩ := state_of_registry hown ha
  have hsub : ∀ e ∈ post, e ∈ pre ++ window ++ post := fun e he => List.mem_append_right _ he
  have hlisted := (addresses_forM hown (fun e he => hsub e (List.mem_of_mem_take he)) hl ht).1
  exact keepsAddresses_of_own hown hsub hlisted (List.mem_of_getElem? he)

/-- **Start-up loses no notification** exactly when those handled between `WriteFilterIP` and
`Registry` leave the tracked addresses as they were, and there is room for all the addresses ever
tracked afterwards. -/
theorem filterExact_schedule_iff (hf : Function.Injective f) {a : Agent κ}
    (h : Runs (fun s => .ok (f s)) nodeName (schedule pre order window post) a) :
    (∀ n b, Runs (fun s => .ok (f s)) nodeName (schedule pre order window (post.take n)) b →
        FilterExact f b.world) ↔
      tracked nodeName (pre ++ window) = tracked nodeName pre ∧
        ∀ n, (tracked nodeName (pre ++ window ++ post.take n)).card ≤ maxMapFilterIp := by
  have hsplit : schedule pre order window post =
      schedule pre order window [] ++ post.map .event := by
    simp [schedule]
  rw [hsplit] at h
  obtain ⟨a₀, w, ha₀, hw, -⟩ := runs_append_events_iff.mp h
  have hcard : ∀ n b, ReachesAt (handle nodeName) post a₀.world n b →
      addresses b.providers = tracked nodeName (pre ++ window ++ post.take n) := fun n b hb =>
    addresses_of_post hown ha₀ (b := ⟨b, a₀.start⟩) hb
  rw [← filterExact_registry_iff hown hf ha₀]
  constructor
  · intro hexact
    refine ⟨hexact 0 a₀ ((runs_schedule_iff ha₀).mpr ⟨reachesAt_zero.mpr rfl, rfl⟩), fun n => ?_⟩
    obtain ⟨t, ht⟩ := hw.exists_reachesAt n
    have hex : FilterExact f t := hexact n ⟨t, a₀.start⟩ ((runs_schedule_iff ha₀).mpr ⟨ht, rfl⟩)
    -- the map holds one key for each tracked address, and never more than it has room for
    calc (tracked nodeName (pre ++ window ++ post.take n)).card
        = ((addresses t.providers).image f).card := by
          rw [← hcard n t ht, Finset.card_image_of_injective _ hf]
      _ = t.outer.keys.card := by rw [← hex]
      _ ≤ maxMapFilterIp := t.outer.size_le
  · rintro ⟨hbase, hroom⟩ n b hb
    have hreach := ((runs_schedule_iff ha₀).mp hb).1
    have hinv : ∀ n t, ReachesAt (handle nodeName) post a₀.world n t →
        Registered f t ∧ OnlyAddresses f t.outer := fun n t ht => registered_of_post hown ha₀ ht
    rw [filterExact_iff hf (hinv n b.world hreach).2]
    -- from one event to the next the map stays exact because it has room
    refine (forall_reachesAt_iff (P := fun _ w => FilterFollows f w)
      (C := fun _ w e => KeepsAddresses nodeName w.providers e)
      ((filterExact_iff hf (hinv 0 _ (reachesAt_zero.mpr rfl)).2).mp hbase) ?_).mpr ?_
      n b.world hreach
    · intro n e t t' he ht hlast hfollows
      have ht' := (reachesAt_succ he).mpr ⟨t, ht, hlast⟩
      refine filterFollows_handle_iff hf (hinv n t ht).1 (hinv n t ht).2 hlast ?_ hfollows
      rw [hcard (n + 1) t' ht']
      exact hroom (n + 1)
    · intro n e t t' he ht _
      exact keepsAddresses_of_post hown ha₀ ht he

end Schedule

/-! ### A notification before the copy and one after it -/

/-- `Start` finds an empty index, and a service comes between its two steps, or afterwards. -/
theorem exists_runs_schedule (window post : List (Event Endpoints))
    (href : ∀ e ∈ window ++ post, ∀ o ∈ objects e, HasTargetRefs node o) :
    ∃ a : Agent GoString, Runs (fun s => .ok (id s)) node (schedule [] [] window post) a := by
  have hwrite : Runs (κ := GoString) (fun s => .ok (id s)) node [.writeFilterIP []]
      ⟨⟨{}, ∅⟩, .written⟩ := by
    have hempty : Gives (writeFilterIP (fun s => .ok (id s)) []) (∅ : FilterSet GoString) none ∅ :=
      gives_pure.mpr ⟨rfl, rfl⟩
    have horder : (Agent.initial : Agent GoString).world.providers.IsRange [] := by decide
    exact Runs.nil.concat (.writeFilterIP rfl horder hempty)
  have hnone : ListenersComplete (⟨{}, ∅⟩ : World (FilterSet GoString)) := by
    constructor <;> intro handler hmem <;> cases hmem
  have hrefWindow : ∀ e ∈ window, ∀ o ∈ objects e, HasTargetRefs node o := fun e he =>
    href e (List.mem_append_left _ he)
  have hrefPost : ∀ e ∈ post, ∀ o ∈ objects e, HasTargetRefs node o := fun e he =>
    href e (List.mem_append_right _ he)
  -- before the registry nobody listens, so the window runs through
  obtain ⟨w, hw, -⟩ := forM_handle_completes hrefWindow hnone
  have hwindow : Runs (fun s => .ok (id s)) node ([.writeFilterIP []] ++ window.map .event)
      (⟨w, .written⟩ : Agent GoString) :=
    runs_append_events_iff.mpr ⟨_, w, hwrite, hw, rfl⟩
  have hreg := hwindow.concat (.registry rfl)
  have hunt : Untouched (∅ : FilterSet GoString) w := untouched_forM ⟨rfl, rfl, rfl⟩ hw
  -- the registry adds the two listeners, and both complete
  have hlisten : ListenersComplete (⟨registry (fun s => .ok (id s)) w.endpoint2Pod, w.outer⟩ :
      World (FilterSet GoString)) := by
    constructor
    · intro handler hmem
      rw [registry, hunt.1, List.nil_append] at hmem
      rw [List.mem_singleton.mp hmem]
      exact addFilterIP_completes
    · intro handler hmem
      rw [registry, hunt.2.1, List.nil_append] at hmem
      rw [List.mem_singleton.mp hmem]
      exact deleteFilterIP_completes
  obtain ⟨w', hw', -⟩ := forM_handle_completes hrefPost hlisten
  exact ⟨_, runs_append_events_iff.mpr ⟨_, w', hreg, hw', rfl⟩⟩

/-- The notification that a service has come. -/
def serviceComes : Event Endpoints := .add (service (ascii "web") 80)

theorem hasTargetRefs_serviceComes {events : List (Event Endpoints)}
    (h : ∀ e ∈ events, e = serviceComes) :
    ∀ e ∈ events, ∀ o ∈ objects e, HasTargetRefs node o := by
  intro e he o ho
  rw [h e he] at ho
  rw [List.mem_singleton.mp ho]
  exact hasTargetRefs_service _ _

theorem ownAddresses_serviceComes {events : List (Event Endpoints)}
    (h : ∀ e ∈ events, e = serviceComes) : OwnAddresses node events := by
  have hport : ∀ ip port, Listed node events ⟨ip, port⟩ → port = 80 := by
    rintro ip port ⟨e, he, o, ho, hl⟩
    rw [h e he] at ho
    rw [List.mem_singleton.mp ho] at hl
    exact congrArg Endpoint.port (lists_service_iff.mp hl)
  intro ip port port' hl hl'
  rw [hport ip port hl, hport ip port' hl']

theorem tracked_serviceComes : tracked node [serviceComes] = {ascii "10.0.0.2"} := by
  have hlisted : listedAddresses node (service (ascii "web") 80) = {ascii "10.0.0.2"} := by
    ext ip
    rw [mem_listedAddresses, Finset.mem_singleton]
    constructor
    · rintro ⟨port, hl⟩
      exact congrArg Endpoint.ip (lists_service_iff.mp hl)
    · rintro rfl
      exact ⟨80, lists_service_iff.mpr rfl⟩
  change ∅ ∪ listedAddresses node (service (ascii "web") 80) = _
  rw [hlisted, Finset.empty_union]

theorem filterExact_schedule_iff_of_late_service :
    (∃ a, Runs (fun s => .ok (id s)) node (schedule [] [] [] [serviceComes]) a) ∧
    ∀ n b, Runs (fun s => .ok (id s)) node (schedule [] [] [] ([serviceComes].take n)) b →
      FilterExact id b.world := by
  have hall : ∀ e ∈ [] ++ [] ++ [serviceComes], e = serviceComes := by simp
  obtain ⟨a, ha⟩ := exists_runs_schedule [] [serviceComes]
    (hasTargetRefs_serviceComes (by simp))
  refine ⟨⟨a, ha⟩, (filterExact_schedule_iff (ownAddresses_serviceComes hall)
    Function.injective_id ha).mpr ⟨rfl, fun n => ?_⟩⟩
  cases n with
  | zero => exact Nat.zero_le _
  | succ n =>
    rw [List.take_succ_cons, List.take_nil]
    change (tracked node [serviceComes]).card ≤ maxMapFilterIp
    rw [tracked_serviceComes, Finset.card_singleton]
    decide

/-- A service that comes between the copy and the registration is never tracked. -/
theorem not_filterExact_of_service_in_window :
    OwnAddresses node [serviceComes] ∧
    ∃ a, Runs (fun s => .ok (id s)) node (schedule [] [] [serviceComes] []) a ∧
      a.start = .registered ∧ ascii "10.0.0.2" ∈ addresses a.world.providers ∧
      ascii "10.0.0.2" ∉ a.world.outer ∧ ¬ FilterExact id a.world := by
  have hown : OwnAddresses node ([] ++ [serviceComes] ++ []) :=
    ownAddresses_serviceComes (by simp)
  obtain ⟨a, ha⟩ := exists_runs_schedule [serviceComes] []
    (hasTargetRefs_serviceComes (by simp))
  obtain ⟨hstart, -, hkeys, haddr, -⟩ := state_of_registry hown ha
  have hmem : ascii "10.0.0.2" ∈ addresses a.world.providers := by
    rw [haddr]
    change _ ∈ tracked node [serviceComes]
    rw [tracked_serviceComes]
    exact Finset.mem_singleton_self _
  have hempty : a.world.outer.keys = ∅ := hkeys
  refine ⟨hown, a, ha, hstart, hmem, fun hin => ?_, fun hex => ?_⟩
  · rw [← Bpf.HashMap.mem_keys, hempty] at hin
    exact Finset.notMem_empty _ hin
  · rw [FilterExact, hempty, Finset.image_id] at hex
    rw [← hex] at hmem
    exact Finset.notMem_empty _ hmem

end Kubebpfbox.Http
