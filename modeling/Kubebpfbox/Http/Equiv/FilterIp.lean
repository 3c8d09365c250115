import Kubebpfbox.Http.Equiv.AddressFilter
import Kubebpfbox.Http.Equiv.Provenance

/-!
# What `filter_ip` holds

The invariant of the runs of the plugin: every key of `filter_ip` is the key of an address that some
notification has listed (`FilterOf`), in which order the informer and `Start` take their steps.

`filter_has_no_effect`: on a cluster whose addresses are all IPv4, the key of every address is `0`,
as `net.ParseIP` answers with 16 bytes.  So `filter_ip` never holds another key, and the program
submits the records it would submit with no filter at all.
-/

namespace Kubebpfbox.Http

open Golang GoM Kubebpfbox.Core Informer Endpoint2Pod

section Listeners

variable {κ : Type} [DecidableEq κ] {filterKey : GoString → Except Panic κ} {endpoint : Endpoint}
  {provider : Provider} {m m' : FilterSet κ} {r : Option GoString}

theorem eq_of_addFilterIP (h : Gives (addFilterIP filterKey endpoint provider) m r m') :
    ∃ key, filterKey endpoint.ip = .ok key ∧ m' = m.put key 1 := by
  cases hkey : filterKey endpoint.ip with
  | error err =>
    simp only [addFilterIP, hkey, eval, gives_bind] at h
    obtain ⟨_, _, herr, -⟩ := h
    cases herr
  | ok key =>
    refine ⟨key, rfl, ?_⟩
    have hsame : addFilterIP filterKey endpoint provider
        = addFilterIP (fun _ => .ok key) endpoint provider := by
      funext s
      simp only [addFilterIP, hkey]
    rw [hsame] at h
    exact gives_addFilterIP h

theorem eq_of_deleteFilterIP (h : Gives (deleteFilterIP filterKey endpoint provider) m r m') :
    ∃ key, m' = m.remove key := by
  cases hkey : filterKey endpoint.ip with
  | error err =>
    simp only [deleteFilterIP, hkey, eval, gives_bind] at h
    obtain ⟨_, _, herr, -⟩ := h
    cases herr
  | ok key =>
    refine ⟨key, ?_⟩
    have hsame : deleteFilterIP filterKey endpoint provider
        = deleteFilterIP (fun _ => .ok key) endpoint provider := by
      funext s
      simp only [deleteFilterIP, hkey]
    rw [hsame] at h
    exact gives_deleteFilterIP h

theorem mem_of_mem_put {k k' : κ} (h : k ∈ m.put k' 1) : k = k' ∨ k ∈ m := by
  by_cases hroom : m.HasRoom k'
  · exact (Bpf.HashMap.mem_put hroom 1 k).mp h
  · rw [Bpf.HashMap.put_of_not_hasRoom hroom] at h
    exact Or.inr h

end Listeners

/-! ### The invariant -/

section Invariant

variable {filterKey : GoString → Except Panic UInt32} {nodeName : GoString}
  {events : List (Event Endpoints)}

/-- The key of an address that one of the objects lists. -/
def KeyOf (filterKey : GoString → Except Panic UInt32) (nodeName : GoString)
    (events : List (Event Endpoints)) (k : UInt32) : Prop :=
  ∃ endpoint, Listed nodeName events endpoint ∧ filterKey endpoint.ip = .ok k

/-- `filter_ip` and the index hold what the notifications listed, and the only listeners are the two
handlers of the plugin. -/
structure FilterOf (filterKey : GoString → Except Panic UInt32) (nodeName : GoString)
    (events : List (Event Endpoints)) (w : World (FilterSet UInt32)) : Prop where
  keys : ∀ k ∈ w.outer, KeyOf filterKey nodeName events k
  providers : ∀ endpoint ∈ w.providers, Listed nodeName events endpoint
  added : ∀ handler ∈ w.endpoint2Pod.addEventHandlers, handler = addFilterIP filterKey
  deleted : ∀ handler ∈ w.endpoint2Pod.deleteEventHandlers, handler = deleteFilterIP filterKey

theorem Listed.append {endpoint : Endpoint} (h : Listed nodeName events endpoint)
    (events' : List (Event Endpoints)) : Listed nodeName (events ++ events') endpoint := by
  obtain ⟨e, he, ho⟩ := h
  exact ⟨e, List.mem_append_left _ he, ho⟩

theorem KeyOf.append {k : UInt32} (h : KeyOf filterKey nodeName events k)
    (events' : List (Event Endpoints)) : KeyOf filterKey nodeName (events ++ events') k := by
  obtain ⟨endpoint, hl, hk⟩ := h
  exact ⟨endpoint, hl.append events', hk⟩

theorem lists_of_mem_entries {o : Endpoints} {x : Endpoint × Provider}
    (h : x ∈ entries nodeName o) : Lists nodeName o x.1 := by
  obtain ⟨y, hy, hfst⟩ := List.mem_filterMap.mp h
  obtain ⟨ref, -, rfl⟩ := Option.map_eq_some_iff.mp hfst
  exact mem_listing.mp (List.mem_map_of_mem hy)

/-- What the calls of the listeners do to their state is kept when each call keeps it. -/
theorem told_invariant {σ : Type} {handlers : List (EventHandler σ)} {o : Endpoints} {J : σ → Prop}
    {s s' : σ} (hs : J s) (hcall : ∀ handler ∈ handlers, ∀ endpoint provider t r t',
      Lists nodeName o endpoint → J t → Gives (handler endpoint provider) t r t' → J t')
    (h : Told nodeName o handlers s s') : J s' := by
  refine (Gives.forM_foldl (g := fun _ => ()) (F := fun _ _ => ()) h hs ?_).1
  intro x hx t t' ht hg
  refine ⟨?_, rfl⟩
  refine (Gives.forM_foldl (g := fun _ => ()) (F := fun _ _ => ()) hg ht ?_).1
  intro handler hmem t₁ t₂ ht₁ hg₁
  obtain ⟨r, hr⟩ := gives_discard.mp hg₁
  exact ⟨hcall handler hmem x.1 x.2 t₁ r t₂ (lists_of_mem_entries hx) ht₁ hr, rfl⟩

section Handle

variable {w w' : World (FilterSet UInt32)} {e : Event Endpoints} {o : Endpoints}

theorem keys_addEndpoints (hadded : ∀ handler ∈ w.endpoint2Pod.addEventHandlers,
    handler = addFilterIP filterKey) (hkeys : ∀ k ∈ w.outer, KeyOf filterKey nodeName events k)
    (ho : ∃ e ∈ events, o ∈ objects e) (hg : Gives (addEndpoints o nodeName) w ⟨⟩ w') :
    ∀ k ∈ w'.outer, KeyOf filterKey nodeName events k := by
  obtain ⟨-, s, hs, rfl⟩ := gives_addEndpoints.mp hg
  refine told_invariant (J := fun m => ∀ k ∈ m, KeyOf filterKey nodeName events k) hkeys ?_ hs
  intro handler hmem endpoint provider m r m' hl hm hcall k hk
  rw [hadded handler hmem] at hcall
  obtain ⟨key, hkey, rfl⟩ := eq_of_addFilterIP hcall
  rcases mem_of_mem_put hk with rfl | hk
  · obtain ⟨e, he, hoe⟩ := ho
    exact ⟨endpoint, ⟨e, he, o, hoe, hl⟩, hkey⟩
  · exact hm k hk

theorem keys_deleteEndpoints (hdeleted : ∀ handler ∈ w.endpoint2Pod.deleteEventHandlers,
    handler = deleteFilterIP filterKey) (hkeys : ∀ k ∈ w.outer, KeyOf filterKey nodeName events k)
    (hg : Gives (deleteEndpoints o nodeName) w ⟨⟩ w') :
    ∀ k ∈ w'.outer, KeyOf filterKey nodeName events k := by
  obtain ⟨-, s, hs, rfl⟩ := gives_deleteEndpoints.mp hg
  refine told_invariant (J := fun m => ∀ k ∈ m, KeyOf filterKey nodeName events k) hkeys ?_ hs
  intro handler hmem endpoint provider m r m' _ hm hcall k hk
  rw [hdeleted handler hmem] at hcall
  obtain ⟨key, rfl⟩ := eq_of_deleteFilterIP hcall
  exact hm k ((Bpf.HashMap.mem_remove m key k).mp hk).2

/-- **A notification keeps the invariant.** -/
theorem FilterOf.handle (h : FilterOf filterKey nodeName events w)
    (hg : Gives (handle nodeName e) w ⟨⟩ w') :
    FilterOf filterKey nodeName (events ++ [e]) w' := by
  have hlast : ∀ o ∈ objects e, ∃ e' ∈ events ++ [e], o ∈ objects e' := fun o ho =>
    ⟨e, List.mem_append_right _ (List.mem_singleton_self e), ho⟩
  have hkeys : ∀ k ∈ w.outer, KeyOf filterKey nodeName (events ++ [e]) k := fun k hk =>
    (h.keys k hk).append [e]
  have hsame := (providers_handle hg).1
  refine ⟨?_, ?_, ?_, ?_⟩
  · cases e with
    | add o =>
      exact keys_addEndpoints h.added hkeys (hlast o (by simp [objects])) (gives_handle_add.mp hg)
    | delete o => exact keys_deleteEndpoints h.deleted hkeys (gives_handle_delete.mp hg)
    | update o o' =>
      obtain ⟨t, hdel, hadd⟩ := gives_handle_update.mp hg
      have hadded : ∀ handler ∈ t.endpoint2Pod.addEventHandlers,
          handler = addFilterIP filterKey := by
        rw [(providers_deleteEndpoints hdel).1.1]
        exact h.added
      exact keys_addEndpoints hadded (keys_deleteEndpoints h.deleted hkeys hdel)
        (hlast o' (by simp [objects])) hadd
  · intro endpoint hmem
    rcases (mem_providers_handle hg endpoint).mp hmem with ⟨o, ho, hl⟩ | ⟨hold, -⟩
    · exact ⟨e, List.mem_append_right _ (List.mem_singleton_self e), o,
        mem_objects_of_begins ho, hl⟩
    · exact (h.providers endpoint hold).append [e]
  · rw [hsame.1]
    exact h.added
  · rw [hsame.2]
    exact h.deleted

end Handle

/-- The keys that `WriteFilterIP` writes, whether it comes to the end or not. -/
theorem keys_writeFilterIP {order : List Endpoint} {m m' : FilterSet UInt32}
    {r : Option GoString} (h : Gives (writeFilterIP filterKey order) m r m') :
    ∀ k ∈ m', k ∈ m ∨ ∃ endpoint ∈ order, filterKey endpoint.ip = .ok k := by
  induction order generalizing m with
  | nil =>
    rw [writeFilterIP] at h
    rw [(gives_pure.mp h).2]
    exact fun k hk => Or.inl hk
  | cons endpoint order ih =>
    rw [writeFilterIP] at h
    obtain ⟨key, t, hkey, hrest⟩ := gives_bind.mp h
    cases heval : filterKey endpoint.ip with
    | error err =>
      rw [heval] at hkey
      cases hkey
    | ok key' =>
      rw [heval] at hkey
      obtain ⟨rfl, rfl⟩ : key' = key ∧ m = t := by
        cases hkey
        exact ⟨rfl, rfl⟩
      obtain ⟨m₁, t₁, hget, hm⟩ := gives_bind.mp hrest
      obtain ⟨hm₁, ht₁⟩ := gives_get.mp hget
      rw [hm₁, ht₁] at hm
      intro k hk
      by_cases hroom : m.HasRoom key'
      · rw [Bpf.HashMap.update_eq_some_put hroom] at hm
        obtain ⟨_, _, hset, hwrite⟩ := gives_bind.mp hm
        rw [gives_set.mp hset] at hwrite
        rcases ih hwrite k hk with hput | ⟨endpoint', hmem, hkey⟩
        · rcases mem_of_mem_put hput with rfl | hold
          · exact Or.inr ⟨endpoint, List.mem_cons_self .., heval⟩
          · exact Or.inl hold
        · exact Or.inr ⟨endpoint', List.mem_cons_of_mem _ hmem, hkey⟩
      · -- the loop stops with an error
        rw [Bpf.HashMap.update_eq_none.mpr hroom] at hm
        rw [(gives_pure.mp hm).2] at hk
        exact Or.inl hk

/-- **A step of the informer or of `Start` keeps the invariant.** -/
theorem FilterOf.step {a b : Agent UInt32} {act : Action}
    (h : FilterOf filterKey nodeName events a.world) (hstep : Step filterKey nodeName a act b) :
    FilterOf filterKey nodeName
      (events ++ (Process.Action.agent act).notification?.toList) b.world := by
  cases hstep with
  | event hg => exact h.handle hg
  | @writeFilterIP order r m _ horder hg =>
    rw [Process.Action.notification?, Option.toList_none, List.append_nil]
    refine ⟨fun k hk => ?_, h.providers, h.added, h.deleted⟩
    rcases keys_writeFilterIP hg k hk with hold | ⟨endpoint, hmem, hkey⟩
    · exact h.keys k hold
    · exact ⟨endpoint, h.providers endpoint (horder.mem_iff.mp hmem), hkey⟩
  | registry _ =>
    rw [Process.Action.notification?, Option.toList_none, List.append_nil]
    refine ⟨h.keys, h.providers, fun handler hmem => ?_, fun handler hmem => ?_⟩
    · rcases List.mem_append.mp hmem with hold | hnew
      · exact h.added handler hold
      · exact List.mem_singleton.mp hnew
    · rcases List.mem_append.mp hmem with hold | hnew
      · exact h.deleted handler hold
      · exact List.mem_singleton.mp hnew

/-! ### Whole runs -/

section Runs

variable {parseIP : GoString → NetIP} {acts : List Process.Action} {s : Process}

theorem Process.Runs.filterOf (h : Process.Runs parseIP nodeName {} acts s) :
    FilterOf (filterKeyOf parseIP) nodeName (Process.notifications acts) s.agent.world := by
  induction h with
  | nil =>
    refine ⟨fun k hk => absurd hk (Bpf.HashMap.not_mem_empty k), fun endpoint hmem =>
      absurd hmem Finmap.notMem_empty, fun handler hmem => ?_, fun handler hmem => ?_⟩
    · cases hmem
    · cases hmem
  | concat _ hstep ih =>
    rw [Process.notifications_concat]
    cases hstep with
    | agent hagent => exact ih.step hagent
    | _ =>
      rw [Process.Action.notification?, Option.toList_none, List.append_nil]
      exact ih

/-- Every frame met a filter with keys of addresses that were listed by then. -/
theorem Process.Runs.keys_of_frame (h : Process.Runs parseIP nodeName {} acts s) {x : Frame}
    (hx : x ∈ Process.frames acts) {k : UInt32} (hk : k ∈ x.1) :
    KeyOf (filterKeyOf parseIP) nodeName (Process.notifications acts) k := by
  obtain ⟨act, hact, hframe⟩ := List.mem_filterMap.mp hx
  obtain ⟨pre, post, rfl⟩ := List.append_of_mem hact
  obtain ⟨t, t', hpre, hstep⟩ := h.split
  cases hstep with
  | frame a pad =>
    cases hframe
    rw [Process.notifications, List.filterMap_append]
    exact ((Process.Runs.filterOf hpre).keys k hk).append _
  | _ => cases hframe

/-- The address is a dotted quad. -/
def IsIpv4 (s : GoString) : Prop := ∃ a b c d, s = dottedQuad a b c d

variable (hparse : ∀ a b c d, parseIP (dottedQuad a b c d) = v4InV6 a b c d)
  (hv4 : ∀ endpoint, Listed nodeName (Process.notifications acts) endpoint →
    IsIpv4 endpoint.ip)
include hparse hv4

theorem Process.Runs.eq_zero_of_mem (h : Process.Runs parseIP nodeName {} acts s) {x : Frame}
    (hx : x ∈ Process.frames acts) {k : UInt32} (hk : k ∈ x.1) : k = 0 := by
  obtain ⟨endpoint, hl, hkey⟩ := h.keys_of_frame hx hk
  obtain ⟨a, b, c, d, hip⟩ := hv4 endpoint hl
  rw [hip, filterKeyOf, hparse, ipv4ToUint32_v4InV6, Except.ok.injEq] at hkey
  exact hkey.symm

omit hparse hv4 in
/-- A filter that holds at most the address `0.0.0.0` lets the same frames through as an empty one,
but for those from and to that address. -/
theorem frameEvent_eq_of_zero {filterIp : FilterIp} {a : Arrival} (hzero : ∀ k ∈ filterIp, k = 0)
    (haddr : a.skb.iphdr.saddr ≠ 0 ∨ a.skb.iphdr.daddr ≠ 0) :
    frameEvent filterIp a = frameEvent ∅ a := by
  have hkept : ¬ (a.skb.iphdr.saddr ∈ filterIp ∧ a.skb.iphdr.daddr ∈ filterIp) := by
    rintro ⟨hs, hd⟩
    rcases haddr with hne | hne
    · exact hne (hzero _ hs)
    · exact hne (hzero _ hd)
  have hempty : ¬ (a.skb.iphdr.saddr ∈ (∅ : FilterIp) ∧ a.skb.iphdr.daddr ∈ (∅ : FilterIp)) :=
    fun hmem => Bpf.HashMap.not_mem_empty _ hmem.1
  have hreach : Reaches filterIp a ↔ Reaches ∅ a := by
    rw [reaches_iff, reaches_iff, and_congr_right_iff]
    exact fun _ => iff_of_true hkept hempty
  unfold frameEvent
  by_cases hr : Reaches filterIp a
  · rw [if_pos hr, if_pos (hreach.mp hr)]
  · rw [if_neg hr, if_neg fun h => hr (hreach.mpr h)]

omit hparse hv4 in
/-- Records depend on what the frames do to `request_map` alone. -/
theorem submissions_congr {tr tr' : List Frame} (hlen : tr.length = tr'.length)
    (h : frameEvents tr = frameEvents tr') : submissions ∅ tr = submissions ∅ tr' := by
  unfold submissions
  rw [hlen]
  refine List.filterMap_congr fun j _ => ?_
  rw [submittedAt_eq, submittedAt_eq, h]

/-- **The filter has no effect** on a cluster whose addresses are all IPv4: in every run the records
are those of the program with an empty `filter_ip`, whatever is tracked. -/
theorem filter_has_no_effect (h : Process.Runs parseIP nodeName {} acts s)
    (haddr : ∀ x ∈ Process.frames acts, x.2.skb.iphdr.saddr ≠ 0 ∨ x.2.skb.iphdr.daddr ≠ 0) :
    (∀ k ∈ s.agent.world.outer, k = 0) ∧
    submissions ∅ (Process.frames acts)
      = submissions ∅ ((Process.frames acts).map fun x => (∅, x.2)) := by
  constructor
  · intro k hk
    obtain ⟨endpoint, hl, hkey⟩ := h.filterOf.keys k hk
    obtain ⟨a, b, c, d, hip⟩ := hv4 endpoint hl
    rw [hip, filterKeyOf, hparse, ipv4ToUint32_v4InV6, Except.ok.injEq] at hkey
    exact hkey.symm
  · refine submissions_congr (List.length_map _).symm ?_
    unfold frameEvents
    rw [List.map_map]
    refine List.map_congr_left fun x hx => ?_
    exact frameEvent_eq_of_zero (fun k hk => h.eq_zero_of_mem hparse hv4 hx hk) (haddr x hx)

end Runs

end Invariant

theorem isIpv4_of_listed_serviceComes {endpoint : Endpoint}
    (h : Listed node [serviceComes] endpoint) : IsIpv4 endpoint.ip := by
  obtain ⟨e, he, o, ho, hl⟩ := h
  rw [List.mem_singleton.mp he] at ho
  rw [List.mem_singleton.mp ho] at hl
  rw [lists_service_iff.mp hl]
  exact ⟨10, 0, 0, 2, by decide⟩

theorem filter_has_no_effect_of_one : ∃ acts s, Process.Runs parseIPv4 node {} acts s ∧
    s.agent.start = .registered ∧ Process.notifications acts = [serviceComes] ∧
    submissions ∅ (Process.frames acts)
      = submissions ∅ ((Process.frames acts).map fun x => (∅, x.2)) := by
  obtain ⟨acts, s, _, f, hrun, hstart, -, hnotes, hframes⟩ := exists_runs_exchange
  have hv4 : ∀ endpoint, Listed node (Process.notifications acts) endpoint →
      IsIpv4 endpoint.ip := by
    rw [hnotes]
    exact fun endpoint hl => isIpv4_of_listed_serviceComes hl
  have haddr : ∀ x ∈ Process.frames acts,
      x.2.skb.iphdr.saddr ≠ 0 ∨ x.2.skb.iphdr.daddr ≠ 0 := by
    intro x hx
    rw [hframes, List.mem_cons, List.mem_singleton] at hx
    rcases hx with rfl | rfl
    · rw [saddr_getArrival]
      exact Or.inl (by decide)
    · rw [okArrival, iphdr_tcpFrame]
      exact Or.inl (by decide)
  exact ⟨acts, s, hrun, hstart, hnotes,
    (filter_has_no_effect parseIPv4_dottedQuad hv4 hrun haddr).2⟩

end Kubebpfbox.Http
