import Kubebpfbox.Endpoint2Pod.Equiv.LastWriter
import Kubebpfbox.Http.Equiv.WellFormed
import Mathlib.Data.List.ReduceOption

/-!
# Where the names in a metric come from

`traffic_attributed`: the pod, namespace and service of a `Traffic` are those that the last
notification about its endpoint gave, of the notifications handled before `Start` read the record.
The order in which the informer, the kernel and `Start` take turns makes no difference.

`traffic_sent_iff` is the other side: of the records that `Start` has read, those give a `Traffic`
whose endpoint was listed by the last notification about it before the read of that record, and the
others are dropped.
-/

namespace Kubebpfbox.Http

open Golang Kubebpfbox.Core Informer Endpoint2Pod LastWrite

section Attribution

variable {parseIP : GoString → NetIP} {nodeName : GoString} {acts : List Process.Action}
  {s : Process}

namespace Process

/-- **The index in a run** is made of the notifications alone. -/
theorem Runs.lookup_providers (h : Runs parseIP nodeName {} acts s) (endpoint : Endpoint) :
    s.agent.world.providers.lookup endpoint
      = cell (writesTo nodeName endpoint) (notifications acts) := by
  induction h with
  | nil => exact Finmap.lookup_empty _
  | @concat acts t t' act _ hstep ih =>
    rw [notifications_concat]
    cases hstep with
    | agent hagent =>
      cases hagent with
      | event hg =>
        rw [Action.notification?, Option.toList_some, cell_concat, ← ih]
        exact lookup_handle hg endpoint
      | writeFilterIP _ _ _ =>
        rw [Action.notification?, Option.toList_none, List.append_nil, ← ih]
        rfl
      | registry _ =>
        rw [Action.notification?, Option.toList_none, List.append_nil, ← ih]
        rfl
    | _ =>
      rw [Action.notification?, Option.toList_none, List.append_nil, ← ih]

/-- A notification that was handled had a pod for every local address. -/
theorem Runs.hasTargetRefs (h : Runs parseIP nodeName {} acts s) :
    ∀ e ∈ notifications acts, ∀ o, e.Begins o → HasTargetRefs nodeName o := by
  induction h with
  | nil =>
    intro e he
    cases he
  | @concat acts t t' act _ hstep ih =>
    intro e he
    rw [notifications_concat, List.mem_append, Option.mem_toList] at he
    rcases he with he | he
    · exact ih e he
    · cases hstep with
      | agent hagent =>
        cases hagent with
        | event hg =>
          cases he
          exact hasTargetRefs_of_begins hg
        | _ => cases he
      | _ => cases he

end Process

/-- The endpoint a metric is about. -/
def Traffic.endpoint (m : Traffic) : Endpoint := ⟨m.dstIP, Int32.ofNat m.dstPort.toNat⟩

/-- The names are those of a local address that an `Endpoints` object lists. -/
structure NamedBy (nodeName : GoString) (m : Traffic) (o : Endpoints) (ref : ObjectReference) :
    Prop where
  podName : m.podName = ref.name
  nameSpace : m.nameSpace = ref.nameSpace
  serviceName : m.serviceName = o.name
  nodeName : m.nodeName = nodeName

/-- **Every metric is attributed** by the last notification about its endpoint that was handled
before `Start` read the record. -/
theorem traffic_attributed (h : Process.Runs parseIP nodeName {} acts s) {m : Traffic}
    (hm : m ∈ traffics s.gather.sent ++ s.sending.toList) :
    ∃ pre endpoint2pod rawSample post n o x ref,
      acts = pre ++ .read endpoint2pod rawSample :: post ∧
      startTurn endpoint2pod rawSample = some m ∧
      ListedAt nodeName (Process.notifications pre) m.endpoint n o x ref ∧
      NamedBy nodeName m o ref := by
  rw [h.traffics_eq] at hm
  obtain ⟨y, hy, hturn⟩ := List.mem_filterMap.mp hm
  obtain ⟨x, -, pre, post, t, hacts, hindex, hread⟩ :=
    Lists.exists_of_forall₂_of_mem h.forall₂_reads hy
  have hdec : decodeMapItem y.1 x.2.toHttpPacket = .ok m :=
    (startTurn_eq_some hread.sample).mp hturn
  obtain ⟨provider, hprov, hfrom⟩ := decoded_of_decodeMapItem hdec
  -- the entry the decoder found is the last one that was written
  have hcell : cell (writesTo nodeName m.endpoint) (Process.notifications pre) = some provider := by
    rw [← hread.runs.lookup_providers]
    show t.agent.world.endpoint2Pod.providers.lookup _ = _
    rw [hindex]
    exact hprov
  obtain ⟨n, o, z, ref, hlisted, rfl⟩ := exists_listedAt hcell
  exact ⟨pre, y.1, y.2, post, n, o, z, ref, hacts, hturn, hlisted, hfrom.podName, hfrom.nameSpace,
    hfrom.serviceName, hfrom.nodeName⟩

theorem traffic_attributed_of_one : ∃ acts s m, Process.Runs parseIPv4 node {} acts s ∧
    m ∈ traffics s.gather.sent ∧
    ∃ n o x ref pre, ListedAt node (Process.notifications pre) m.endpoint n o x ref ∧
      NamedBy node m o ref := by
  obtain ⟨acts, s, m, _, hrun, -, hsent, -⟩ := exists_runs_exchange
  have hm : m ∈ traffics s.gather.sent := by
    rw [hsent]
    exact List.mem_singleton_self m
  obtain ⟨pre, _, _, _, n, o, x, ref, -, -, hlisted, hnamed⟩ :=
    traffic_attributed hrun (List.mem_append_left _ hm)
  exact ⟨acts, s, m, hrun, hm, n, o, x, ref, pre, hlisted, hnamed⟩

/-! ### What is sent and what is dropped -/

/-- The endpoint a record is about. -/
def Packet.endpoint (p : Packet) : Endpoint :=
  ⟨ipString (intToIP p.dstIp), Int32.ofNat (ntohs p.dstPort).toNat⟩

theorem isSome_decodeMapItem_iff {σ : Type} (endpoint2pod : Endpoint2Pod σ) (p : Packet) :
    (decodeMapItem endpoint2pod p.toHttpPacket).toOption.isSome ↔
      (endpoint2pod.providers.lookup p.endpoint).isSome := by
  have hlook : endpoint2pod.getPodByEndpoint (ipString (intToIP p.toHttpPacket.dstIp))
      (Int32.ofNat (ntohs p.toHttpPacket.dstPort).toNat)
        = endpoint2pod.providers.lookup p.endpoint := rfl
  simp only [decodeMapItem, hlook]
  cases endpoint2pod.providers.lookup p.endpoint with
  | none => exact Iff.rfl
  | some provider => exact Iff.rfl

theorem endpoint_of_decodeMapItem {σ : Type} {endpoint2pod : Endpoint2Pod σ} {p : Packet}
    {m : Traffic} (h : decodeMapItem endpoint2pod p.toHttpPacket = .ok m) :
    m.endpoint = p.endpoint := by
  simp only [decodeMapItem] at h
  split at h
  · cases h
    rfl
  · cases h

variable (parseIP nodeName) in
/-- When the turn of the record came, `Start` read it, and made a `Traffic` of it if the last
notification about its endpoint, of those handled before, listed the endpoint. -/
def SentIfListed (acts : List Process.Action) (x : ℕ × Packet) (o : Option Traffic) : Prop :=
  ∃ pre rawSample post t, acts = pre ++ .read t.agent.world.endpoint2Pod rawSample :: post ∧
    Process.ReadsNext parseIP nodeName pre t x rawSample ∧
    o = startTurn t.agent.world.endpoint2Pod rawSample ∧
    (o.isSome ↔ ∃ n obj a ref,
      ListedAt nodeName (Process.notifications pre) x.2.endpoint n obj a ref) ∧
    ∀ m, o = some m → m.endpoint = x.2.endpoint

theorem Outcome.sentIfListed {x : ℕ × Packet} {o : Option Traffic}
    (h : Outcome parseIP nodeName acts x o) : SentIfListed parseIP nodeName acts x o := by
  obtain ⟨pre, rawSample, post, t, rfl, hread, rfl⟩ := h
  refine ⟨pre, rawSample, post, t, rfl, hread, (startTurn_eq_toOption _ hread.sample).symm, ?_,
    fun m hm => ?_⟩
  · rw [isSome_decodeMapItem_iff, ← isSome_cell_iff hread.runs.hasTargetRefs,
      ← hread.runs.lookup_providers]
    exact Iff.rfl
  · cases hdec : decodeMapItem t.agent.world.endpoint2Pod x.2.toHttpPacket with
    | error err =>
      rw [hdec] at hm
      cases hm
    | ok m' =>
      rw [hdec] at hm
      cases hm
      exact endpoint_of_decodeMapItem hdec

/-- **Which exchanges are reported**: every record is read once, in its turn, and is sent exactly
when the last notification about its endpoint, of those handled before the read, listed it. -/
theorem traffic_sent_iff (h : Process.Runs parseIP nodeName {} acts s) :
    ∃ done waiting os, submissions ∅ (Process.frames acts) = done ++ waiting ∧
      waiting.length = s.packets.length ∧
      traffics s.gather.sent ++ s.sending.toList = os.reduceOption ∧
      List.Forall₂ (SentIfListed parseIP nodeName acts) done os := by
  obtain ⟨done, waiting, os, hsub, hlen, hall, hos⟩ := h.exists_outcomes
  exact ⟨done, waiting, os, hsub, hlen, hos, hall.imp fun _ _ hout => hout.sentIfListed⟩

theorem traffic_sent_iff_of_one : ∃ acts s m x, Process.Runs parseIPv4 node {} acts s ∧
    m ∈ traffics s.gather.sent ∧ x ∈ submissions ∅ (Process.frames acts) ∧
    SentIfListed parseIPv4 node acts x (some m) := by
  obtain ⟨acts, s, m, _, hrun, -, hsent, -⟩ := exists_runs_exchange
  obtain ⟨done, waiting, os, hsub, -, hos, hall⟩ := traffic_sent_iff hrun
  have hm : some m ∈ os := by
    rw [← List.reduceOption_mem_iff, ← hos, hsent]
    exact List.mem_append_left _ (List.mem_singleton_self m)
  obtain ⟨x, hx, hlisted⟩ := Lists.exists_of_forall₂_of_mem hall hm
  refine ⟨acts, s, m, x, hrun, ?_, ?_, hlisted⟩
  · rw [hsent]
    exact List.mem_singleton_self m
  · rw [hsub]
    exact List.mem_append_left _ hx

end Attribution

end Kubebpfbox.Http
