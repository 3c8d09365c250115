import Kubebpfbox.Http.Equiv.Pipeline

/-!
# What the records and the metrics look like

* `Packet.Pending` holds of every entry of `request_map`: it is stored under the addresses and ports
  it carries, is of type HTTP, has one of the six methods and a URL without a blank and without a
  question mark, and nothing of a response yet.
* `Traffic.WellFormed` holds of every `Traffic` that is sent.

`process_wellFormed` is both, in every state of every run.
-/

namespace Kubebpfbox.Http

open Golang

/-! ### Entries of `request_map` -/

/-- The buffer holds neither a blank nor a question mark. -/
def CleanUrl (url : Vector UInt8 maxUrlLen) : Prop :=
  ∀ b ∈ url.toList, b ≠ ' '.toUInt8 ∧ b ≠ '?'.toUInt8

/-- A stored request that waits for its response. -/
structure Packet.Pending (c : ConnKey) (p : Packet) : Prop where
  key : (⟨p.srcIp, p.dstIp, p.srcPort, p.dstPort⟩ : ConnKey) = c
  type : p.type = PacketType.http.toUInt32
  method : ∃ m : HttpRequestMethod, p.method = m.toUInt32
  rspPayloadSize : p.rspPayloadSize = 0
  status : p.status = Vector.replicate statusLen 0
  url : CleanUrl p.url

theorem cleanUrl_requestPacket (a : Arrival) (method : HttpRequestMethod) :
    CleanUrl (requestPacket a method).url := by
  intro b hb
  obtain ⟨x, hx, rfl⟩ := List.getElem_of_mem hb
  rw [Vector.length_toList] at hx
  rw [Vector.getElem_toList]
  have hconf := (confined_copied a.skb (urlStart a.skb method)).no_end x hx
  rw [← url_requestPacket] at hconf
  exact hconf

theorem pending_requestPacket (a : Arrival) (method : HttpRequestMethod) :
    (requestPacket a method).Pending (parse a.skb).requestKey where
  key := rfl
  type := rfl
  method := ⟨method, rfl⟩
  rspPayloadSize := rfl
  status := rfl
  url := cleanUrl_requestPacket a method

/-- Every entry of `request_map` is a request that waits, under its own key. -/
theorem pending_of_lookup {tr : List Frame} {c : ConnKey} {p : Packet}
    (h : (requestMapAfter ∅ tr).lookup c = some p) : p.Pending c := by
  obtain ⟨i, r, method, hopen, -, -, rfl⟩ := lookup_requestMapAfter_iff.mp h
  rw [← hopen.seesRequest.2.2]
  exact pending_requestPacket r.2 method

/-! ### Traffic metrics -/

/-- A metric of an HTTP exchange. -/
structure Traffic.WellFormed (m : Traffic) : Prop where
  type : m.type = PacketType.http.toUInt32
  flow : m.flow = 1
  method : ∃ method : HttpRequestMethod, m.method = method.name
  /-- the URL has no NUL bytes at its end -/
  url_trimmed : m.url.getLast? ≠ some 0
  url_length : m.url.length ≤ maxUrlLen
  url_clean : ∀ b ∈ m.url, b ≠ ' '.toUInt8 ∧ b ≠ '?'.toUInt8
  code : m.code.length = statusLen
  duration : 0 ≤ m.duration
  srcIP : ∃ ip : UInt32, m.srcIP = ipString (intToIP ip)
  dstIP : ∃ ip : UInt32, m.dstIP = ipString (intToIP ip)

/-- What `DecodeMapItem` made of the record, with the provider it found. -/
structure Decoded (packet : HttpPacket) (provider : Provider) (m : Traffic) : Prop where
  type : m.type = packet.type
  flow : m.flow = 1
  dstIP : m.dstIP = ipString (intToIP packet.dstIp)
  srcIP : m.srcIP = ipString (intToIP packet.srcIp)
  duration : m.duration = packet.duration.toNat / (1000 * 1000)
  method : m.method = methodToString packet.method
  url : m.url = trimRight 0 packet.url.toList
  code : m.code = packet.status.toList
  podName : m.podName = provider.podName
  nodeName : m.nodeName = provider.nodeName
  nameSpace : m.nameSpace = provider.nameSpace
  serviceName : m.serviceName = provider.serviceName

theorem decoded_of_decodeMapItem {σ : Type} {endpoint2pod : Endpoint2Pod σ} {packet : HttpPacket}
    {m : Traffic} (h : decodeMapItem endpoint2pod packet = .ok m) :
    ∃ provider, endpoint2pod.getPodByEndpoint m.dstIP (Int32.ofNat m.dstPort.toNat)
      = some provider ∧ Decoded packet provider m := by
  simp only [decodeMapItem] at h
  split at h
  · rename_i provider hprov
    cases h
    exact ⟨provider, hprov, rfl, rfl, rfl, rfl, rfl, rfl, rfl, rfl, rfl, rfl, rfl, rfl⟩
  · cases h

theorem getLast?_trimRight (b : UInt8) (s : GoString) : (trimRight b s).getLast? ≠ some b := by
  intro h
  have hne : trimRight b s ≠ [] := by
    intro hnil
    rw [hnil] at h
    cases h
  have hlast := List.rdropWhile_last_not (· == b) s hne
  rw [List.getLast?_eq_some_getLast hne, Option.some.injEq] at h
  exact hlast (beq_iff_eq.mpr h)

/-- **The metric of an exchange** is well formed. -/
theorem wellFormed_of_decodeMapItem {σ : Type} {endpoint2pod : Endpoint2Pod σ} {r s : Arrival}
    {method : HttpRequestMethod} {m : Traffic}
    (h : decodeMapItem endpoint2pod (fillResponse (requestPacket r method) s).toHttpPacket
      = .ok m) : m.WellFormed := by
  obtain ⟨provider, -, hdec⟩ := decoded_of_decodeMapItem h
  have hfirst : trimRight 0 (requestPacket r method).url.toList
      <+: (requestPacket r method).url.toList := List.rdropWhile_prefix _ _
  have hurl : m.url = trimRight 0 (requestPacket r method).url.toList := hdec.url
  exact {
    type := hdec.type
    flow := hdec.flow
    method := by
      refine ⟨method, ?_⟩
      rw [hdec.method]
      exact methodToString_toUInt32 method
    url_trimmed := by
      rw [hurl]
      exact getLast?_trimRight 0 _
    url_length := by
      rw [hurl]
      have hle := hfirst.length_le
      rwa [Vector.length_toList] at hle
    url_clean := by
      intro b hb
      rw [hurl] at hb
      exact cleanUrl_requestPacket r method b (hfirst.subset hb)
    code := by
      rw [hdec.code, Vector.length_toList]
      rfl
    duration := by
      rw [hdec.duration]
      positivity
    srcIP := ⟨_, hdec.srcIP⟩
    dstIP := ⟨_, hdec.dstIP⟩ }

section Runs

variable {parseIP : GoString → NetIP} {nodeName : GoString} {acts : List Process.Action}
  {s : Process}

/-- **In every state of every run** the entries of `request_map` and the metrics are well formed,
with durations as exact rationals. -/
theorem process_wellFormed (h : Process.Runs parseIP nodeName {} acts s) :
    (∀ c p, s.requestMap.lookup c = some p → p.Pending c) ∧
    ∀ m ∈ traffics s.gather.sent ++ s.sending.toList, m.WellFormed := by
  constructor
  · intro c p hp
    rw [h.requestMap_eq] at hp
    exact pending_of_lookup hp
  · intro m hm
    obtain ⟨j, pre, raw, post, t, c, i, r, x, method, -, -, -, -, hdec⟩ := h.fromExchange hm
    exact wellFormed_of_decodeMapItem hdec

theorem process_wellFormed_of_one : ∃ acts s m, Process.Runs parseIPv4 Endpoint2Pod.node {} acts s ∧
    m ∈ traffics s.gather.sent ∧ m.WellFormed := by
  obtain ⟨acts, s, m, _, hrun, -, hsent, -⟩ := exists_runs_exchange
  have hm : m ∈ traffics s.gather.sent := by
    rw [hsent]
    exact List.mem_singleton_self m
  exact ⟨acts, s, m, hrun, hm, (process_wellFormed hrun).2 m (List.mem_append_left _ hm)⟩

end Runs

end Kubebpfbox.Http
