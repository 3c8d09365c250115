import Kubebpfbox.Http.Equiv.Matching

/-!
# Whole traces of the kernel program

The main results about `socketFilterHttp` run on a trace of frames, one after another.

* `socketFilterHttp_trace`: from an empty `request_map`, with plain IP headers, a ring buffer that
  has room and fewer than `maxMapConn` unanswered requests, the records submitted are exactly the
  answered requests, each once and with the data of its two frames, no connection disturbs another,
  and `request_map` holds exactly the unanswered requests.
* `tracked_iff_hasRoom`: with no assumption on `request_map`, a request that is answered is
  reported exactly when `request_map` had room for it.
-/

namespace Kubebpfbox.Http

open Bytes Golang Slots

variable (filterIp : FilterIp)

/-! ### Answered and unanswered requests -/

/-- No frame from position `i + 1` to `j - 1` is a request or a response on `c`. -/
def Idle (tr : List Arrival) (c : ConnKey) (i j : ℕ) : Prop :=
  ∀ l a, i < l → l < j → tr[l]? = some a → ¬ RequestOn filterIp c a ∧ ¬ ResponseOn filterIp c a

/-- Frame `j` answers the request that is frame `i`, on connection `c`. -/
def Answered (tr : List Arrival) (c : ConnKey) (i j : ℕ) (a b : Arrival) : Prop :=
  i < j ∧ tr[i]? = some a ∧ tr[j]? = some b ∧ RequestOn filterIp c a ∧ ResponseOn filterIp c b ∧
    Idle filterIp tr c i j

/-- Frame `i` is a request on connection `c` and nothing happened on `c` since. -/
def Unanswered (tr : List Arrival) (c : ConnKey) (i : ℕ) (a : Arrival) : Prop :=
  tr[i]? = some a ∧ RequestOn filterIp c a ∧ Idle filterIp tr c i tr.length

/-- The record reports the request `a` and the response `b`. -/
structure Reports (p : Packet) (a b : Arrival) : Prop where
  srcIp : p.srcIp = a.skb.iphdr.saddr
  dstIp : p.dstIp = a.skb.iphdr.daddr
  srcPort : p.srcPort = a.skb.tcpHeader.source
  dstPort : p.dstPort = a.skb.tcpHeader.dest
  method : ∃ m, isHttpRequest a.skb.payload12 = some m ∧ p.method = m.toUInt32 ∧
    p.url = loadUrlToMap a.skb
      (UInt32.ofNat a.skb.payloadOffset + getHttpRequestMethodLen m + 1)
      (Vector.replicate maxUrlLen 0)
  reqPayloadSize : p.reqPayloadSize = a.skb.payloadSize
  status : p.status.toList = b.skb.payload12.toList.drop 9
  rspPayloadSize : p.rspPayloadSize = b.skb.payloadSize

/-- The records submitted for connection `c`, in order. -/
def recordsOn (c : ConnKey) : RequestMap → List Arrival → List Packet
  | _, [] => []
  | m, a :: tr =>
    let v := socketFilterHttp filterIp a m
    (if ResponseOn filterIp c a then v.submitted.toList else []) ++ recordsOn c v.requestMap tr

/-- The frame belongs to connection `c`. -/
def OnConn (c : ConnKey) (a : Arrival) : Prop := RequestOn filterIp c a ∨ ResponseOn filterIp c a

instance (c : ConnKey) (a : Arrival) : Decidable (OnConn filterIp c a) :=
  inferInstanceAs (Decidable (_ ∨ _))

section Trace

variable {filterIp} {tr : List Arrival} (hplain : ∀ a ∈ tr, a.skb.HasPlainIpHeader)
include hplain

theorem quiet_iff_idle (c : ConnKey) (i j : ℕ) :
    Quiet (tr.map (frameEvent filterIp)) c i j ↔ Idle filterIp tr c i j := by
  constructor
  · intro hq l a hl hlt ha
    have hoff := hq l (frameEvent filterIp a) hl hlt (by rw [List.getElem?_map, ha]; rfl)
    rw [on_frameEvent_iff (hplain a (List.mem_of_getElem? ha))] at hoff
    exact not_or.mp hoff
  · intro hi l e hl hlt he
    rw [List.getElem?_map, Option.map_eq_some_iff] at he
    obtain ⟨a, ha, rfl⟩ := he
    rw [on_frameEvent_iff (hplain a (List.mem_of_getElem? ha))]
    exact not_or.mpr (hi l a hl hlt ha)

theorem getElem?_events_eq_put_iff {c : ConnKey} {i : ℕ} {p : Packet} :
    (tr.map (frameEvent filterIp))[i]? = some (.put c p) ↔
      ∃ a, tr[i]? = some a ∧ RequestOn filterIp c a ∧
        ∃ method, isHttpRequest a.skb.payload12 = some method ∧ p = requestPacket a method := by
  rw [List.getElem?_map, Option.map_eq_some_iff]
  refine exists_congr fun a => and_congr_right fun ha => ?_
  exact frameEvent_eq_put_iff (hplain a (List.mem_of_getElem? ha))

theorem getElem?_events_eq_take_iff {c : ConnKey} {j : ℕ} {b : Arrival} :
    (tr.map (frameEvent filterIp))[j]? = some (.take c b) ↔
      tr[j]? = some b ∧ ResponseOn filterIp c b := by
  rw [List.getElem?_map, Option.map_eq_some_iff]
  constructor
  · rintro ⟨a, ha, he⟩
    obtain ⟨hrsp, rfl⟩ := (frameEvent_eq_take_iff (hplain a (List.mem_of_getElem? ha))).mp he
    exact ⟨ha, hrsp⟩
  · rintro ⟨hb, hrsp⟩
    exact ⟨b, hb, (frameEvent_eq_take_iff (hplain b (List.mem_of_getElem? hb))).mpr ⟨hrsp, rfl⟩⟩

theorem matched_iff_answered {c : ConnKey} {i j : ℕ} {p : Packet} {b : Arrival} :
    Matched (tr.map (frameEvent filterIp)) c i j p b ↔
      ∃ a, Answered filterIp tr c i j a b ∧
        ∃ method, isHttpRequest a.skb.payload12 = some method ∧ p = requestPacket a method := by
  unfold Matched Answered
  rw [getElem?_events_eq_put_iff hplain, getElem?_events_eq_take_iff hplain, quiet_iff_idle hplain]
  constructor
  · rintro ⟨hij, ⟨a, ha, hreq, hp⟩, ⟨hb, hrsp⟩, hidle⟩
    exact ⟨a, ⟨hij, ha, hb, hreq, hrsp, hidle⟩, hp⟩
  · rintro ⟨a, ⟨hij, ha, hb, hreq, hrsp, hidle⟩, hp⟩
    exact ⟨hij, ⟨a, ha, hreq, hp⟩, ⟨hb, hrsp⟩, hidle⟩

theorem pendingAt_iff_unanswered {c : ConnKey} {i : ℕ} {p : Packet} :
    PendingAt (tr.map (frameEvent filterIp)) c i p ↔
      ∃ a, Unanswered filterIp tr c i a ∧
        ∃ method, isHttpRequest a.skb.payload12 = some method ∧ p = requestPacket a method := by
  unfold PendingAt Unanswered
  rw [getElem?_events_eq_put_iff hplain, quiet_iff_idle hplain, List.length_map]
  constructor
  · rintro ⟨⟨a, ha, hreq, hp⟩, hidle⟩
    exact ⟨a, ⟨ha, hreq, hidle⟩, hp⟩
  · rintro ⟨a, ⟨ha, hreq, hidle⟩, hp⟩
    exact ⟨⟨a, ha, hreq, hp⟩, hidle⟩

theorem Answered.exists_method {c : ConnKey} {i j : ℕ} {a b : Arrival}
    (h : Answered filterIp tr c i j a b) :
    ∃ method, isHttpRequest a.skb.payload12 = some method ∧
      Matched (tr.map (frameEvent filterIp)) c i j (requestPacket a method) b := by
  obtain ⟨method, hm⟩ := Option.isSome_iff_exists.mp h.2.2.2.1.2.1
  exact ⟨method, hm, (matched_iff_answered hplain).mpr ⟨a, h, method, hm, rfl⟩⟩

/-- Any bound on the number of unanswered requests is a bound on the pending keys. -/
theorem fits_of_card_unanswered_lt {cap : ℕ}
    (h : ∀ n (s : Finset ConnKey), (∀ c ∈ s, ∃ i a, Unanswered filterIp (tr.take n) c i a) →
      s.card < cap) :
    Fits cap (tr.map (frameEvent filterIp)) := by
  intro n
  rw [← List.map_take]
  refine h n _ fun c hc => ?_
  obtain ⟨p, hp⟩ := Option.isSome_iff_exists.mp (mem_pending.mp hc)
  obtain ⟨i, hi⟩ := (slot_eq_some_iff _).mp hp
  have htake : ∀ a ∈ tr.take n, a.skb.HasPlainIpHeader := fun a ha =>
    hplain a (List.mem_of_mem_take ha)
  obtain ⟨a, ha, -⟩ := (pendingAt_iff_unanswered htake).mp hi
  exact ⟨i, a, ha⟩

omit hplain in
theorem step_take_of_responseOn {a : Arrival} (ha : a.skb.HasPlainIpHeader) {c : ConnKey}
    (hrsp : ResponseOn filterIp c a) (m : RequestMap) :
    (step m (frameEvent filterIp a)).2 = (m.lookup c).map (·, a) := by
  rw [(frameEvent_eq_take_iff ha).mpr ⟨hrsp, rfl⟩, step_take]

omit hplain in
theorem submitted_of_responseOn {a : Arrival} (ha : a.skb.HasPlainIpHeader)
    (hring : a.ringRoom = true) {c : ConnKey} (hrsp : ResponseOn filterIp c a) (m : RequestMap) :
    (socketFilterHttp filterIp a m).submitted = (m.lookup c).map (fillResponse · a) := by
  rw [submitted_socketFilterHttp, step_take_of_responseOn ha hrsp]
  cases m.lookup c with
  | none => rfl
  | some req => simp [submit, hring]

theorem recordsOn_eq (hring : ∀ a ∈ tr, a.ringRoom = true) (c : ConnKey) (m : RequestMap) :
    recordsOn filterIp c m tr
      = (reportsFor c m (tr.map (frameEvent filterIp))).map fun x => fillResponse x.1 x.2 := by
  induction tr generalizing m with
  | nil => rfl
  | cons a tr ih =>
    have ha := hplain a (List.mem_cons_self ..)
    rw [recordsOn, List.map_cons, reportsFor, List.map_append, requestMap_socketFilterHttp,
      ih (fun a' ha' => hplain a' (List.mem_cons_of_mem _ ha'))
        fun a' ha' => hring a' (List.mem_cons_of_mem _ ha')]
    congr 1
    by_cases hrsp : ResponseOn filterIp c a
    · have hon : Event.On c (frameEvent filterIp a) := (on_frameEvent_iff ha).mpr (Or.inr hrsp)
      rw [if_pos hrsp, if_pos hon, step_take_of_responseOn ha hrsp,
        submitted_of_responseOn ha (hring a (List.mem_cons_self ..)) hrsp]
      cases m.lookup c <;> rfl
    · rw [if_neg hrsp]
      by_cases hon : Event.On c (frameEvent filterIp a)
      · -- a request on `c` reports nothing
        have hreq : RequestOn filterIp c a := ((on_frameEvent_iff ha).mp hon).resolve_right hrsp
        obtain ⟨method, hm⟩ := Option.isSome_iff_exists.mp hreq.2.1
        rw [if_pos hon, (frameEvent_eq_put_iff ha).mpr ⟨hreq, method, hm, rfl⟩]
        rfl
      · rw [if_neg hon]
        rfl

theorem map_filter_onConn (c : ConnKey) :
    (tr.filter (OnConn filterIp c ·)).map (frameEvent filterIp)
      = (tr.map (frameEvent filterIp)).filter (Event.On c ·) := by
  rw [List.filter_map]
  congr 1
  refine List.filter_congr fun a ha => ?_
  rw [Function.comp_apply, decide_eq_decide]
  exact (on_frameEvent_iff (hplain a ha)).symm

omit hplain in
/-- The status of a record is what follows the version in the response. -/
theorem status_fillResponse (req : Packet) (a : Arrival) :
    (fillResponse req a).status.toList = (parse a.skb).preChar.toList.drop 9 := by
  apply List.ext_getElem
  · rw [Vector.length_toList, List.length_drop, Vector.length_toList]
    rfl
  · intro i hi _
    have hi3 : i < 3 := by rwa [Vector.length_toList] at hi
    rw [List.getElem_drop, Vector.getElem_toList]
    interval_cases i <;> rfl

omit hplain in
/-- The record the program makes of a request and a response reports the two frames. -/
theorem reports_fillResponse {a b : Arrival} (ha : a.skb.HasPlainIpHeader)
    (hb : b.skb.HasPlainIpHeader) {method : HttpRequestMethod}
    (hm : isHttpRequest a.skb.payload12 = some method) :
    Reports (fillResponse (requestPacket a method) b) a b where
  srcIp := rfl
  dstIp := rfl
  srcPort := congrArg Tcphdr.source (tcph_parse ha)
  dstPort := congrArg Tcphdr.dest (tcph_parse ha)
  method := by
    refine ⟨method, hm, rfl, ?_⟩
    rw [← poffset_parse_eq ha]
    rfl
  reqPayloadSize := payloadSize_parse ha
  status := by
    rw [← preChar_parse hb]
    exact status_fillResponse ..
  rspPayloadSize := payloadSize_parse hb

/-- The request a response answers, and its connection, are unique. -/
theorem Answered.left_unique {c c' : ConnKey} {i i' j : ℕ} {a a' b b' : Arrival}
    (h : Answered filterIp tr c i j a b) (h' : Answered filterIp tr c' i' j a' b') :
    i = i' ∧ c = c' := by
  obtain ⟨_, -, hmatch⟩ := h.exists_method hplain
  obtain ⟨_, -, hmatch'⟩ := h'.exists_method hplain
  have huniq := hmatch.left_unique hmatch'
  exact ⟨huniq.1, huniq.2.1⟩

/-- The response that answers a request is unique. -/
theorem Answered.right_unique {c c' : ConnKey} {i j j' : ℕ} {a a' b b' : Arrival}
    (h : Answered filterIp tr c i j a b) (h' : Answered filterIp tr c' i j' a' b') : j = j' := by
  obtain ⟨_, -, hmatch⟩ := h.exists_method hplain
  obtain ⟨_, -, hmatch'⟩ := h'.exists_method hplain
  exact hmatch.right_unique hmatch'

section Fits

variable (hfit : Fits maxMapConn (tr.map (frameEvent filterIp)))
include hfit

/-- After every prefix `request_map` holds exactly the unanswered requests. -/
theorem lookup_runFrames_take_iff (n : ℕ) (c : ConnKey) (p : Packet) :
    (runFrames filterIp ∅ (tr.take n)).lookup c = some p ↔
      ∃ i a method, Unanswered filterIp (tr.take n) c i a ∧
        isHttpRequest a.skb.payload12 = some method ∧ p = requestPacket a method := by
  have htake : ∀ a ∈ tr.take n, a.skb.HasPlainIpHeader := fun a ha =>
    hplain a (List.mem_of_mem_take ha)
  rw [runFrames_eq, List.map_take, lookup_run _ (hfit.take n), ← List.map_take, slot_eq_some_iff]
  constructor
  · rintro ⟨i, hi⟩
    obtain ⟨a, ha, method, hm, rfl⟩ := (pendingAt_iff_unanswered htake).mp hi
    exact ⟨i, a, method, ha, hm, rfl⟩
  · rintro ⟨i, a, method, ha, hm, rfl⟩
    exact ⟨i, (pendingAt_iff_unanswered htake).mpr ⟨a, ha, method, hm, rfl⟩⟩

variable (hring : ∀ a ∈ tr, a.ringRoom = true)
include hring

/-- The record submitted at the response to a request is made of the two frames. -/
theorem recordAt_of_answered {c : ConnKey} {i j : ℕ} {a b : Arrival}
    (hans : Answered filterIp tr c i j a b) :
    ∃ method, isHttpRequest a.skb.payload12 = some method ∧
      recordAt filterIp ∅ tr j = some (fillResponse (requestPacket a method) b) := by
  obtain ⟨method, hm, hmatch⟩ := hans.exists_method hplain
  refine ⟨method, hm, ?_⟩
  rw [recordAt_eq, (reportAt_eq_some_iff hfit).mpr ⟨c, i, hmatch⟩, Option.bind_some, submit,
    if_pos (hring b (List.mem_of_getElem? hans.2.2.1))]

theorem isSome_recordAt_iff (j : ℕ) :
    (recordAt filterIp ∅ tr j).isSome ↔ ∃ c i a b, Answered filterIp tr c i j a b := by
  constructor
  · intro h
    obtain ⟨p, hp⟩ := Option.isSome_iff_exists.mp h
    rw [recordAt_eq] at hp
    obtain ⟨⟨q, b⟩, hrep, -⟩ := Option.bind_eq_some_iff.mp hp
    obtain ⟨c, i, hmatch⟩ := (reportAt_eq_some_iff hfit).mp hrep
    obtain ⟨a, hans, -⟩ := (matched_iff_answered hplain).mp hmatch
    exact ⟨c, i, a, b, hans⟩
  · rintro ⟨c, i, a, b, hans⟩
    obtain ⟨method, -, hrec⟩ := recordAt_of_answered hplain hfit hring hans
    rw [hrec, Option.isSome_some]

theorem reports_of_answered {c : ConnKey} {i j : ℕ} {a b : Arrival}
    (hans : Answered filterIp tr c i j a b) {p : Packet}
    (hp : recordAt filterIp ∅ tr j = some p) : Reports p a b := by
  obtain ⟨method, hm, hrec⟩ := recordAt_of_answered hplain hfit hring hans
  rw [hrec, Option.some.injEq] at hp
  rw [← hp]
  exact reports_fillResponse (hplain a (List.mem_of_getElem? hans.2.1))
    (hplain b (List.mem_of_getElem? hans.2.2.1)) hm

/-- The records of a connection depend on the frames of that connection alone. -/
theorem recordsOn_eq_filter (c : ConnKey) :
    recordsOn filterIp c ∅ tr = recordsOn filterIp c ∅ (tr.filter (OnConn filterIp c ·)) := by
  have hsub : ∀ a ∈ tr.filter (OnConn filterIp c ·), a ∈ tr := fun a ha =>
    (List.mem_filter.mp ha).1
  rw [recordsOn_eq hplain hring, recordsOn_eq (fun a ha => hplain a (hsub a ha))
    fun a ha => hring a (hsub a ha), map_filter_onConn hplain]
  rw [reportsFor_filter (by decide) c _ hfit]

end Fits

end Trace

/-- **Request/response matching over whole traces.** -/
theorem socketFilterHttp_trace (tr : List Arrival)
    (hplain : ∀ a ∈ tr, a.skb.HasPlainIpHeader) (hring : ∀ a ∈ tr, a.ringRoom = true)
    (hroom : ∀ n (s : Finset ConnKey),
      (∀ c ∈ s, ∃ i a, Unanswered filterIp (tr.take n) c i a) → s.card < maxMapConn) :
    -- a record is submitted at `j` exactly when `j` answers a request
    (∀ j, (recordAt filterIp ∅ tr j).isSome ↔ ∃ c i a b, Answered filterIp tr c i j a b) ∧
    -- it carries the data of the request and of the response
    (∀ j p c i a b, recordAt filterIp ∅ tr j = some p → Answered filterIp tr c i j a b →
      Reports p a b) ∧
    -- a record reports one request, and a request is reported by one record
    (∀ c c' i i' j a a' b b', Answered filterIp tr c i j a b → Answered filterIp tr c' i' j a' b' →
      i = i' ∧ c = c') ∧
    (∀ c c' i j j' a a' b b', Answered filterIp tr c i j a b → Answered filterIp tr c' i j' a' b' →
      j = j') ∧
    -- the records of a connection depend on the frames of that connection alone
    (∀ c, recordsOn filterIp c ∅ tr
      = recordsOn filterIp c ∅ (tr.filter (OnConn filterIp c ·))) ∧
    -- after every prefix `request_map` holds exactly the unanswered requests
    (∀ n c p, (runFrames filterIp ∅ (tr.take n)).lookup c = some p ↔
      ∃ i a method, Unanswered filterIp (tr.take n) c i a ∧
        isHttpRequest a.skb.payload12 = some method ∧ p = requestPacket a method) := by
  have hfit : Fits maxMapConn (tr.map (frameEvent filterIp)) :=
    fits_of_card_unanswered_lt hplain hroom
  refine ⟨fun j => isSome_recordAt_iff hplain hfit hring j, ?_, ?_, ?_, ?_, ?_⟩
  · intro j p c i a b hp hans
    exact reports_of_answered hplain hfit hring hans hp
  · intro c c' i i' j a a' b b' h h'
    exact h.left_unique hplain h'
  · intro c c' i j j' a a' b b' h h'
    exact h.right_unique hplain h'
  · intro c
    exact recordsOn_eq_filter hplain hfit hring c
  · intro n c p
    exact lookup_runFrames_take_iff hplain hfit n c p

/-- Every unanswered request is a frame of its own. -/
theorem card_unanswered_le {tr : List Arrival} {s : Finset ConnKey}
    (h : ∀ c ∈ s, ∃ i a, Unanswered filterIp tr c i a) : s.card ≤ tr.length := by
  choose! pos frame hpos using h
  have hmaps : ∀ c ∈ s, pos c ∈ Finset.range tr.length := by
    intro c hc
    rw [Finset.mem_range]
    exact (List.getElem?_eq_some_iff.mp (hpos c hc).1).1
  have hinj : Set.InjOn pos s := by
    intro c hc c' hc' heq
    obtain ⟨hi, ⟨-, -, hreq⟩, -⟩ := hpos c hc
    obtain ⟨hi', ⟨-, -, hreq'⟩, -⟩ := hpos c' hc'
    rw [heq, hi'] at hi
    rw [← hreq, ← hreq', Option.some.inj hi]
  simpa using Finset.card_le_card_of_injOn pos hmaps hinj

/-! ### Two frames of one connection -/

/-- A `GET` from `client` to port 80 of `server`. -/
def getArrival (client server : Ipv4) (port : UInt8 × UInt8) : Arrival where
  skb := tcpFrame client server port (0, 80) (ascii "GET / HTTP/1.1")
  now := 0
  ringRoom := true

/-- The answer to it. -/
def okArrival (client server : Ipv4) (port : UInt8 × UInt8) : Arrival where
  skb := tcpFrame server client (0, 80) port (ascii "HTTP/1.1 200 OK")
  now := 0
  ringRoom := true

theorem plain_getArrival (client server : Ipv4) (port : UInt8 × UInt8) :
    (getArrival client server port).skb.HasPlainIpHeader := plain_tcpFrame ..

theorem plain_okArrival (client server : Ipv4) (port : UInt8 × UInt8) :
    (okArrival client server port).skb.HasPlainIpHeader := plain_tcpFrame ..

theorem isTcpIpv4_getArrival (client server : Ipv4) (port : UInt8 × UInt8) :
    (getArrival client server port).skb.IsTcpIpv4 := isTcpIpv4_tcpFrame ..

theorem saddr_getArrival (client server : Ipv4) (port : UInt8 × UInt8) :
    (getArrival client server port).skb.iphdr.saddr = client.word := by
  rw [getArrival, iphdr_tcpFrame]

theorem daddr_getArrival (client server : Ipv4) (port : UInt8 × UInt8) :
    (getArrival client server port).skb.iphdr.daddr = server.word := by
  rw [getArrival, iphdr_tcpFrame]

/-- The connection of the two. -/
def sampleConn (client server : Ipv4) (port : UInt8 × UInt8) : ConnKey :=
  ⟨client.word, server.word, le16 port.1 port.2, le16 0 80⟩

variable {filterIp} in
theorem requestOn_getArrival {client : Ipv4} (h : client.word ∉ filterIp) (server : Ipv4)
    (port : UInt8 × UInt8) :
    RequestOn filterIp (sampleConn client server port) (getArrival client server port) := by
  refine ⟨⟨isTcpIpv4_tcpFrame .., ?_⟩, ?_, fourTuple_tcpFrame ..⟩
  · rw [getArrival, iphdr_tcpFrame, checkTargetIp, Bpf.HashMap.lookup_eq_none.mpr h]
    rfl
  · rw [getArrival, payload12_tcpFrame _ _ _ _ _ (by decide)]
    decide

variable {filterIp} in
theorem responseOn_okArrival {client : Ipv4} (h : client.word ∉ filterIp) (server : Ipv4)
    (port : UInt8 × UInt8) :
    ResponseOn filterIp (sampleConn client server port) (okArrival client server port) := by
  refine ⟨⟨isTcpIpv4_tcpFrame .., ?_⟩, ?_, congrArg ConnKey.mirror (fourTuple_tcpFrame ..)⟩
  · rw [okArrival, iphdr_tcpFrame, Bool.or_eq_true, checkTargetIp, checkTargetIp,
      Bpf.HashMap.lookup_eq_none.mpr h]
    exact Or.inr rfl
  · rw [okArrival, payload12_tcpFrame _ _ _ _ _ (by decide)]
    decide

/-- The host `10.0.0.1`. -/
def hostA : Ipv4 := ⟨10, 0, 0, 1⟩

/-- The host `10.0.0.2`. -/
def hostB : Ipv4 := ⟨10, 0, 0, 2⟩

/-- A filter that tracks `hostB` alone. -/
def filterB : FilterIp := (∅ : FilterIp).put hostB.word 1

theorem hostA_not_mem_filterB : hostA.word ∉ filterB := by
  rw [filterB, Bpf.HashMap.mem_put (Or.inr (by decide))]
  decide

theorem socketFilterHttp_trace_of_pair : ∃ p,
    recordAt filterB ∅ [getArrival hostA hostB (200, 1), okArrival hostA hostB (200, 1)] 1
      = some p ∧
    p.method = HttpRequestMethod.get.toUInt32 ∧ p.status.toList = ascii "200" ∧
    p.reqPayloadSize = 14 ∧ p.rspPayloadSize = 15 := by
  set tr := [getArrival hostA hostB (200, 1), okArrival hostA hostB (200, 1)] with htr
  have hreq := requestOn_getArrival hostA_not_mem_filterB hostB (200, 1)
  have hrsp := responseOn_okArrival hostA_not_mem_filterB hostB (200, 1)
  have hplain : ∀ a ∈ tr, a.skb.HasPlainIpHeader := by
    intro a ha
    simp only [htr, List.mem_cons, List.not_mem_nil, or_false] at ha
    rcases ha with rfl | rfl
    · exact plain_getArrival ..
    · exact plain_okArrival ..
  have hring : ∀ a ∈ tr, a.ringRoom = true := by
    intro a ha
    simp only [htr, List.mem_cons, List.not_mem_nil, or_false] at ha
    rcases ha with rfl | rfl <;> rfl
  have hroom : ∀ n (s : Finset ConnKey),
      (∀ c ∈ s, ∃ i a, Unanswered filterB (tr.take n) c i a) → s.card < maxMapConn := by
    intro n s hs
    calc s.card ≤ (tr.take n).length := card_unanswered_le filterB hs
      _ ≤ 2 := by simp [htr]
      _ < maxMapConn := by decide
  obtain ⟨hsubmitted, hcontents, -⟩ := socketFilterHttp_trace filterB tr hplain hring hroom
  have hanswered : Answered filterB tr (sampleConn hostA hostB (200, 1)) 0 1
      (getArrival hostA hostB (200, 1)) (okArrival hostA hostB (200, 1)) :=
    ⟨by decide, rfl, rfl, hreq, hrsp, fun l a hl hlt _ => by omega⟩
  obtain ⟨p, hp⟩ := Option.isSome_iff_exists.mp
    ((hsubmitted 1).mpr ⟨_, 0, _, _, hanswered⟩)
  have hreports := hcontents 1 p _ 0 _ _ hp hanswered
  obtain ⟨m, hm, hmethod, -⟩ := hreports.method
  have hget : isHttpRequest (getArrival hostA hostB (200, 1)).skb.payload12 = some .get := by decide
  rw [hget, Option.some.injEq] at hm
  refine ⟨p, hp, ?_, ?_, ?_, ?_⟩
  · rw [hmethod, ← hm]
  · rw [hreports.status]
    decide
  · rw [hreports.reqPayloadSize]
    decide
  · rw [hreports.rspPayloadSize]
    decide

/-! ### Tracking after any history -/

/-- The program takes the frame for a request on `c`. -/
def SeesRequest (c : ConnKey) (a : Arrival) : Prop :=
  Reaches filterIp a ∧ (isHttpRequest (parse a.skb).preChar).isSome ∧ (parse a.skb).requestKey = c

/-- The program takes the frame for a response on `c`. -/
def SeesResponse (c : ConnKey) (a : Arrival) : Prop :=
  Reaches filterIp a ∧ isHttpResponse (parse a.skb).preChar = true ∧
    (parse a.skb).responseKey = c

theorem seesRequest_iff_requestOn {a : Arrival} (h : a.skb.HasPlainIpHeader) (c : ConnKey) :
    SeesRequest filterIp c a ↔ RequestOn filterIp c a := by
  rw [SeesRequest, RequestOn, preChar_parse h, requestKey_parse h]

theorem seesResponse_iff_responseOn {a : Arrival} (h : a.skb.HasPlainIpHeader) (c : ConnKey) :
    SeesResponse filterIp c a ↔ ResponseOn filterIp c a := by
  rw [SeesResponse, ResponseOn, preChar_parse h, responseKey_parse h]

variable {filterIp} in
theorem on_frameEvent_iff_sees {c : ConnKey} {a : Arrival} :
    Event.On c (frameEvent filterIp a) ↔ SeesRequest filterIp c a ∨ SeesResponse filterIp c a := by
  unfold frameEvent headEvent SeesRequest SeesResponse
  by_cases hr : Reaches filterIp a
  · cases hm : isHttpRequest (parse a.skb).preChar with
    | some method => simp [hr, not_isHttpResponse_of_isHttpRequest hm]
    | none =>
      by_cases hrsp : isHttpResponse (parse a.skb).preChar = true <;> simp [hr, hrsp]
  · simp [hr]

variable {filterIp} in
theorem SeesRequest.frameEvent_eq {c : ConnKey} {a : Arrival} (h : SeesRequest filterIp c a) :
    ∃ method, isHttpRequest (parse a.skb).preChar = some method ∧
      frameEvent filterIp a = .put c (requestPacket a method) := by
  obtain ⟨hr, hreq, rfl⟩ := h
  obtain ⟨method, hm⟩ := Option.isSome_iff_exists.mp hreq
  refine ⟨method, hm, ?_⟩
  rw [frameEvent, if_pos hr, headEvent]
  simp only [hm]

variable {filterIp} in
theorem SeesResponse.frameEvent_eq {c : ConnKey} {a : Arrival} (h : SeesResponse filterIp c a) :
    frameEvent filterIp a = .take c a := by
  obtain ⟨hr, hrsp, rfl⟩ := h
  have hnone : isHttpRequest (parse a.skb).preChar = none := by
    cases hm : isHttpRequest (parse a.skb).preChar with
    | none => rfl
    | some method =>
      rw [not_isHttpResponse_of_isHttpRequest hm] at hrsp
      exact absurd hrsp Bool.false_ne_true
  rw [frameEvent, if_pos hr, headEvent]
  simp only [hnone, hrsp, if_true]

/-- After the history `h`, the request `r`, the frames `mid` and the response `s`, a record of `r`
and `s` is submitted. -/
def Tracked (h : List Arrival) (r : Arrival) (mid : List Arrival) (s : Arrival) : Prop :=
  ∃ method, isHttpRequest (parse r.skb).preChar = some method ∧
    recordAt filterIp ∅ (h ++ (r :: mid) ++ [s]) (h ++ (r :: mid)).length
      = some (fillResponse (requestPacket r method) s)

theorem recordAt_append (m : RequestMap) (h tr : List Arrival) (j : ℕ) :
    recordAt filterIp m (h ++ tr) (h.length + j)
      = recordAt filterIp (runFrames filterIp m h) tr j := by
  have hget : (h ++ tr)[h.length + j]? = tr[j]? := by
    rw [List.getElem?_append_right (Nat.le_add_right ..), Nat.add_sub_cancel_left]
  have htake : (h ++ tr).take (h.length + j) = h ++ tr.take j := by
    rw [List.take_append, List.take_of_length_le (Nat.le_add_right ..), Nat.add_sub_cancel_left]
  rw [recordAt, recordAt, hget, htake, runFrames_append]

section Tracked

variable {filterIp} {h mid : List Arrival} {r s : Arrival} {c : ConnKey}
  (hr : SeesRequest filterIp c r)
  (hmid : ∀ x ∈ mid, ¬ SeesRequest filterIp c x ∧ ¬ SeesResponse filterIp c x)
  (hs : SeesResponse filterIp c s)
include hr hmid hs

/-- The record of a request that finds the map `m` and is answered later. -/
theorem recordAt_request_response (m : RequestMap) : ∃ method,
    isHttpRequest (parse r.skb).preChar = some method ∧
    recordAt filterIp m (r :: mid ++ [s]) (r :: mid).length
      = if m.HasRoom c then submit (requestPacket r method, s) else none := by
  obtain ⟨method, hm, hput⟩ := hr.frameEvent_eq
  refine ⟨method, hm, ?_⟩
  have hquiet : ∀ e ∈ mid.map (frameEvent filterIp), ¬ Event.On c e := by
    intro e he
    obtain ⟨x, hx, rfl⟩ := List.mem_map.mp he
    rw [on_frameEvent_iff_sees]
    exact not_or.mpr (hmid x hx)
  have hstep := report_put_take m c (requestPacket r method) s _ hquiet
  rw [recordAt, List.getElem?_concat_length, Option.bind_some, List.take_left,
    submitted_socketFilterHttp, hs.frameEvent_eq, runFrames_eq, List.map_cons, hput, hstep]
  split_ifs <;> rfl

variable (hring : s.ringRoom = true)
include hring

theorem recordAt_after_history : ∃ method,
    isHttpRequest (parse r.skb).preChar = some method ∧
    recordAt filterIp ∅ (h ++ (r :: mid) ++ [s]) (h ++ (r :: mid)).length
      = if (runFrames filterIp ∅ h).HasRoom c then some (fillResponse (requestPacket r method) s)
        else none := by
  obtain ⟨method, hm, hrec⟩ := recordAt_request_response hr hmid hs (runFrames filterIp ∅ h)
  refine ⟨method, hm, ?_⟩
  rw [List.append_assoc, List.length_append, recordAt_append, hrec, submit, if_pos hring]

theorem tracked_iff_hasRoom :
    Tracked filterIp h r mid s ↔ (runFrames filterIp ∅ h).HasRoom c := by
  obtain ⟨method, hm, hrec⟩ := recordAt_after_history hr hmid hs hring (h := h)
  unfold Tracked
  rw [hrec]
  constructor
  · rintro ⟨_, -, hsome⟩
    by_contra hroom
    rw [if_neg hroom] at hsome
    cases hsome
  · intro hroom
    exact ⟨method, hm, if_pos hroom⟩

end Tracked

theorem tracked_iff_hasRoom_of_empty :
    Tracked filterB [] (getArrival hostA hostB (200, 1)) [] (okArrival hostA hostB (200, 1)) := by
  have hreq := requestOn_getArrival hostA_not_mem_filterB hostB (200, 1)
  have hrsp := responseOn_okArrival hostA_not_mem_filterB hostB (200, 1)
  rw [← seesRequest_iff_requestOn filterB (plain_getArrival ..)] at hreq
  rw [← seesResponse_iff_responseOn filterB (plain_okArrival ..)] at hrsp
  refine (tracked_iff_hasRoom hreq ?_ hrsp rfl).mpr (Or.inr (by decide))
  intro x hx
  cases hx

/-! ### A history that fills the map -/

/-- The bytes of a port. -/
def portBytes (i : ℕ) : UInt8 × UInt8 := (UInt8.ofNat (i / 256), UInt8.ofNat i)

theorem portBytes_inj {i j : ℕ} (hi : i < 2 ^ 16) (hj : j < 2 ^ 16)
    (h : sampleConn hostA hostB (portBytes i) = sampleConn hostA hostB (portBytes j)) : i = j := by
  have hport : le16 (portBytes i).1 (portBytes i).2 = le16 (portBytes j).1 (portBytes j).2 :=
    congrArg ConnKey.srcPort h
  have hnat := congrArg UInt16.toNat hport
  simp only [toNat_le16, natLE, portBytes, UInt8.toNat_ofNat'] at hnat
  omega

/-- Requests from as many ports of `hostA` as `request_map` has entries. -/
def abandoned : List Arrival :=
  (List.range maxMapConn).map fun i => getArrival hostA hostB (portBytes i)

theorem frameEvent_getArrival (port : UInt8 × UInt8) :
    frameEvent filterB (getArrival hostA hostB port)
      = .put (sampleConn hostA hostB port) (requestPacket (getArrival hostA hostB port) .get) := by
  refine (frameEvent_eq_put_iff (plain_getArrival ..)).mpr
    ⟨requestOn_getArrival hostA_not_mem_filterB hostB port, .get, ?_, rfl⟩
  rw [getArrival, payload12_tcpFrame _ _ _ _ _ (by decide)]
  decide

theorem keys_runFrames_abandoned :
    (runFrames filterB ∅ abandoned).keys
      = ((List.range maxMapConn).map fun i => sampleConn hostA hostB (portBytes i)).toFinset := by
  have hmap : abandoned.map (frameEvent filterB) = (List.range maxMapConn).map fun i =>
      .put (sampleConn hostA hostB (portBytes i))
        (requestPacket (getArrival hostA hostB (portBytes i)) .get) := by
    rw [abandoned, List.map_map]
    refine List.map_congr_left fun i _ => ?_
    rw [Function.comp_apply, frameEvent_getArrival]
  have hbound : ∀ i ∈ List.range maxMapConn, i < 2 ^ 16 := by
    intro i hi
    have hlt := List.mem_range.mp hi
    rw [maxMapConn] at hlt
    omega
  have hnodup : ((List.range maxMapConn).map fun i =>
      sampleConn hostA hostB (portBytes i)).Nodup :=
    List.Nodup.map_on (fun i hi j hj h => portBytes_inj (hbound i hi) (hbound j hj) h)
      List.nodup_range
  have hlen : (List.range maxMapConn).length ≤ maxMapConn := le_of_eq List.length_range
  rw [runFrames_eq, hmap]
  exact keys_run_puts _ _ _ hnodup hlen

/-- The port no abandoned request came from. -/
def freshPort : UInt8 × UInt8 := portBytes maxMapConn

theorem not_hasRoom_abandoned :
    ¬ (runFrames filterB ∅ abandoned).HasRoom (sampleConn hostA hostB freshPort) := by
  have hbound : maxMapConn < 2 ^ 16 := by norm_num [maxMapConn]
  rw [Bpf.HashMap.not_hasRoom_iff, ← Bpf.HashMap.mem_keys, Bpf.HashMap.size,
    keys_runFrames_abandoned]
  have hinj : ∀ i ∈ List.range maxMapConn, ∀ j ∈ List.range maxMapConn,
      sampleConn hostA hostB (portBytes i) = sampleConn hostA hostB (portBytes j) → i = j := by
    intro i hi j hj h
    exact portBytes_inj ((List.mem_range.mp hi).trans hbound)
      ((List.mem_range.mp hj).trans hbound) h
  constructor
  · rw [List.mem_toFinset, List.mem_map]
    rintro ⟨i, hi, heq⟩
    have hlt := List.mem_range.mp hi
    have := portBytes_inj (hlt.trans hbound) hbound heq
    omega
  · rw [List.toFinset_card_of_nodup (List.Nodup.map_on hinj List.nodup_range), List.length_map,
      List.length_range]

/-- After `maxMapConn` requests that are never answered, the next exchange is not reported. -/
theorem not_tracked_after_abandoned :
    (∀ a ∈ abandoned, Reaches filterB a) ∧
    SeesRequest filterB (sampleConn hostA hostB freshPort) (getArrival hostA hostB freshPort) ∧
    SeesResponse filterB (sampleConn hostA hostB freshPort) (okArrival hostA hostB freshPort) ∧
    (okArrival hostA hostB freshPort).ringRoom = true ∧
    ¬ Tracked filterB abandoned (getArrival hostA hostB freshPort) []
        (okArrival hostA hostB freshPort) := by
  have hreq := requestOn_getArrival hostA_not_mem_filterB hostB freshPort
  have hrsp := responseOn_okArrival hostA_not_mem_filterB hostB freshPort
  rw [← seesRequest_iff_requestOn filterB (plain_getArrival ..)] at hreq
  rw [← seesResponse_iff_responseOn filterB (plain_okArrival ..)] at hrsp
  refine ⟨?_, hreq, hrsp, rfl, ?_⟩
  · intro a ha
    obtain ⟨i, -, rfl⟩ := List.mem_map.mp ha
    exact (requestOn_getArrival hostA_not_mem_filterB hostB (portBytes i)).1
  · rintro ⟨_, -, hsome⟩
    have hquiet : ∀ x ∈ ([] : List Arrival), ¬ SeesRequest filterB
        (sampleConn hostA hostB freshPort) x ∧ ¬ SeesResponse filterB
        (sampleConn hostA hostB freshPort) x := by
      intro x hx
      cases hx
    obtain ⟨_, -, hrec⟩ := recordAt_after_history hreq hquiet hrsp rfl (h := abandoned)
    rw [hrec, if_neg not_hasRoom_abandoned] at hsome
    cases hsome

end Kubebpfbox.Http
