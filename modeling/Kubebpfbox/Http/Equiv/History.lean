import Kubebpfbox.Http.Equiv.Trace
import Kubebpfbox.Http.Equiv.Url
import Kubebpfbox.Http.Process
import Kubebpfbox.Lib.Queues

/-!
# Traces in which `filter_ip` changes

The kernel program on frames that each meet contents of `filter_ip` of their own, with headers of
any size, a `request_map` of any fill and a ring buffer that may be full.

`records_are_exchanges`: a record is submitted at a response exactly when the response closes a
request that found room, and the ring buffer has room; it is made of these two frames.
`request_map` holds the requests that found room and are not closed.
-/

namespace Kubebpfbox.Http

open Golang Slots

/-- What a frame does to `request_map`. -/
def Frame.event (x : Frame) : Event ConnKey Packet Arrival := frameEvent x.1 x.2

/-- What the frames of a trace do. -/
def frameEvents (tr : List Frame) : List (Event ConnKey Packet Arrival) := tr.map Frame.event

/-- The frame is taken for a request on `c`. -/
def Frame.SeesRequest (c : ConnKey) (x : Frame) : Prop := Http.SeesRequest x.1 c x.2

/-- The frame is taken for a response on `c`. -/
def Frame.SeesResponse (c : ConnKey) (x : Frame) : Prop := Http.SeesResponse x.1 c x.2

/-- Frame `j` is taken for a response, frame `i` for a request on the same connection, and no frame
between them is taken for either on this connection. -/
structure ExchangeAt (tr : List Frame) (c : ConnKey) (i j : ℕ) (r s : Frame) : Prop where
  lt : i < j
  request : tr[i]? = some r
  response : tr[j]? = some s
  seesRequest : r.SeesRequest c
  seesResponse : s.SeesResponse c
  idle : ∀ l x, i < l → l < j → tr[l]? = some x → ¬ x.SeesRequest c ∧ ¬ x.SeesResponse c

/-- Frame `i` is taken for a request on `c`, and no later frame is taken for a request or a response
on `c`. -/
structure Open (tr : List Frame) (c : ConnKey) (i : ℕ) (r : Frame) : Prop where
  request : tr[i]? = some r
  seesRequest : r.SeesRequest c
  idle : ∀ l x, i < l → tr[l]? = some x → ¬ x.SeesRequest c ∧ ¬ x.SeesResponse c

/-- The method the program finds in the frame. -/
def Frame.method? (x : Frame) : Option HttpRequestMethod := isHttpRequest (parse x.2.skb).preChar

/-! ### The program is a slot machine -/

theorem requestMapAfter_eq (m : RequestMap) (tr : List Frame) :
    requestMapAfter m tr = run m (frameEvents tr) := by
  induction tr generalizing m with
  | nil => rfl
  | cons x tr ih =>
    show requestMapAfter (socketFilterHttp x.1 x.2 m).requestMap tr = run (step m x.event).1 _
    rw [ih, requestMap_socketFilterHttp]
    rfl

theorem submittedAt_eq (m : RequestMap) (tr : List Frame) (j : ℕ) :
    submittedAt m tr j = (reportAt m (frameEvents tr) j).bind submit := by
  unfold submittedAt reportAt frameEvents
  rw [List.getElem?_map]
  cases tr[j]? with
  | none => rfl
  | some x =>
    rw [Option.bind_some, Option.map_some, Option.bind_some, submitted_socketFilterHttp,
      requestMapAfter_eq, frameEvents, List.map_take]
    rfl

theorem event_eq_put_iff {x : Frame} {c : ConnKey} {p : Packet} : x.event = .put c p ↔
    x.SeesRequest c ∧ ∃ method, x.method? = some method ∧ p = requestPacket x.2 method := by
  unfold Frame.event Frame.SeesRequest SeesRequest frameEvent headEvent Frame.method?
  by_cases hr : Reaches x.1 x.2
  · cases hm : isHttpRequest (parse x.2.skb).preChar with
    | some method => simp [hr, eq_comm]
    | none =>
      by_cases hrsp : isHttpResponse (parse x.2.skb).preChar = true <;> simp [hr, hrsp]
  · simp [hr]

theorem event_eq_take_iff {x : Frame} {c : ConnKey} {s : Arrival} :
    x.event = .take c s ↔ x.SeesResponse c ∧ s = x.2 := by
  unfold Frame.event Frame.SeesResponse SeesResponse frameEvent headEvent
  by_cases hr : Reaches x.1 x.2
  · cases hm : isHttpRequest (parse x.2.skb).preChar with
    | some method => simp [hr, not_isHttpResponse_of_isHttpRequest hm]
    | none =>
      by_cases hrsp : isHttpResponse (parse x.2.skb).preChar = true <;> simp [hr, hrsp, eq_comm]
  · simp [hr]

section ExchangeAt

variable {tr : List Frame} {c c' : ConnKey} {i i' j j' : ℕ} {r r' s s' : Frame}

theorem getElem?_history_eq_put_iff {p : Packet} : (frameEvents tr)[i]? = some (.put c p) ↔
    ∃ r, tr[i]? = some r ∧ r.SeesRequest c ∧
      ∃ method, r.method? = some method ∧ p = requestPacket r.2 method := by
  rw [frameEvents, List.getElem?_map, Option.map_eq_some_iff]
  exact exists_congr fun r => and_congr_right fun _ => event_eq_put_iff

theorem getElem?_history_eq_take_iff {b : Arrival} : (frameEvents tr)[j]? = some (.take c b) ↔
    ∃ s, tr[j]? = some s ∧ s.SeesResponse c ∧ b = s.2 := by
  rw [frameEvents, List.getElem?_map, Option.map_eq_some_iff]
  exact exists_congr fun s => and_congr_right fun _ => event_eq_take_iff

theorem quiet_events_iff : Quiet (frameEvents tr) c i j ↔
    ∀ l x, i < l → l < j → tr[l]? = some x → ¬ x.SeesRequest c ∧ ¬ x.SeesResponse c := by
  constructor
  · intro hq l x hl hlt hx
    have hoff := hq l x.event hl hlt (by rw [frameEvents, List.getElem?_map, hx]; rfl)
    rw [Frame.event, on_frameEvent_iff_sees] at hoff
    exact not_or.mp hoff
  · intro h l e hl hlt he
    rw [frameEvents, List.getElem?_map, Option.map_eq_some_iff] at he
    obtain ⟨x, hx, rfl⟩ := he
    rw [Frame.event, on_frameEvent_iff_sees]
    exact not_or.mpr (h l x hl hlt hx)

theorem matched_events_iff {p : Packet} {b : Arrival} : Matched (frameEvents tr) c i j p b ↔
    ∃ r s method, ExchangeAt tr c i j r s ∧ r.method? = some method ∧
      p = requestPacket r.2 method ∧ b = s.2 := by
  unfold Matched
  rw [getElem?_history_eq_put_iff, getElem?_history_eq_take_iff, quiet_events_iff]
  constructor
  · rintro ⟨hij, ⟨r, hr, hreq, method, hm, hp⟩, ⟨s, hs, hrsp, hb⟩, hidle⟩
    exact ⟨r, s, method, ⟨hij, hr, hs, hreq, hrsp, hidle⟩, hm, hp, hb⟩
  · rintro ⟨r, s, method, h, hm, hp, hb⟩
    exact ⟨h.lt, ⟨r, h.request, h.seesRequest, method, hm, hp⟩,
      ⟨s, h.response, h.seesResponse, hb⟩, h.idle⟩

theorem ExchangeAt.exists_method (h : ExchangeAt tr c i j r s) : ∃ method,
    r.method? = some method ∧ Matched (frameEvents tr) c i j (requestPacket r.2 method) s.2 := by
  obtain ⟨method, hm⟩ := Option.isSome_iff_exists.mp h.seesRequest.2.1
  exact ⟨method, hm, matched_events_iff.mpr ⟨r, s, method, h, hm, rfl, rfl⟩⟩

/-- A response closes one request. -/
theorem ExchangeAt.left_unique (h : ExchangeAt tr c i j r s) (h' : ExchangeAt tr c' i' j r' s') :
    i = i' ∧ c = c' := by
  obtain ⟨_, -, hmatch⟩ := h.exists_method
  obtain ⟨_, -, hmatch'⟩ := h'.exists_method
  obtain ⟨hi, hc, -, -⟩ := hmatch.left_unique hmatch'
  exact ⟨hi, hc⟩

/-- A request is closed by one response. -/
theorem ExchangeAt.right_unique (h : ExchangeAt tr c i j r s) (h' : ExchangeAt tr c' i j' r' s') :
    j = j' := by
  obtain ⟨_, -, hmatch⟩ := h.exists_method
  obtain ⟨_, -, hmatch'⟩ := h'.exists_method
  exact hmatch.right_unique hmatch'

theorem pendingAt_events_iff {p : Packet} : PendingAt (frameEvents tr) c i p ↔
    ∃ r method, Open tr c i r ∧ r.method? = some method ∧ p = requestPacket r.2 method := by
  have hlen : (frameEvents tr).length = tr.length := List.length_map _
  have hin : ∀ {l : ℕ} {x : Frame}, tr[l]? = some x → l < tr.length := fun h =>
    (List.getElem?_eq_some_iff.mp h).1
  unfold PendingAt
  rw [getElem?_history_eq_put_iff, quiet_events_iff, hlen]
  constructor
  · rintro ⟨⟨r, hr, hreq, method, hm, hp⟩, hidle⟩
    exact ⟨r, method, ⟨hr, hreq, fun l x hl hx => hidle l x hl (hin hx) hx⟩, hm, hp⟩
  · rintro ⟨r, method, h, hm, hp⟩
    exact ⟨⟨r, h.request, h.seesRequest, method, hm, hp⟩, fun l x hl _ hx => h.idle l x hl hx⟩

theorem requestMapAfter_take (i : ℕ) :
    requestMapAfter ∅ (tr.take i) = run ∅ ((frameEvents tr).take i) := by
  rw [requestMapAfter_eq, frameEvents, List.map_take, frameEvents]

/-- `request_map` holds the open requests that found room. -/
theorem lookup_requestMapAfter_iff {p : Packet} : (requestMapAfter ∅ tr).lookup c = some p ↔
    ∃ i r method, Open tr c i r ∧ r.method? = some method ∧
      (requestMapAfter ∅ (tr.take i)).HasRoom c ∧ p = requestPacket r.2 method := by
  rw [requestMapAfter_eq, lookup_run_eq_some_iff]
  constructor
  · rintro ⟨i, hpend, hroom⟩
    obtain ⟨r, method, hopen, hm, hp⟩ := pendingAt_events_iff.mp hpend
    exact ⟨i, r, method, hopen, hm, by rwa [requestMapAfter_take], hp⟩
  · rintro ⟨i, r, method, hopen, hm, hroom, hp⟩
    rw [requestMapAfter_take] at hroom
    exact ⟨i, pendingAt_events_iff.mpr ⟨r, method, hopen, hm, hp⟩, hroom⟩

/-- What is submitted is made of an exchange whose request found room. -/
theorem submittedAt_eq_some_iff {p : Packet} : submittedAt ∅ tr j = some p ↔
    ∃ c i r s method, ExchangeAt tr c i j r s ∧ r.method? = some method ∧
      (requestMapAfter ∅ (tr.take i)).HasRoom c ∧ s.2.ringRoom = true ∧
      p = fillResponse (requestPacket r.2 method) s.2 := by
  rw [submittedAt_eq, Option.bind_eq_some_iff]
  constructor
  · rintro ⟨⟨q, b⟩, hrep, hsub⟩
    obtain ⟨c, i, hmatch, hroom⟩ := reportAt_eq_some_iff_hasRoom.mp hrep
    obtain ⟨r, s, method, hex, hm, rfl, rfl⟩ := matched_events_iff.mp hmatch
    rw [← requestMapAfter_take] at hroom
    unfold submit at hsub
    split_ifs at hsub with hring
    exact ⟨c, i, r, s, method, hex, hm, hroom, hring, (Option.some.inj hsub).symm⟩
  · rintro ⟨c, i, r, s, method, hex, hm, hroom, hring, rfl⟩
    refine ⟨(requestPacket r.2 method, s.2), ?_, if_pos hring⟩
    rw [reportAt_eq_some_iff_hasRoom]
    refine ⟨c, i, matched_events_iff.mpr ⟨r, s, method, hex, hm, rfl, rfl⟩, ?_⟩
    rwa [← requestMapAfter_take]

end ExchangeAt

/-- **Every record is one exchange**, whatever `filter_ip` holds in the meantime, whatever the
frames look like and however full the maps are. -/
theorem records_are_exchanges (tr : List Frame) :
    (∀ j p, submittedAt ∅ tr j = some p ↔
      ∃ c i r s method, ExchangeAt tr c i j r s ∧ r.method? = some method ∧
        (requestMapAfter ∅ (tr.take i)).HasRoom c ∧ s.2.ringRoom = true ∧
        p = fillResponse (requestPacket r.2 method) s.2) ∧
    -- a response closes one request, and a request is closed by one response
    (∀ c c' i i' j r r' s s', ExchangeAt tr c i j r s → ExchangeAt tr c' i' j r' s' →
      i = i' ∧ c = c') ∧
    (∀ c c' i j j' r r' s s', ExchangeAt tr c i j r s → ExchangeAt tr c' i j' r' s' → j = j') ∧
    -- what is not closed is in `request_map`
    ∀ c p, (requestMapAfter ∅ tr).lookup c = some p ↔
      ∃ i r method, Open tr c i r ∧ r.method? = some method ∧
        (requestMapAfter ∅ (tr.take i)).HasRoom c ∧ p = requestPacket r.2 method := by
  refine ⟨fun j p => submittedAt_eq_some_iff, ?_, ?_, fun c p => lookup_requestMapAfter_iff⟩
  · intro c c' i i' j r r' s s' h h'
    exact h.left_unique h'
  · intro c c' i j j' r r' s s' h h'
    exact h.right_unique h'

end Kubebpfbox.Http
