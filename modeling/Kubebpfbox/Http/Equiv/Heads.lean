import Kubebpfbox.Http.Equiv.AddressFilter
import Kubebpfbox.Http.Equiv.Url

/-!
# Which frames change state

`isHttpRequest` compares the letters of a method and not the blank behind them, and
`isHttpResponse` four letters and not the slash.  So a segment from the middle of a body can pass for
the head of a message: it overwrites the request that is pending on its connection, or closes it.

`onlyHeads_iff` says exactly for which frames the program does no more than a real head would allow;
`onlyHeads_plain_iff` says it in terms of the payload alone, for frames without IP options.
-/

namespace Kubebpfbox.Http

open Golang Slots

/-! ### Heads of messages -/

namespace SkBuff

/-- The TCP payload. -/
def payload (skb : SkBuff) : List UInt8 := skb.data.drop skb.payloadOffset

/-- The payload starts like a request line: with a method and a blank. -/
def StartsRequest (skb : SkBuff) : Prop :=
  ∃ method : HttpRequestMethod, method.name ++ ascii " " <+: skb.payload

/-- The payload starts like a status line: with the protocol and a slash. -/
def StartsResponse (skb : SkBuff) : Prop := ascii "HTTP/" <+: skb.payload

theorem toList_payload12 {skb : SkBuff} (h : skb.payloadOffset + 12 ≤ skb.data.length) :
    skb.payload12.toList = skb.payload.take 12 := by
  have hoff : (UInt32.ofNat skb.payloadOffset).toNat = skb.payloadOffset := by
    have hihl : skb.iphdr.ihl.toNat ≤ 15 := ihl_le skb
    have hdoff : skb.tcpHeader.doff.toNat ≤ 15 := doff_le skb _
    rw [UInt32.toNat_ofNat', payloadOffset, tcpOffset]
    omega
  have hle : (UInt32.ofNat skb.payloadOffset).toNat + 12 ≤ skb.data.length := by rwa [hoff]
  have hbyte : ∀ i (hi : i < 12), skb.payload12[i] = skb.data.getD (skb.payloadOffset + i) 0 := by
    intro i hi
    unfold payload12
    rw [getElem_bpfSkbLoadBytes hle, hoff]
  apply List.ext_getElem
  · rw [Vector.length_toList, payload, List.length_take, List.length_drop]
    omega
  · intro i hi _
    have hi12 : i < 12 := by rwa [Vector.length_toList] at hi
    have hin : skb.payloadOffset + i < skb.data.length := by omega
    rw [Vector.getElem_toList, hbyte i hi12, List.getD_eq_getElem?_getD,
      List.getElem?_eq_getElem hin, Option.getD_some]
    simp only [payload, List.getElem_take, List.getElem_drop]

end SkBuff

/-! ### What the program takes for a head -/

variable {a : Arrival}

theorem headEvent_eq_put_iff :
    (∃ k p, headEvent a = .put k p) ↔ (isHttpRequest (parse a.skb).preChar).isSome := by
  unfold headEvent
  cases isHttpRequest (parse a.skb).preChar with
  | some method => simp
  | none => by_cases hrsp : isHttpResponse (parse a.skb).preChar = true <;> simp [hrsp]

theorem headEvent_eq_take_iff :
    (∃ k b, headEvent a = .take k b) ↔ isHttpResponse (parse a.skb).preChar = true := by
  unfold headEvent
  cases hm : isHttpRequest (parse a.skb).preChar with
  | some method => simp [not_isHttpResponse_of_isHttpRequest hm]
  | none => by_cases hrsp : isHttpResponse (parse a.skb).preChar = true <;> simp [hrsp]

/-! ### The frames that change state -/

/-- The frame changes no more than its payload allows: only a request line writes to `request_map`,
and only a status line submits a record or deletes an entry. -/
structure OnlyHeads (filterIp : FilterIp) (a : Arrival) (m : RequestMap) : Prop where
  writes : m.Writes (socketFilterHttp filterIp a m).requestMap → a.skb.StartsRequest
  drops : (socketFilterHttp filterIp a m).submitted.isSome ∨
    m.Drops (socketFilterHttp filterIp a m).requestMap → a.skb.StartsResponse
  other : ¬ a.skb.StartsRequest → ¬ a.skb.StartsResponse →
    (socketFilterHttp filterIp a m).requestMap = m ∧
      (socketFilterHttp filterIp a m).submitted = none

variable {filterIp : FilterIp} {m : RequestMap}

/-- A frame that changes nothing keeps to its payload. -/
theorem OnlyHeads.of_unchanged (hmap : (socketFilterHttp filterIp a m).requestMap = m)
    (hnone : (socketFilterHttp filterIp a m).submitted = none) : OnlyHeads filterIp a m where
  writes h := by
    rw [hmap] at h
    exact absurd h (Bpf.HashMap.not_writes_self m)
  drops h := by
    rw [hmap, hnone] at h
    exact absurd (h.resolve_left Bool.false_ne_true) (Bpf.HashMap.not_drops_self m)
  other _ _ := ⟨hmap, hnone⟩

section Finds

variable (hr : Reaches filterIp a)
include hr

/-- A record is submitted for an entry that is deleted. -/
theorem drops_of_submitted (h : (socketFilterHttp filterIp a m).submitted.isSome) :
    m.Drops (socketFilterHttp filterIp a m).requestMap := by
  obtain ⟨p, hp⟩ := Option.isSome_iff_exists.mp h
  rw [socketFilterHttp_of_reaches filterIp hr, submitted_classify] at hp
  obtain ⟨x, hx, -⟩ := Option.bind_eq_some_iff.mp hp
  rw [socketFilterHttp_of_reaches filterIp hr, requestMap_classify]
  exact drops_step_of_report hx

variable (hfinds : ¬ FindsNothing a m)
include hfinds

theorem writes_iff_of_finds : m.Writes (socketFilterHttp filterIp a m).requestMap ↔
    (isHttpRequest (parse a.skb).preChar).isSome := by
  rw [socketFilterHttp_of_reaches filterIp hr, requestMap_classify, writes_step_iff,
    headEvent_eq_put_iff]
  exact and_iff_left hfinds

theorem drops_iff_of_finds : m.Drops (socketFilterHttp filterIp a m).requestMap ↔
    isHttpResponse (parse a.skb).preChar = true := by
  rw [socketFilterHttp_of_reaches filterIp hr, requestMap_classify, drops_step_iff,
    headEvent_eq_take_iff]
  exact and_iff_left hfinds

/-- A frame that is classified and finds something to change. -/
theorem onlyHeads_iff_of_finds : OnlyHeads filterIp a m ↔
    ((isHttpRequest (parse a.skb).preChar).isSome ∧ a.skb.StartsRequest) ∨
    (isHttpResponse (parse a.skb).preChar = true ∧ a.skb.StartsResponse) := by
  have hwrites := writes_iff_of_finds hr hfinds
  have hdrops := drops_iff_of_finds hr hfinds
  constructor
  · intro h
    by_cases hreq : (isHttpRequest (parse a.skb).preChar).isSome
    · exact Or.inl ⟨hreq, h.writes (hwrites.mpr hreq)⟩
    · by_cases hrsp : isHttpResponse (parse a.skb).preChar = true
      · exact Or.inr ⟨hrsp, h.drops (Or.inr (hdrops.mpr hrsp))⟩
      · -- the program takes the frame for no head at all
        refine absurd ?_ hfinds
        rw [FindsNothing, headEvent, Option.not_isSome_iff_eq_none.mp hreq]
        simp only [hrsp, Bool.false_eq_true, if_false]
        trivial
  · rintro (⟨hreq, hstarts⟩ | ⟨hrsp, hstarts⟩)
    · obtain ⟨method, hm⟩ := Option.isSome_iff_exists.mp hreq
      -- a request is no response, so it takes no stored request away
      have hnot : ¬ isHttpResponse (parse a.skb).preChar = true := by
        rw [not_isHttpResponse_of_isHttpRequest hm]
        exact Bool.false_ne_true
      exact ⟨fun _ => hstarts,
        fun h => absurd (hdrops.mp (h.elim (drops_of_submitted hr) id)) hnot,
        fun hno => absurd hstarts hno⟩
    · have hnot : ¬ (isHttpRequest (parse a.skb).preChar).isSome := by
        intro hreq
        obtain ⟨method, hm⟩ := Option.isSome_iff_exists.mp hreq
        rw [not_isHttpResponse_of_isHttpRequest hm] at hrsp
        exact Bool.false_ne_true hrsp
      exact ⟨fun h => absurd (hwrites.mp h) hnot, fun _ => hstarts,
        fun _ hno => absurd hstarts hno⟩

end Finds

/-- A frame that is not classified, or finds nothing to change. -/
theorem onlyHeads_of_idle (h : ¬ Reaches filterIp a ∨ FindsNothing a m) :
    OnlyHeads filterIp a m := by
  by_cases hr : Reaches filterIp a
  · have hnothing : FindsNothing a m := h.resolve_left (not_not_intro hr)
    apply OnlyHeads.of_unchanged
    · rw [socketFilterHttp_of_reaches filterIp hr, requestMap_classify, step_fst_eq_self_iff]
      exact hnothing
    · rw [socketFilterHttp_of_reaches filterIp hr, submitted_classify,
        Inert.report_eq_none hnothing, Option.bind_none]
  · have hsame := socketFilterHttp_of_not_reaches filterIp hr m
    exact OnlyHeads.of_unchanged hsame.1 hsame.2

/-- **Only heads of messages change state**, exactly when the frame is dropped by the address filter,
finds nothing to change, or is the kind of head the program takes it for. -/
theorem onlyHeads_iff (filterIp : FilterIp) (a : Arrival) (m : RequestMap) :
    OnlyHeads filterIp a m ↔ ¬ Reaches filterIp a ∨ FindsNothing a m ∨
      ((isHttpRequest (parse a.skb).preChar).isSome ∧ a.skb.StartsRequest) ∨
      (isHttpResponse (parse a.skb).preChar = true ∧ a.skb.StartsResponse) := by
  rw [← or_assoc]
  by_cases hidle : ¬ Reaches filterIp a ∨ FindsNothing a m
  · exact iff_of_true (onlyHeads_of_idle hidle) (Or.inl hidle)
  · obtain ⟨hr, hfinds⟩ := not_or.mp hidle
    rw [onlyHeads_iff_of_finds (not_not.mp hr) hfinds]
    exact (or_iff_right hidle).symm

/-! ### Frames without IP options -/

/-- No name of a method starts with that of another. -/
theorem HttpRequestMethod.eq_of_name_prefix {m m' : HttpRequestMethod} (h : m.name <+: m'.name) :
    m = m' := by
  revert h
  rcases m with _ | _ | _ | _ | _ | _ <;> rcases m' with _ | _ | _ | _ | _ | _ <;> decide

/-- What starts with the letters of a method is taken for a request. -/
theorem isHttpRequest_of_startsWith {p : Vector UInt8 12} {method : HttpRequestMethod}
    (h : method.name <+: p.toList) : isHttpRequest p = some method := by
  have hbyte : ∀ i (hi : i < method.name.length) (hi12 : i < 12), p[i] = method.name[i] := by
    intro i hi hi12
    rw [h.getElem hi, Vector.getElem_toList]
  have hsome : isHttpRequest p ≠ none := by
    intro hnone
    unfold isHttpRequest at hnone
    split_ifs at hnone with hget hpost hput hdelete hhead hpatch
    rcases method with _ | _ | _ | _ | _ | _
    · exact hget ⟨hbyte 0 (by decide) _, hbyte 1 (by decide) _, hbyte 2 (by decide) _⟩
    · exact hpost ⟨hbyte 0 (by decide) _, hbyte 1 (by decide) _, hbyte 2 (by decide) _,
        hbyte 3 (by decide) _⟩
    · exact hput ⟨hbyte 0 (by decide) _, hbyte 1 (by decide) _, hbyte 2 (by decide) _⟩
    · exact hdelete ⟨hbyte 0 (by decide) _, hbyte 1 (by decide) _, hbyte 2 (by decide) _,
        hbyte 3 (by decide) _, hbyte 4 (by decide) _, hbyte 5 (by decide) _⟩
    · exact hhead ⟨hbyte 0 (by decide) _, hbyte 1 (by decide) _, hbyte 2 (by decide) _,
        hbyte 3 (by decide) _⟩
    · exact hpatch ⟨hbyte 0 (by decide) _, hbyte 1 (by decide) _, hbyte 2 (by decide) _,
        hbyte 3 (by decide) _, hbyte 4 (by decide) _⟩
  -- the name that is recognised and that of the method start the same bytes
  obtain ⟨m, hm⟩ := Option.ne_none_iff_exists'.mp hsome
  rw [hm]
  rcases List.prefix_or_prefix_of_prefix (name_prefix_of_isHttpRequest hm) h with hle | hle
  · rw [HttpRequestMethod.eq_of_name_prefix hle]
  · rw [HttpRequestMethod.eq_of_name_prefix hle]

/-- What starts with the protocol is taken for a response. -/
theorem isHttpResponse_iff {p : Vector UInt8 12} :
    isHttpResponse p = true ↔ ascii "HTTP" <+: p.toList := by
  have htake : ascii "HTTP" <+: p.toList ↔ ascii "HTTP" = p.toList.take 4 := by
    rw [List.prefix_iff_eq_take]
    rfl
  have hfour : p.toList.take 4 = [p[0], p[1], p[2], p[3]] := by
    apply List.ext_getElem
    · simp
    · intro i hi _
      have hi4 : i < 4 := by simpa using hi
      rw [List.getElem_take, Vector.getElem_toList]
      interval_cases i <;> rfl
  have hlist : ascii "HTTP" = ['H'.toUInt8, 'T'.toUInt8, 'T'.toUInt8, 'P'.toUInt8] := rfl
  rw [htake, hfour, hlist, isHttpResponse, decide_eq_true_eq]
  simp only [List.cons.injEq, and_true, eq_comm]

section Plain

variable (hplain : a.skb.HasPlainIpHeader)
  (hlen : a.skb.payloadOffset + 12 ≤ a.skb.data.length)
include hplain hlen

theorem SkBuff.StartsRequest.isHttpRequest (h : a.skb.StartsRequest) :
    (isHttpRequest (parse a.skb).preChar).isSome := by
  obtain ⟨method, hmethod⟩ := h
  have hname : method.name <+: (parse a.skb).preChar.toList := by
    rw [preChar_parse hplain, SkBuff.toList_payload12 hlen, List.prefix_take_iff]
    refine ⟨(List.prefix_append ..).trans hmethod, ?_⟩
    rcases method with _ | _ | _ | _ | _ | _ <;> decide
  rw [isHttpRequest_of_startsWith hname]
  rfl

theorem SkBuff.StartsResponse.isHttpResponse (h : a.skb.StartsResponse) :
    isHttpResponse (parse a.skb).preChar = true := by
  have hhttp : ascii "HTTP" <+: ascii "HTTP/" := ⟨ascii "/", rfl⟩
  rw [isHttpResponse_iff, preChar_parse hplain, SkBuff.toList_payload12 hlen, List.prefix_take_iff]
  exact ⟨hhttp.trans h, by decide⟩

/-- Without IP options and with twelve bytes of payload a real head is taken for what it is, so only
the frames that look like one and are none are to blame. -/
theorem onlyHeads_plain_iff : OnlyHeads filterIp a m ↔
    ¬ Reaches filterIp a ∨ FindsNothing a m ∨ a.skb.StartsRequest ∨ a.skb.StartsResponse := by
  have hreq : (isHttpRequest (parse a.skb).preChar).isSome ∧ a.skb.StartsRequest ↔
      a.skb.StartsRequest :=
    and_iff_right_of_imp fun h => h.isHttpRequest hplain hlen
  have hrsp : isHttpResponse (parse a.skb).preChar = true ∧ a.skb.StartsResponse ↔
      a.skb.StartsResponse :=
    and_iff_right_of_imp fun h => h.isHttpResponse hplain hlen
  rw [← or_assoc]
  by_cases hidle : ¬ Reaches filterIp a ∨ FindsNothing a m
  · exact iff_of_true (onlyHeads_of_idle hidle) (Or.inl hidle)
  · obtain ⟨hr, hfinds⟩ := not_or.mp hidle
    rw [onlyHeads_iff_of_finds (not_not.mp hr) hfinds, hreq, hrsp]
    exact (or_iff_right hidle).symm

end Plain

/-! ### Segments that look like heads -/

/-- A frame from port 80 of `hostB` to `hostA`. -/
def answerArrival (payload : GoString) : Arrival where
  skb := tcpFrame hostB hostA (0, 80) (200, 1) payload
  now := 2000
  ringRoom := true

theorem payload_tcpFrame (src dst : Ipv4) (sport dport : UInt8 × UInt8) (payload : List UInt8) :
    (tcpFrame src dst sport dport payload).payload = payload := by
  rw [SkBuff.payload, payloadOffset_tcpFrame]
  exact List.drop_left' rfl

/-- A payload that no method and blank start is no request line. -/
theorem not_startsRequest_tcpFrame {src dst : Ipv4} {sport dport : UInt8 × UInt8}
    {payload : List UInt8}
    (h : ∀ method ∈ [.get, .post, .put, .delete, .head, .patch],
      ¬ HttpRequestMethod.name method ++ ascii " " <+: payload) :
    ¬ (tcpFrame src dst sport dport payload).StartsRequest := by
  rintro ⟨method, hprefix⟩
  rw [payload_tcpFrame] at hprefix
  refine h method ?_ hprefix
  cases method <;> decide

theorem not_startsResponse_tcpFrame {src dst : Ipv4} {sport dport : UInt8 × UInt8}
    {payload : List UInt8} (h : ¬ ascii "HTTP/" <+: payload) :
    ¬ (tcpFrame src dst sport dport payload).StartsResponse := by
  rwa [SkBuff.StartsResponse, payload_tcpFrame]

theorem plain_answerArrival (payload : GoString) :
    (answerArrival payload).skb.HasPlainIpHeader := plain_tcpFrame ..

theorem reaches_answerArrival (payload : GoString) : Reaches filterB (answerArrival payload) := by
  refine ⟨isTcpIpv4_tcpFrame .., ?_⟩
  rw [answerArrival, iphdr_tcpFrame, Bool.or_eq_true, checkTargetIp, checkTargetIp,
    Bpf.HashMap.lookup_eq_none.mpr hostA_not_mem_filterB]
  exact Or.inr rfl

theorem preChar_answerArrival {payload : GoString} (hlen : 12 ≤ payload.length) :
    (parse (answerArrival payload).skb).preChar.toList = payload.take 12 := by
  have hin : (answerArrival payload).skb.payloadOffset + 12
      ≤ (answerArrival payload).skb.data.length := by
    rw [answerArrival, payloadOffset_tcpFrame, length_tcpFrame]
    omega
  rw [preChar_parse (plain_answerArrival _), SkBuff.toList_payload12 hin, answerArrival,
    payload_tcpFrame]

/-- What starts with the protocol is taken for a response on the connection of the two hosts. -/
theorem seesResponse_answerArrival (payload : GoString) (hlen : 12 ≤ payload.length)
    (hhttp : ascii "HTTP" <+: payload) :
    SeesResponse filterB (sampleConn hostA hostB (200, 1)) (answerArrival payload) := by
  refine ⟨reaches_answerArrival payload, ?_, ?_⟩
  · rw [isHttpResponse_iff, preChar_answerArrival hlen, List.prefix_take_iff]
    exact ⟨hhttp, by decide⟩
  · rw [responseKey_parse (plain_answerArrival _), answerArrival, fourTuple_tcpFrame]
    rfl

/-- `request_map` with one pending request. -/
def onePending : RequestMap := runFrames filterB ∅ [getArrival hostA hostB (200, 1)]

theorem mem_onePending : sampleConn hostA hostB (200, 1) ∈ onePending := by
  rw [onePending, runFrames_eq, List.map_singleton, frameEvent_getArrival]
  have hroom : (∅ : RequestMap).HasRoom (sampleConn hostA hostB (200, 1)) := Or.inr (by decide)
  exact (Bpf.HashMap.mem_put hroom _ _).mpr (Or.inl rfl)

/-- A segment that goes on with `PUTTING` opens a request, and one that goes on with `HTTPS` closes
the one that is pending. -/
theorem not_onlyHeads :
    (requestArrival (ascii "PUTTING it all")).skb.IsTcpIpv4 ∧
    ¬ OnlyHeads filterB (requestArrival (ascii "PUTTING it all")) ∅ ∧
    (answerArrival (ascii "HTTPS is a scheme")).skb.IsTcpIpv4 ∧
    ¬ OnlyHeads filterB (answerArrival (ascii "HTTPS is a scheme")) onePending := by
  refine ⟨(reaches_requestArrival _).1, ?_, (reaches_answerArrival _).1, ?_⟩
  · -- `PUTTING` starts like `PUT`, without the blank
    have hreq :
        (isHttpRequest (parse (requestArrival (ascii "PUTTING it all")).skb).preChar).isSome := by
      rw [requestArrival, preChar_parse (plain_tcpFrame ..),
        payload12_tcpFrame _ _ _ _ _ (by decide)]
      decide
    obtain ⟨k, p, hevent⟩ := headEvent_eq_put_iff.mpr hreq
    have hfinds : ¬ FindsNothing (requestArrival (ascii "PUTTING it all")) ∅ := by
      rw [FindsNothing, hevent]
      rintro (hstored | hfull)
      · rw [Bpf.HashMap.lookup_empty] at hstored
        cases hstored
      · exact hfull (Or.inr (by decide))
    rw [onlyHeads_iff_of_finds (reaches_requestArrival _) hfinds]
    rintro (⟨-, h⟩ | ⟨-, h⟩)
    · exact not_startsRequest_tcpFrame (by decide) h
    · exact not_startsResponse_tcpFrame (by decide) h
  · -- `HTTPS` starts like `HTTP`, without the slash
    have hsees := seesResponse_answerArrival (ascii "HTTPS is a scheme") (by decide) (by decide)
    have hfinds : ¬ FindsNothing (answerArrival (ascii "HTTPS is a scheme")) onePending := by
      have hevent := hsees.frameEvent_eq
      rw [frameEvent, if_pos hsees.1] at hevent
      rw [FindsNothing, hevent]
      exact not_not.mpr mem_onePending
    rw [onlyHeads_iff_of_finds (reaches_answerArrival _) hfinds]
    rintro (⟨-, h⟩ | ⟨-, h⟩)
    · exact not_startsRequest_tcpFrame (by decide) h
    · exact not_startsResponse_tcpFrame (by decide) h

end Kubebpfbox.Http
