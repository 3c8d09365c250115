import Kubebpfbox.Http.Equiv.Segment
import Kubebpfbox.Lib.Slots

/-!
# Matching responses with requests

The kernel program is a slot machine (`Slots.step`): a request puts a `struct packet` under the key
of its connection, a response takes it out again, and every other frame is a skip
(`requestMap_socketFilterHttp`, `submitted_socketFilterHttp`).  `frameEvent` is the event a frame
stands for.  Everything about whole traces follows from the machine's own theorems.
-/

namespace Kubebpfbox.Http

open Slots

variable (filterIp : FilterIp)

/-- The frame gets past the protocol checks and the address filter. -/
def Reaches (a : Arrival) : Prop :=
  a.skb.IsTcpIpv4 ∧
    (checkTargetIp filterIp a.skb.iphdr.saddr || checkTargetIp filterIp a.skb.iphdr.daddr) = true

instance (a : Arrival) : Decidable (Reaches filterIp a) := inferInstanceAs (Decidable (_ ∧ _))

/-- What a frame that is classified does to `request_map`. -/
def headEvent (a : Arrival) : Event ConnKey Packet Arrival :=
  match isHttpRequest (parse a.skb).preChar with
  | some method => .put (parse a.skb).requestKey (requestPacket a method)
  | none =>
    if isHttpResponse (parse a.skb).preChar then .take (parse a.skb).responseKey a else .skip

/-- What a frame does to `request_map`. -/
def frameEvent (a : Arrival) : Event ConnKey Packet Arrival :=
  if Reaches filterIp a then headEvent a else .skip

/-- The record made of a stored request and the response that closes it. -/
def submit (x : Packet × Arrival) : Option Packet :=
  if x.2.ringRoom then some (fillResponse x.1 x.2) else none

/-! ### The program is a slot machine -/

theorem requestMap_classify (a : Arrival) (m : RequestMap) :
    (classify a m).requestMap = (step m (headEvent a)).1 := by
  cases hreq : isHttpRequest (parse a.skb).preChar with
  | some method => simp only [classify, headEvent, hreq, step]
  | none =>
    by_cases hrsp : isHttpResponse (parse a.skb).preChar = true
    · cases hl : m.lookup (parse a.skb).responseKey with
      | none => simp only [classify, headEvent, hreq, hrsp, if_true, hl, step]
      | some req =>
        -- the entry is filled in place and then deleted
        have hmem : (parse a.skb).responseKey ∈ m := by
          rw [Bpf.HashMap.mem_iff_isSome, hl]
          rfl
        simp only [classify, headEvent, hreq, hrsp, if_true, hl, step]
        exact Bpf.HashMap.remove_put hmem _
    · simp only [classify, headEvent, hreq, hrsp, step, Bool.false_eq_true, if_false]

theorem submitted_classify (a : Arrival) (m : RequestMap) :
    (classify a m).submitted = (step m (headEvent a)).2.bind submit := by
  cases hreq : isHttpRequest (parse a.skb).preChar with
  | some method => simp only [classify, headEvent, hreq, step, Option.bind_none]
  | none =>
    by_cases hrsp : isHttpResponse (parse a.skb).preChar = true
    · cases hl : m.lookup (parse a.skb).responseKey with
      | none => simp only [classify, headEvent, hreq, hrsp, if_true, hl, step, Option.bind_none]
      | some req =>
        simp only [classify, headEvent, hreq, hrsp, if_true, hl, step, Option.bind_some, submit]
    · simp only [classify, headEvent, hreq, hrsp, step, Bool.false_eq_true, if_false,
        Option.bind_none]

theorem socketFilterHttp_of_reaches {a : Arrival} (h : Reaches filterIp a) (m : RequestMap) :
    socketFilterHttp filterIp a m = classify a m := by
  obtain ⟨⟨heth, hproto⟩, hip⟩ := h
  have hkeep : (!checkTargetIp filterIp (parse a.skb).iph.saddr &&
      !checkTargetIp filterIp (parse a.skb).iph.daddr) = false := by
    rw [← Bool.not_or, Bool.not_eq_false']
    exact hip
  simp [socketFilterHttp, heth, hproto, hkeep]

/-- A frame that is not classified leaves everything as it was. -/
theorem socketFilterHttp_of_not_reaches {a : Arrival} (h : ¬ Reaches filterIp a) (m : RequestMap) :
    (socketFilterHttp filterIp a m).requestMap = m ∧
      (socketFilterHttp filterIp a m).submitted = none := by
  unfold socketFilterHttp
  split_ifs with heth hproto
  · exact ⟨rfl, rfl⟩
  · exact ⟨rfl, rfl⟩
  · simp only
    split_ifs with hdrop
    · exact ⟨rfl, rfl⟩
    · refine absurd ⟨⟨not_not.mp heth, not_not.mp hproto⟩, ?_⟩ h
      rw [← Bool.not_or, Bool.not_eq_true', Bool.not_eq_false] at hdrop
      exact hdrop

/-- **Refinement, the map**: the program changes `request_map` as the slot machine does. -/
theorem requestMap_socketFilterHttp (a : Arrival) (m : RequestMap) :
    (socketFilterHttp filterIp a m).requestMap = (step m (frameEvent filterIp a)).1 := by
  unfold frameEvent
  split_ifs with h
  · rw [socketFilterHttp_of_reaches filterIp h, requestMap_classify]
  · rw [(socketFilterHttp_of_not_reaches filterIp h m).1, step]

/-- **Refinement, the ring buffer**: the program submits what the slot machine reports. -/
theorem submitted_socketFilterHttp (a : Arrival) (m : RequestMap) :
    (socketFilterHttp filterIp a m).submitted
      = (step m (frameEvent filterIp a)).2.bind submit := by
  unfold frameEvent
  split_ifs with h
  · rw [socketFilterHttp_of_reaches filterIp h, submitted_classify]
  · rw [(socketFilterHttp_of_not_reaches filterIp h m).2, step, Option.bind_none]

theorem runFrames_eq (m : RequestMap) (tr : List Arrival) :
    runFrames filterIp m tr = run m (tr.map (frameEvent filterIp)) := by
  induction tr generalizing m with
  | nil => rfl
  | cons a tr ih =>
    rw [List.map_cons, run_cons, ← requestMap_socketFilterHttp]
    exact ih _

theorem runFrames_append (m : RequestMap) (tr tr' : List Arrival) :
    runFrames filterIp m (tr ++ tr') = runFrames filterIp (runFrames filterIp m tr) tr' :=
  List.foldl_append

theorem recordAt_eq (m : RequestMap) (tr : List Arrival) (j : ℕ) :
    recordAt filterIp m tr j = (reportAt m (tr.map (frameEvent filterIp)) j).bind submit := by
  unfold recordAt reportAt
  rw [List.getElem?_map]
  cases tr[j]? with
  | none => rfl
  | some a =>
    rw [Option.bind_some, Option.map_some, Option.bind_some, submitted_socketFilterHttp,
      runFrames_eq, List.map_take]

/-! ### Requests and responses on a connection -/

/-- The frame is a request on connection `c`. -/
def RequestOn (c : ConnKey) (a : Arrival) : Prop :=
  Reaches filterIp a ∧ (isHttpRequest a.skb.payload12).isSome ∧ a.skb.fourTuple = c

/-- The frame is a response on connection `c`. -/
def ResponseOn (c : ConnKey) (a : Arrival) : Prop :=
  Reaches filterIp a ∧ isHttpResponse a.skb.payload12 = true ∧ a.skb.fourTuple.mirror = c

instance (c : ConnKey) (a : Arrival) : Decidable (RequestOn filterIp c a) :=
  inferInstanceAs (Decidable (_ ∧ _ ∧ _))

instance (c : ConnKey) (a : Arrival) : Decidable (ResponseOn filterIp c a) :=
  inferInstanceAs (Decidable (_ ∧ _ ∧ _))

section Events

variable {filterIp} {a b : Arrival} {c : ConnKey} (h : a.skb.HasPlainIpHeader)
include h

theorem headEvent_eq : headEvent a =
    match isHttpRequest a.skb.payload12 with
    | some method => .put a.skb.fourTuple (requestPacket a method)
    | none => if isHttpResponse a.skb.payload12 then .take a.skb.fourTuple.mirror a else .skip := by
  unfold headEvent
  rw [preChar_parse h, requestKey_parse h, responseKey_parse h]

theorem frameEvent_eq_put_iff {p : Packet} :
    frameEvent filterIp a = .put c p ↔
      RequestOn filterIp c a ∧
        ∃ method, isHttpRequest a.skb.payload12 = some method ∧ p = requestPacket a method := by
  unfold frameEvent RequestOn
  rw [headEvent_eq h]
  by_cases hr : Reaches filterIp a
  · cases hm : isHttpRequest a.skb.payload12 with
    | some method => simp [hr, eq_comm]
    | none =>
      by_cases hrsp : isHttpResponse a.skb.payload12 = true <;> simp [hr, hrsp]
  · simp [hr]

theorem frameEvent_eq_take_iff :
    frameEvent filterIp a = .take c b ↔ ResponseOn filterIp c a ∧ b = a := by
  unfold frameEvent ResponseOn
  rw [headEvent_eq h]
  by_cases hr : Reaches filterIp a
  · cases hm : isHttpRequest a.skb.payload12 with
    | some method => simp [hr, not_isHttpResponse_of_isHttpRequest hm]
    | none =>
      by_cases hrsp : isHttpResponse a.skb.payload12 = true <;> simp [hr, hrsp, eq_comm]
  · simp [hr]

theorem on_frameEvent_iff :
    Event.On c (frameEvent filterIp a) ↔ RequestOn filterIp c a ∨ ResponseOn filterIp c a := by
  unfold frameEvent RequestOn ResponseOn
  rw [headEvent_eq h]
  by_cases hr : Reaches filterIp a
  · cases hm : isHttpRequest a.skb.payload12 with
    | some method => simp [hr, not_isHttpResponse_of_isHttpRequest hm]
    | none =>
      by_cases hrsp : isHttpResponse a.skb.payload12 = true <;> simp [hr, hrsp]
  · simp [hr]

end Events

end Kubebpfbox.Http
