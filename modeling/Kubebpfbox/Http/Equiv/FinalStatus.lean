import Kubebpfbox.Http.Equiv.Duration
import Kubebpfbox.Http.Equiv.Heads

/-!
# Interim responses

A server may answer a request with any number of interim responses, whose status is 1xx, before the
final one.  The program closes the request with the first response it sees, whatever its status, and
finds nothing to close for the others (`recordsFor_exchange`).

`recordsFinal_iff` says when the record of the request carries the final status: exactly when there
is no interim response, and the request and its record have found room.
-/

namespace Kubebpfbox.Http

open Golang Slots

/-! ### The records of a connection -/

variable (filterIp : FilterIp)

/-- The program takes the frame for a request or a response on `c`. -/
def Sees (c : ConnKey) (a : Arrival) : Prop := SeesRequest filterIp c a ∨ SeesResponse filterIp c a

instance (c : ConnKey) (a : Arrival) : Decidable (SeesRequest filterIp c a) :=
  inferInstanceAs (Decidable (_ ∧ _ ∧ _))

instance (c : ConnKey) (a : Arrival) : Decidable (SeesResponse filterIp c a) :=
  inferInstanceAs (Decidable (_ ∧ _ ∧ _))

instance (c : ConnKey) (a : Arrival) : Decidable (Sees filterIp c a) :=
  inferInstanceAs (Decidable (_ ∨ _))

variable {filterIp} in
theorem sees_iff {c : ConnKey} {a : Arrival} :
    Sees filterIp c a ↔ Event.On c (frameEvent filterIp a) := on_frameEvent_iff_sees.symm

/-- The records submitted for connection `c`, in order. -/
def recordsFor (c : ConnKey) : RequestMap → List Arrival → List Packet
  | _, [] => []
  | m, a :: tr =>
    let v := socketFilterHttp filterIp a m
    (if Sees filterIp c a then v.submitted.toList else []) ++ recordsFor c v.requestMap tr

/-- The program submits for `c` what the slot machine reports on it. -/
theorem recordsFor_eq (c : ConnKey) (m : RequestMap) (tr : List Arrival) :
    recordsFor filterIp c m tr
      = (reportsFor c m (tr.map (frameEvent filterIp))).filterMap submit := by
  induction tr generalizing m with
  | nil => rfl
  | cons a tr ih =>
    have hhead : (if Sees filterIp c a then (socketFilterHttp filterIp a m).submitted.toList else [])
        = (if Event.On c (frameEvent filterIp a) then (step m (frameEvent filterIp a)).2.toList
            else []).filterMap submit := by
      rw [submitted_socketFilterHttp]
      by_cases hon : Event.On c (frameEvent filterIp a)
      · rw [if_pos (sees_iff.mpr hon), if_pos hon]
        cases (step m (frameEvent filterIp a)).2 with
        | none => rfl
        | some x =>
          show (submit x).toList = [x].filterMap submit
          cases hx : submit x <;> simp [hx]
      · rw [if_neg fun h => hon (sees_iff.mp h), if_neg hon]
        rfl
    rw [List.map_cons, reportsFor, List.filterMap_append, recordsFor, ih,
      requestMap_socketFilterHttp, hhead]

/-! ### One request and its responses -/

/-- What the program takes for the status of a response. -/
def statusBytes (a : Arrival) : GoString := (parse a.skb).preChar.toList.drop 9

/-- The status is 1xx. -/
def Interim (a : Arrival) : Prop := ∃ n, natural? (statusBytes a) = some n ∧ 100 ≤ n ∧ n < 200

/-- The status is 200 or above. -/
def Final (a : Arrival) : Prop := ∃ n, natural? (statusBytes a) = some n ∧ 200 ≤ n

theorem Interim.statusBytes_ne {s f : Arrival} (hs : Interim s) (hf : Final f) :
    statusBytes s ≠ statusBytes f := by
  obtain ⟨n, hn, -, hlt⟩ := hs
  obtain ⟨n', hn', hle⟩ := hf
  intro heq
  rw [heq, hn'] at hn
  obtain rfl := Option.some.inj hn
  omega

/-- The connection `c` carries the request `r`, then the interim responses `interim` and the final
response `f`; all other frames of the trace `before ++ r :: after` are about other connections. -/
structure Exchange (c : ConnKey) (before : List Arrival) (r : Arrival) (after : List Arrival)
    (interim : List Arrival) (f : Arrival) : Prop where
  others : ∀ x ∈ before, ¬ Sees filterIp c x
  request : SeesRequest filterIp c r
  responses : after.filter (Sees filterIp c ·) = interim ++ [f]
  interim : ∀ s ∈ interim, SeesResponse filterIp c s ∧ Interim s
  final : SeesResponse filterIp c f ∧ Final f

/-- The trace yields one record for `c`, which carries the status of `f`. -/
def RecordsFinal (c : ConnKey) (m : RequestMap) (tr : List Arrival) (f : Arrival) : Prop :=
  ∃ p, recordsFor filterIp c m tr = [p] ∧ p.status.toList = statusBytes f

section Exchange

variable {filterIp} {c : ConnKey} {before after interim : List Arrival} {r f : Arrival}

/-- The events of an exchange. -/
theorem Exchange.events (h : Exchange filterIp c before r after interim f) :
    (∀ e ∈ before.map (frameEvent filterIp), ¬ Event.On c e) ∧
    (after.map (frameEvent filterIp)).filter (Event.On c ·)
      = (interim ++ [f]).map (Event.take c) := by
  constructor
  · intro e he
    obtain ⟨x, hx, rfl⟩ := List.mem_map.mp he
    rw [← sees_iff]
    exact h.others x hx
  · have hfilter : after.filter ((Event.On c ·) ∘ frameEvent filterIp)
        = after.filter (Sees filterIp c ·) := by
      refine List.filter_congr fun a _ => ?_
      rw [Function.comp_apply, decide_eq_decide]
      exact sees_iff.symm
    have hresponse : ∀ s ∈ interim ++ [f], SeesResponse filterIp c s := by
      intro s hs
      rcases List.mem_append.mp hs with hs | hs
      · exact (h.interim s hs).1
      · obtain rfl := List.mem_singleton.mp hs
        exact h.final.1
    rw [List.filter_map, hfilter, h.responses]
    exact List.map_congr_left fun s hs => (hresponse s hs).frameEvent_eq

/-- **The first response gets the request**, whatever its status. -/
theorem recordsFor_exchange (h : Exchange filterIp c before r after interim f) (m : RequestMap) :
    ∃ method, isHttpRequest (parse r.skb).preChar = some method ∧
      recordsFor filterIp c m (before ++ r :: after) =
        if (runFrames filterIp m before).HasRoom c then
          (submit (requestPacket r method, (interim ++ [f]).head (by simp))).toList
        else [] := by
  obtain ⟨method, hm, hput⟩ := h.request.frameEvent_eq
  obtain ⟨hbefore, hafter⟩ := h.events
  refine ⟨method, hm, ?_⟩
  rw [recordsFor_eq, List.map_append, List.map_cons, hput,
    reportsFor_put_takes hbefore hafter, ← runFrames_eq,
    List.head?_eq_some_head (by simp : interim ++ [f] ≠ [])]
  split_ifs
  · show [_].filterMap submit = _
    cases hsub : submit (requestPacket r method, (interim ++ [f]).head (by simp)) <;> simp [hsub]
  · rfl

/-- **The record carries the final status** exactly when no interim response comes before it, the
map had room for the request, and the ring buffer has room for the record. -/
theorem recordsFinal_iff (h : Exchange filterIp c before r after interim f) (m : RequestMap) :
    RecordsFinal filterIp c m (before ++ r :: after) f ↔
      interim = [] ∧ (runFrames filterIp m before).HasRoom c ∧ f.ringRoom = true := by
  obtain ⟨method, -, hrecords⟩ := recordsFor_exchange h m
  unfold RecordsFinal
  rw [hrecords]
  constructor
  · rintro ⟨p, hp, hstatus⟩
    by_cases hroom : (runFrames filterIp m before).HasRoom c
    · rw [if_pos hroom, submit] at hp
      split_ifs at hp with hring
      · obtain rfl : fillResponse _ _ = p := List.singleton_inj.mp hp
        rw [status_fillResponse] at hstatus
        rcases interim with _ | ⟨s, interim⟩
        · exact ⟨rfl, hroom, hring⟩
        · -- the record is the one of the first interim response
          exact absurd hstatus ((h.interim s (List.mem_cons_self ..)).2.statusBytes_ne h.final.2)
      · cases hp
    · rw [if_neg hroom] at hp
      cases hp
  · rintro ⟨rfl, hroom, hring⟩
    refine ⟨fillResponse (requestPacket r method) f, ?_, status_fillResponse ..⟩
    rw [if_pos hroom]
    show (submit (requestPacket r method, f)).toList = _
    rw [submit, if_pos hring]
    rfl

end Exchange

/-! ### With and without an interim response -/

/-- A response of `hostB` with the given status. -/
def statusArrival (status : String) : Arrival :=
  answerArrival (ascii "HTTP/1.1 " ++ ascii status ++ ascii " \r\n")

section StatusArrival

variable {status : String} (hlen : (ascii status).length = 3)
include hlen

theorem length_statusLine :
    12 ≤ (ascii "HTTP/1.1 " ++ ascii status ++ ascii " \r\n").length := by
  rw [List.length_append, List.length_append, hlen]
  decide

theorem seesResponse_statusArrival :
    SeesResponse filterB (sampleConn hostA hostB (200, 1)) (statusArrival status) := by
  refine seesResponse_answerArrival _ (length_statusLine hlen) ?_
  exact ⟨ascii "/1.1 " ++ (ascii status ++ ascii " \r\n"), rfl⟩

theorem statusBytes_statusArrival : statusBytes (statusArrival status) = ascii status := by
  have hnine : (ascii "HTTP/1.1 ").length = 9 := rfl
  have htwelve : (ascii "HTTP/1.1 " ++ ascii status).length = 12 := by
    rw [List.length_append, hnine, hlen]
  rw [statusBytes, statusArrival, preChar_answerArrival (length_statusLine hlen),
    List.take_left' htwelve, List.drop_left' hnine]

end StatusArrival

/-- A request that is answered with `100`, if at all, and then with `status`. -/
theorem exchange_of_statuses {interim : List Arrival} {status : String}
    (hinterim : interim = [] ∨ interim = [statusArrival "100"])
    (hlen : (ascii status).length = 3)
    (hfinal : ∃ n, natural? (ascii status) = some n ∧ 200 ≤ n) :
    Exchange filterB (sampleConn hostA hostB (200, 1)) [] (getArrival hostA hostB (200, 1))
      (interim ++ [statusArrival status]) interim (statusArrival status) where
  others _ hx := absurd hx List.not_mem_nil
  request := seesRequest_getArrival
  responses := by
    -- every frame behind the request is a response on the connection
    apply List.filter_eq_self.mpr
    intro a ha
    rw [decide_eq_true_eq]
    rcases hinterim with rfl | rfl
    · obtain rfl := List.mem_singleton.mp ha
      exact Or.inr (seesResponse_statusArrival hlen)
    · rcases List.mem_append.mp ha with ha | ha
      · obtain rfl := List.mem_singleton.mp ha
        exact Or.inr (seesResponse_statusArrival (by decide))
      · obtain rfl := List.mem_singleton.mp ha
        exact Or.inr (seesResponse_statusArrival hlen)
  interim s hs := by
    rcases hinterim with rfl | rfl
    · exact absurd hs List.not_mem_nil
    · obtain rfl := List.mem_singleton.mp hs
      refine ⟨seesResponse_statusArrival (by decide), 100, ?_, by decide, by decide⟩
      rw [statusBytes_statusArrival (by decide)]
      decide
  final := by
    obtain ⟨n, hn, hle⟩ := hfinal
    refine ⟨seesResponse_statusArrival hlen, n, ?_, hle⟩
    rw [statusBytes_statusArrival hlen, hn]

theorem recordsFinal_iff_of_ok :
    RecordsFinal filterB (sampleConn hostA hostB (200, 1)) ∅
      ([] ++ getArrival hostA hostB (200, 1) :: [statusArrival "200"]) (statusArrival "200") := by
  have hexchange := exchange_of_statuses (Or.inl rfl) (by decide : (ascii "200").length = 3)
    ⟨200, by decide, le_rfl⟩
  have hroom : (∅ : RequestMap).HasRoom (sampleConn hostA hostB (200, 1)) := Or.inr (by decide)
  exact (recordsFinal_iff hexchange ∅).mpr ⟨rfl, hroom, rfl⟩

/-- A request that is answered with `100` and then with `500` is recorded with the status `100`, so
that it does not count as an error. -/
theorem not_recordsFinal_of_continue :
    Exchange filterB (sampleConn hostA hostB (200, 1)) [] (getArrival hostA hostB (200, 1))
      [statusArrival "100", statusArrival "500"] [statusArrival "100"] (statusArrival "500") ∧
    ¬ RecordsFinal filterB (sampleConn hostA hostB (200, 1)) ∅
      ([] ++ getArrival hostA hostB (200, 1) :: [statusArrival "100", statusArrival "500"])
      (statusArrival "500") ∧
    ∃ p, recordsFor filterB (sampleConn hostA hostB (200, 1)) ∅
      ([] ++ getArrival hostA hostB (200, 1) :: [statusArrival "100", statusArrival "500"]) = [p] ∧
      p.status.toList = ascii "100" := by
  have hexchange := exchange_of_statuses (Or.inr rfl) (by decide : (ascii "500").length = 3)
    ⟨500, by decide, by decide⟩
  have hroom : (∅ : RequestMap).HasRoom (sampleConn hostA hostB (200, 1)) := Or.inr (by decide)
  have hbytes : statusBytes (statusArrival "100") = ascii "100" :=
    statusBytes_statusArrival (by decide)
  obtain ⟨method, -, hrecords⟩ := recordsFor_exchange hexchange ∅
  -- the interim response takes the request, and the final one finds none
  have hone : recordsFor filterB (sampleConn hostA hostB (200, 1)) ∅
      ([] ++ getArrival hostA hostB (200, 1) :: [statusArrival "100", statusArrival "500"])
        = [fillResponse (requestPacket (getArrival hostA hostB (200, 1)) method)
            (statusArrival "100")] := hrecords.trans (if_pos hroom)
  refine ⟨hexchange, ?_, _, hone, (status_fillResponse ..).trans hbytes⟩
  rintro ⟨p, hp, hstatus⟩
  rw [hone] at hp
  obtain rfl : fillResponse _ _ = p := List.singleton_inj.mp hp
  rw [status_fillResponse, statusBytes_statusArrival (by decide)] at hstatus
  exact absurd (hbytes.symm.trans hstatus) (by decide)

end Kubebpfbox.Http
