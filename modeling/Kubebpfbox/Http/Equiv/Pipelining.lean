import Kubebpfbox.Http.Equiv.History

/-!
# Pipelined requests (`docs/http.md`)

The document keeps a queue of requests for every connection, and a response takes the first of them;
the program keeps one request a connection, the last one.  `closedBy` and `designedAt` are the
design of the document: the request a response closes, and the record that is submitted for it.

`fifo_design_iff`: the program closes the requests of the design exactly when no response comes
while two requests of its connection wait, and then it submits the same records, as long as nothing
is full.
-/

namespace Kubebpfbox.Http

open Golang Slots Queues

/-- The requests that wait on `c` in the design, with their positions, the oldest first. -/
def waiting (tr : List Frame) (c : ConnKey) : List (ℕ × Packet) := queued (frameEvents tr) c

/-- In the design, the response that is frame `j` closes the request that is frame `i`. -/
def ClosedBy (tr : List Frame) (c : ConnKey) (i j : ℕ) : Prop :=
  (∃ s : Frame, tr[j]? = some s ∧ s.SeesResponse c) ∧
    ∃ p, (waiting (tr.take j) c).head? = some (i, p)

/-- The record of the design at frame `j`. -/
def designedAt (tr : List Frame) (j : ℕ) : Option Packet :=
  (fifoReportAt (frameEvents tr) j).bind submit

/-- No response comes while two requests of its connection wait. -/
def NotPipelined (tr : List Frame) : Prop :=
  ∀ c j s, tr[j]? = some s → Frame.SeesResponse c s → (waiting (tr.take j) c).length ≤ 1

variable {tr : List Frame} {c : ConnKey} {i j : ℕ}

theorem waiting_take (j : ℕ) (c : ConnKey) :
    waiting (tr.take j) c = queued ((frameEvents tr).take j) c := by
  rw [waiting, frameEvents, List.map_take, frameEvents]

theorem orderly_events_iff : Orderly (frameEvents tr) ↔ NotPipelined tr := by
  constructor
  · intro h c j s hs hrsp
    rw [waiting_take]
    exact h c j s.2 (getElem?_history_eq_take_iff.mpr ⟨s, hs, hrsp, rfl⟩)
  · intro h c j b hj
    obtain ⟨s, hs, hrsp, -⟩ := getElem?_history_eq_take_iff.mp hj
    rw [← waiting_take]
    exact h c j s hs hrsp

theorem closedBy_iff_fifoMatched :
    ClosedBy tr c i j ↔ ∃ p b, FifoMatched (frameEvents tr) c i j p b := by
  unfold ClosedBy FifoMatched
  rw [waiting_take]
  constructor
  · rintro ⟨⟨s, hs, hrsp⟩, p, hp⟩
    exact ⟨p, s.2, getElem?_history_eq_take_iff.mpr ⟨s, hs, hrsp, rfl⟩, hp⟩
  · rintro ⟨p, b, hj, hp⟩
    obtain ⟨s, hs, hrsp, -⟩ := getElem?_history_eq_take_iff.mp hj
    exact ⟨⟨s, hs, hrsp⟩, p, hp⟩

theorem exists_exchange_iff_matched :
    (∃ r s, ExchangeAt tr c i j r s) ↔ ∃ p b, Matched (frameEvents tr) c i j p b := by
  constructor
  · rintro ⟨r, s, h⟩
    obtain ⟨method, -, hmatch⟩ := h.exists_method
    exact ⟨_, _, hmatch⟩
  · rintro ⟨p, b, hmatch⟩
    obtain ⟨r, s, -, hex, -⟩ := matched_events_iff.mp hmatch
    exact ⟨r, s, hex⟩

theorem designedAt_eq_some_iff (h : NotPipelined tr) {p : Packet} : designedAt tr j = some p ↔
    ∃ c i r s method, ExchangeAt tr c i j r s ∧ r.method? = some method ∧ s.2.ringRoom = true ∧
      p = fillResponse (requestPacket r.2 method) s.2 := by
  unfold designedAt
  rw [Option.bind_eq_some_iff]
  constructor
  · rintro ⟨⟨q, b⟩, hrep, hsub⟩
    obtain ⟨c, i, hfifo⟩ := fifoReportAt_eq_some_iff.mp hrep
    rw [← matched_iff_fifoMatched (orderly_events_iff.mpr h)] at hfifo
    obtain ⟨r, s, method, hex, hm, rfl, rfl⟩ := matched_events_iff.mp hfifo
    unfold submit at hsub
    split_ifs at hsub with hring
    exact ⟨c, i, r, s, method, hex, hm, hring, (Option.some.inj hsub).symm⟩
  · rintro ⟨c, i, r, s, method, hex, hm, hring, rfl⟩
    refine ⟨(requestPacket r.2 method, s.2), fifoReportAt_eq_some_iff.mpr ⟨c, i, ?_⟩, if_pos hring⟩
    rw [← matched_iff_fifoMatched (orderly_events_iff.mpr h)]
    exact matched_events_iff.mpr ⟨r, s, method, hex, hm, rfl, rfl⟩

/-- Without pipelining, the records are those of the design exactly when every request that is
closed has found room. -/
theorem forall_submittedAt_eq_iff (h : NotPipelined tr) :
    (∀ j, submittedAt ∅ tr j = designedAt tr j) ↔
      ∀ c i j r s, ExchangeAt tr c i j r s → s.2.ringRoom = true →
        (requestMapAfter ∅ (tr.take i)).HasRoom c := by
  constructor
  · intro heq c i j r s hex hring
    obtain ⟨method, hm, -⟩ := hex.exists_method
    have hdes : designedAt tr j = some (fillResponse (requestPacket r.2 method) s.2) :=
      (designedAt_eq_some_iff h).mpr ⟨c, i, r, s, method, hex, hm, hring, rfl⟩
    rw [← heq j] at hdes
    obtain ⟨c', i', r', s', _, hex', -, hroom, -⟩ := submittedAt_eq_some_iff.mp hdes
    obtain ⟨rfl, rfl⟩ := hex.left_unique hex'
    exact hroom
  · intro hroom j
    ext p
    rw [submittedAt_eq_some_iff, designedAt_eq_some_iff h]
    constructor
    · rintro ⟨c, i, r, s, method, hex, hm, -, hring, hp⟩
      exact ⟨c, i, r, s, method, hex, hm, hring, hp⟩
    · rintro ⟨c, i, r, s, method, hex, hm, hring, hp⟩
      exact ⟨c, i, r, s, method, hex, hm, hroom c i j r s hex hring, hring, hp⟩

/-- **The design of the document, refined**: the program closes the requests that a queue for every
connection would close exactly when no response comes while two requests of its connection wait, and
then its records are the same exactly when every request that is closed has found room. -/
theorem fifo_design_iff (tr : List Frame) :
    ((∀ c i j, (∃ r s, ExchangeAt tr c i j r s) ↔ ClosedBy tr c i j) ↔ NotPipelined tr) ∧
    (NotPipelined tr → ((∀ j, submittedAt ∅ tr j = designedAt tr j) ↔
      ∀ c i j r s, ExchangeAt tr c i j r s → s.2.ringRoom = true →
        (requestMapAfter ∅ (tr.take i)).HasRoom c)) := by
  refine ⟨?_, forall_submittedAt_eq_iff⟩
  rw [← orderly_events_iff, ← forall_matched_iff]
  simp only [exists_exchange_iff_matched, closedBy_iff_fifoMatched]

end Kubebpfbox.Http
