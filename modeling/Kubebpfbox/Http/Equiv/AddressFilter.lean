import Kubebpfbox.Http.Equiv.Trace

/-!
# The address filter of the kernel program

`checkTargetIp` is true for an address that is *not* in `filter_ip`, and the caller drops a frame
when both negations hold, so it drops the frames both of whose addresses are tracked and lets every
other frame through (`exit_socketFilterHttp_eq_filtered_iff`).

`FilterSelects` is what the filter is for: an untracked frame leaves no trace and a tracked one is
classified.  `filterSelects_iff` says exactly when the program does that.
-/

namespace Kubebpfbox.Http

open Slots

variable {filterIp : FilterIp} {a : Arrival}

theorem checkTargetIp_eq_true_iff {ip : UInt32} :
    checkTargetIp filterIp ip = true ↔ ip ∉ filterIp := by
  rw [checkTargetIp, Option.isNone_iff_eq_none, Bpf.HashMap.lookup_eq_none]

theorem reaches_iff : Reaches filterIp a ↔
    a.skb.IsTcpIpv4 ∧ ¬ (a.skb.iphdr.saddr ∈ filterIp ∧ a.skb.iphdr.daddr ∈ filterIp) := by
  rw [Reaches, Bool.or_eq_true, checkTargetIp_eq_true_iff, checkTargetIp_eq_true_iff,
    ← not_and_or]

theorem exit_classify_ne_filtered (a : Arrival) (m : RequestMap) :
    (classify a m).exit ≠ .filtered := by
  cases hreq : isHttpRequest (parse a.skb).preChar with
  | some method => simp [classify, hreq]
  | none =>
    by_cases hrsp : isHttpResponse (parse a.skb).preChar = true
    · cases hl : m.lookup (parse a.skb).responseKey <;> simp [classify, hreq, hrsp, hl]
    · simp [classify, hreq, hrsp]

/-- The filter drops a frame exactly when both of its addresses are tracked. -/
theorem exit_socketFilterHttp_eq_filtered_iff (h : a.skb.IsTcpIpv4) (m : RequestMap) :
    (socketFilterHttp filterIp a m).exit = .filtered ↔
      a.skb.iphdr.saddr ∈ filterIp ∧ a.skb.iphdr.daddr ∈ filterIp := by
  by_cases hr : Reaches filterIp a
  · rw [socketFilterHttp_of_reaches filterIp hr]
    exact iff_of_false (exit_classify_ne_filtered a m) (reaches_iff.mp hr).2
  · have hboth : a.skb.iphdr.saddr ∈ filterIp ∧ a.skb.iphdr.daddr ∈ filterIp := by
      by_contra hnot
      exact hr (reaches_iff.mpr ⟨h, hnot⟩)
    have hdrop : (!checkTargetIp filterIp (parse a.skb).iph.saddr &&
        !checkTargetIp filterIp (parse a.skb).iph.daddr) = true := by
      rw [Bool.and_eq_true, Bool.not_eq_true', Bool.not_eq_true', ← Bool.not_eq_true,
        ← Bool.not_eq_true, checkTargetIp_eq_true_iff, checkTargetIp_eq_true_iff, not_not, not_not]
      exact hboth
    refine iff_of_true ?_ hboth
    simp [socketFilterHttp, h.1, h.2, hdrop]

/-- The filter selects the tracked traffic: a frame with no tracked address changes nothing and
submits nothing, and a frame with one is classified. -/
def FilterSelects (filterIp : FilterIp) (a : Arrival) (m : RequestMap) : Prop :=
  (a.skb.iphdr.saddr ∉ filterIp → a.skb.iphdr.daddr ∉ filterIp →
    (socketFilterHttp filterIp a m).requestMap = m ∧
      (socketFilterHttp filterIp a m).submitted = none) ∧
  (a.skb.iphdr.saddr ∈ filterIp ∨ a.skb.iphdr.daddr ∈ filterIp →
    (socketFilterHttp filterIp a m).exit ≠ .filtered)

/-- The frame has nothing to do to `request_map`: its head is neither a request nor a response, or
it is a request that is stored already or for which there is no room, or a response to nothing. -/
def FindsNothing (a : Arrival) (m : RequestMap) : Prop := Inert m (headEvent a)

/-- **The filter selects the tracked traffic** exactly when one address is tracked and the other is
not, or when neither is and the frame would have changed nothing anyway. -/
theorem filterSelects_iff (h : a.skb.IsTcpIpv4) (m : RequestMap) :
    FilterSelects filterIp a m ↔
      (a.skb.iphdr.saddr ∈ filterIp ∧ a.skb.iphdr.daddr ∉ filterIp) ∨
      (a.skb.iphdr.saddr ∉ filterIp ∧ a.skb.iphdr.daddr ∈ filterIp) ∨
      (a.skb.iphdr.saddr ∉ filterIp ∧ a.skb.iphdr.daddr ∉ filterIp ∧ FindsNothing a m) := by
  have hexit : (socketFilterHttp filterIp a m).exit = .filtered ↔
      a.skb.iphdr.saddr ∈ filterIp ∧ a.skb.iphdr.daddr ∈ filterIp :=
    exit_socketFilterHttp_eq_filtered_iff h m
  unfold FilterSelects
  by_cases hs : a.skb.iphdr.saddr ∈ filterIp
  · by_cases hd : a.skb.iphdr.daddr ∈ filterIp
    · simp [hs, hd, hexit]
    · simp [hs, hd, hexit]
  · by_cases hd : a.skb.iphdr.daddr ∈ filterIp
    · simp [hs, hd, hexit]
    · -- nothing is tracked, but the frame is classified
      have hr : Reaches filterIp a := reaches_iff.mpr ⟨h, fun hboth => hs hboth.1⟩
      simp only [hs, hd, not_false_eq_true, true_imp_iff, false_or, false_imp_iff, and_true,
        and_false, true_and, or_false]
      rw [socketFilterHttp_of_reaches filterIp hr, requestMap_classify, submitted_classify,
        step_fst_eq_self_iff]
      constructor
      · exact fun hboth => hboth.1
      · intro hinert
        refine ⟨hinert, ?_⟩
        rw [hinert.report_eq_none, Option.bind_none]

theorem filterSelects_iff_of_one_tracked :
    FilterSelects filterB (getArrival hostA hostB (200, 1)) ∅ := by
  have hsrc : (getArrival hostA hostB (200, 1)).skb.iphdr.saddr ∉ filterB := by
    rw [saddr_getArrival]
    exact hostA_not_mem_filterB
  have hdst : (getArrival hostA hostB (200, 1)).skb.iphdr.daddr ∈ filterB := by
    rw [daddr_getArrival, filterB, Bpf.HashMap.mem_put (Or.inr (by decide))]
    exact Or.inl rfl
  exact (filterSelects_iff (isTcpIpv4_getArrival ..) ∅).mpr (Or.inr (Or.inl ⟨hsrc, hdst⟩))

/-- A filter that tracks both hosts. -/
def filterAB : FilterIp := filterB.put hostA.word 1

theorem mem_filterAB : hostA.word ∈ filterAB ∧ hostB.word ∈ filterAB := by
  have hroom : filterB.HasRoom hostA.word := by
    refine Or.inr ?_
    rw [filterB, Bpf.HashMap.size, Bpf.HashMap.keys_put (Or.inr (by decide))]
    decide
  rw [filterAB, Bpf.HashMap.mem_put hroom, Bpf.HashMap.mem_put hroom, filterB,
    Bpf.HashMap.mem_put (Or.inr (by decide))]
  decide

/-- A request between two untracked hosts is stored, and one between two tracked hosts is
dropped. -/
theorem not_filterSelects :
    (getArrival hostA hostB (200, 1)).skb.IsTcpIpv4 ∧
    ¬ FilterSelects ∅ (getArrival hostA hostB (200, 1)) ∅ ∧
    ¬ FilterSelects filterAB (getArrival hostA hostB (200, 1)) ∅ := by
  have htcp := isTcpIpv4_getArrival hostA hostB (200, 1)
  refine ⟨htcp, ?_, ?_⟩
  · rintro ⟨hnone, -⟩
    have hreq : RequestOn ∅ (sampleConn hostA hostB (200, 1))
        (getArrival hostA hostB (200, 1)) :=
      requestOn_getArrival (Bpf.HashMap.not_mem_empty hostA.word) hostB (200, 1)
    obtain ⟨method, hm⟩ := Option.isSome_iff_exists.mp hreq.2.1
    have hput := (frameEvent_eq_put_iff (plain_getArrival ..)).mpr ⟨hreq, method, hm, rfl⟩
    have hmap := (hnone (Bpf.HashMap.not_mem_empty _) (Bpf.HashMap.not_mem_empty _)).1
    rw [requestMap_socketFilterHttp, hput, step_fst_eq_self_iff] at hmap
    rcases hmap with hstored | hfull
    · rw [Bpf.HashMap.lookup_empty] at hstored
      cases hstored
    · exact hfull (Or.inr (by decide))
  · rintro ⟨-, hpass⟩
    have hboth := mem_filterAB
    rw [← saddr_getArrival hostA hostB (200, 1), ← daddr_getArrival hostA hostB (200, 1)] at hboth
    exact hpass (Or.inl hboth.1) ((exit_socketFilterHttp_eq_filtered_iff htcp ∅).mpr hboth)

end Kubebpfbox.Http
