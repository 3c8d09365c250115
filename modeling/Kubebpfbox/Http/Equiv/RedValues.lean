import Kubebpfbox.Http.Equiv.PerPod
import Mathlib.Data.Rat.Floor

/-!
# What a RED metric says of its records

A metric that is sent is what the records of its pod leave behind (`tally_of_sent`).  Its service is
the one the first of them set, which is the name of a name space; its duration is the sum of what
`int` leaves of their durations, over their number.

* `attributes_iff`: in every run the metrics name the service of their records exactly when the
  services are called like the name spaces.
* `meansDurations_iff`: in every run their durations are means exactly when all records last whole
  milliseconds.
-/

namespace Kubebpfbox.Http

open Golang Timed

/-! ### Cutting off the fraction -/

theorem truncate_of_nonneg {q : ℚ} (h : 0 ≤ q) : truncate q = ⌊q⌋ := by
  rw [truncate, Int.tdiv_eq_ediv_of_nonneg (Rat.num_nonneg.mpr h), ← Rat.floor_def']

theorem truncate_le {q : ℚ} (h : 0 ≤ q) : (truncate q : ℚ) ≤ q := by
  rw [truncate_of_nonneg h]
  exact Int.floor_le q

/-- Nothing is cut off a whole number, and off no other. -/
theorem truncate_eq_iff {q : ℚ} : (truncate q : ℚ) = q ↔ q.den = 1 := by
  constructor
  · intro h
    rw [← h]
    exact Rat.den_intCast _
  · intro h
    rw [truncate, h, Nat.cast_one, Int.tdiv_one]
    exact Rat.coe_int_num_of_den_eq_one h

theorem sum_truncate_le : ∀ l : List ℚ, (∀ q ∈ l, 0 ≤ q) → ((l.map truncate).sum : ℚ) ≤ l.sum
  | [], _ => le_refl _
  | q :: l, h => by
    have hl := sum_truncate_le l fun q' hq' => h q' (List.mem_cons_of_mem _ hq')
    rw [List.map_cons, List.sum_cons, List.sum_cons, Int.cast_add]
    exact add_le_add (truncate_le (h q (List.mem_cons_self ..))) hl

/-- The fractions do not average out: what is lost on one number is lost in the sum. -/
theorem sum_truncate_eq_iff : ∀ l : List ℚ, (∀ q ∈ l, 0 ≤ q) →
    (((l.map truncate).sum : ℚ) = l.sum ↔ ∀ q ∈ l, q.den = 1)
  | [], _ => iff_of_true rfl fun _ hq => absurd hq List.not_mem_nil
  | q :: l, h => by
    have hrest : ∀ q' ∈ l, 0 ≤ q' := fun q' hq' => h q' (List.mem_cons_of_mem _ hq')
    have hq := truncate_le (h q (List.mem_cons_self ..))
    rw [List.map_cons, List.sum_cons, List.sum_cons, Int.cast_add, List.forall_mem_cons,
      ← sum_truncate_eq_iff l hrest, ← truncate_eq_iff]
    exact add_eq_add_iff_eq_and_eq hq (sum_truncate_le l hrest)

namespace Gather

section Tick

variable {w : List Traffic} {g g' : Gather} {vs : List RED}

/-- Every pod of the window has a metric. -/
theorem exists_mem_of_sent (h : Aggregates w g) (hstep : Step g .tick g')
    (hsent : g'.sent = g.sent ++ vs.map .red) {m : Traffic} (hm : m ∈ w) :
    ∃ v ∈ vs, v.podName = m.podName := by
  obtain ⟨vs', hsent', -, hreports⟩ := step_tick h hstep
  obtain rfl : vs = vs' := eq_of_sent_eq (hsent.symm.trans hsent')
  exact List.mem_map.mp ((hreports.mem_iff m.podName).mpr (List.mem_map_of_mem hm))

end Tick

/-! ### The service -/

/-- The metrics name the service of the records they count, where these agree on one. -/
def Attributes (w : List Traffic) (vs : List RED) : Prop :=
  ∀ v ∈ vs, ∀ s, (∀ m ∈ ofKey Traffic.podName v.podName w, m.serviceName = s) →
    v.covertMetric.tags.lookup (ascii "servicename") = some s

/-- The first record of a pod, if the pod's records agree on the service, has a service that is
called like its name space. -/
def NamesServices (w : List Traffic) : Prop :=
  ∀ m ∈ w, (ofKey Traffic.podName m.podName w).head? = some m →
    (∀ m' ∈ ofKey Traffic.podName m.podName w, m'.serviceName = m.serviceName) →
    m.nameSpace = m.serviceName

instance (w : List Traffic) : Decidable (NamesServices w) :=
  inferInstanceAs (Decidable (∀ m ∈ w, _ → (∀ m' ∈ _, _) → _))

theorem tags_serviceName (v : RED) :
    v.covertMetric.tags.lookup (ascii "servicename") = some v.serviceName :=
  Finmap.lookup_insert _

/-- One tick. -/
theorem attributes_tick_iff {w : List Traffic} {g g' : Gather} {vs : List RED}
    (h : Aggregates w g) (hstep : Step g .tick g') (hsent : g'.sent = g.sent ++ vs.map .red) :
    Attributes w vs ↔ NamesServices w := by
  unfold Attributes NamesServices
  constructor
  · intro hattr m hm hhead hagree
    obtain ⟨v, hv, hname⟩ := exists_mem_of_sent h hstep hsent hm
    obtain ⟨v', htally, rfl⟩ := tally_of_sent h hstep hsent v hv
    obtain ⟨m', hhead', hid⟩ := identifies_of_tally htally
    -- the metric goes by the first record, which is `m`
    rw [hname, hhead] at hhead'
    obtain rfl : m = m' := Option.some.inj hhead'
    have htag := hattr _ hv m.serviceName (by rw [hname]; exact hagree)
    rw [tags_serviceName, Option.some.injEq] at htag
    exact hid.serviceName.symm.trans htag
  · intro hnames v hv s hs
    obtain ⟨v', htally, rfl⟩ := tally_of_sent h hstep hsent v hv
    obtain ⟨m, hhead, hid⟩ := identifies_of_tally htally
    have hmem := List.mem_of_head? hhead
    obtain ⟨hm, hname⟩ := mem_ofKey.mp hmem
    have hms : m.serviceName = s := hs m hmem
    rw [← hname] at hhead hs
    have hns : m.nameSpace = m.serviceName :=
      hnames m hm hhead fun m' hm' => (hs m' hm').trans hms.symm
    rw [tags_serviceName, Option.some.injEq, ← hms, ← hns]
    exact hid.serviceName

/-- **The metrics name the service** at every tick of every run over `l`, exactly when in every
window the services the records of a pod agree on are called like the name space of the first. -/
theorem attributes_iff (l : List (Timed Traffic)) :
    (∀ l' g g', l' ++ [.tick] <+: l → Runs l' g → Step g .tick g' →
      ∃ vs, g'.sent = g.sent ++ vs.map .red ∧ Attributes (window l') vs) ↔
    ∀ l', l' ++ [.tick] <+: l → NamesServices (window l') :=
  forall_ticks_iff fun _ _ _ _ _ hagg hstep hsent => attributes_tick_iff hagg hstep hsent

/-- One request to the service `web` of the name space `default`, then a tick. -/
def oneRequest : List (Timed Traffic) := [.value (webTraffic "default" "web" "200" 3), .tick]

/-- It is reported for a service called `default`. -/
theorem not_attributes_oneRequest : ∃ g g', Runs (oneRequest.take 1) g ∧ Step g .tick g' ∧
    ∀ vs, g'.sent = g.sent ++ vs.map .red → ¬ Attributes (window (oneRequest.take 1)) vs :=
  exists_tick_not (fun _ _ _ hagg hstep hsent => attributes_tick_iff hagg hstep hsent) (by decide)

/-! ### The duration -/

/-- The arithmetic mean. -/
def mean (l : List ℚ) : ℚ := l.sum / l.length

/-- The durations of the metrics are the means of the durations of the records they count. -/
def MeansDurations (w : List Traffic) (vs : List RED) : Prop :=
  ∀ v ∈ vs, v.duration = mean ((ofKey Traffic.podName v.podName w).map Traffic.duration)

/-- All records last whole milliseconds. -/
def WholeMillis (w : List Traffic) : Prop := ∀ m ∈ w, m.duration.den = 1

instance (w : List Traffic) : Decidable (WholeMillis w) :=
  inferInstanceAs (Decidable (∀ m ∈ w, _))

/-- The duration of an entry is the mean of what is left of the records' durations. -/
theorem duration_withRates {w : List Traffic} {v : RED} (h : Tallies w v) :
    v.withRates.duration = ((w.map Traffic.duration).map truncate).sum / (w.length : ℚ) := by
  show (v.durationCount : ℚ) / v.requestCount = _
  rw [h.durationCount, h.requestCount, List.map_map, Int.cast_natCast]
  rfl

/-- One entry. -/
theorem duration_eq_mean_iff {w : List Traffic} {v : RED} (h : Tallies w v) (hw : w ≠ [])
    (hnonneg : ∀ m ∈ w, 0 ≤ m.duration) :
    v.withRates.duration = mean (w.map Traffic.duration) ↔ WholeMillis w := by
  have hlen : (w.length : ℚ) ≠ 0 := by
    rw [Nat.cast_ne_zero]
    exact (List.length_pos_of_ne_nil hw).ne'
  have hdur : ∀ q ∈ w.map Traffic.duration, 0 ≤ q := by
    intro q hq
    obtain ⟨m, hm, rfl⟩ := List.mem_map.mp hq
    exact hnonneg m hm
  rw [duration_withRates h, mean, List.length_map, div_left_inj' hlen, sum_truncate_eq_iff _ hdur,
    List.forall_mem_map]
  rfl

/-- One tick. -/
theorem meansDurations_tick_iff {w : List Traffic} {g g' : Gather} {vs : List RED}
    (hnonneg : ∀ m ∈ w, 0 ≤ m.duration) (h : Aggregates w g) (hstep : Step g .tick g')
    (hsent : g'.sent = g.sent ++ vs.map .red) : MeansDurations w vs ↔ WholeMillis w := by
  have hentry : ∀ v ∈ vs, v.duration =
        mean ((ofKey Traffic.podName v.podName w).map Traffic.duration) ↔
      WholeMillis (ofKey Traffic.podName v.podName w) := by
    intro v hv
    obtain ⟨v', htally, rfl⟩ := tally_of_sent h hstep hsent v hv
    -- a metric that is sent counts at least one record
    have hne : ofKey Traffic.podName v'.withRates.podName w ≠ [] := by
      intro hnil
      rw [hnil] at htally
      cases htally
    exact duration_eq_mean_iff (tallies_of_tally htally) hne
      fun m hm => hnonneg m (mem_ofKey.mp hm).1
  constructor
  · intro hmeans m hm
    obtain ⟨v, hv, hname⟩ := exists_mem_of_sent h hstep hsent hm
    exact (hentry v hv).mp (hmeans v hv) m (mem_ofKey.mpr ⟨hm, hname.symm⟩)
  · intro hwhole v hv
    exact (hentry v hv).mpr fun m hm => hwhole m (mem_ofKey.mp hm).1

/-- A record that reaches the loop has a duration, and a whole one when the kernel measured whole
milliseconds. -/
theorem duration_decodeMapItem {σ : Type} {endpoint2pod : Endpoint2Pod σ} {packet : HttpPacket}
    {m : Traffic} (h : decodeMapItem endpoint2pod packet = .ok m) :
    0 ≤ m.duration ∧ (m.duration.den = 1 ↔ 1000 * 1000 ∣ packet.duration.toNat) := by
  have hdur : m.duration = packet.duration.toNat / (1000 * 1000) := by
    simp only [decodeMapItem] at h
    split at h
    · cases h
      rfl
    · cases h
  rw [hdur]
  refine ⟨by positivity, ?_⟩
  have hden := Rat.den_div_natCast_eq_one_iff packet.duration.toNat (1000 * 1000) (by norm_num)
  rwa [Nat.cast_mul, Nat.cast_ofNat] at hden

/-- The values of a window are among all values. -/
theorem mem_values_of_mem_window {l l' : List (Timed Traffic)} (hl : l' ++ [.tick] <+: l)
    {m : Traffic} (h : m ∈ window l') : m ∈ values l := by
  have hin : m ∈ values l' := by
    clear hl
    induction l' using List.reverseRecOn with
    | nil => exact h
    | append_singleton l' t ih =>
      rw [window_concat] at h
      rcases t with a | _
      · rw [values_concat_value]
        rcases List.mem_append.mp h with hw | ha
        · exact List.mem_append_left _ (ih hw)
        · exact List.mem_append_right _ ha
      · exact absurd h List.not_mem_nil
  obtain ⟨l'', rfl⟩ := hl
  rw [values, List.filterMap_append, List.filterMap_append]
  exact List.mem_append_left _ (List.mem_append_left _ hin)

/-- **The durations are means** at every tick of every run over `l`, exactly when in every window
all records last whole milliseconds.  Durations and means are exact rationals here: a `float32` that
the source sends is rounded on top of that. -/
theorem meansDurations_iff (l : List (Timed Traffic)) (hnonneg : ∀ m ∈ values l, 0 ≤ m.duration) :
    (∀ l' g g', l' ++ [.tick] <+: l → Runs l' g → Step g .tick g' →
      ∃ vs, g'.sent = g.sent ++ vs.map .red ∧ MeansDurations (window l') vs) ↔
    ∀ l', l' ++ [.tick] <+: l → WholeMillis (window l') := by
  apply forall_ticks_iff
  intro l' g g' vs hl' hagg hstep hsent
  exact meansDurations_tick_iff (fun m hm => hnonneg m (mem_values_of_mem_window hl' hm)) hagg
    hstep hsent

theorem meansDurations_iff_of_two : (∀ m ∈ values (twoRecords ++ [.tick]), 0 ≤ m.duration) ∧
    ∀ l' g g', l' ++ [.tick] <+: twoRecords ++ [.tick] → Runs l' g → Step g .tick g' →
      ∃ vs, g'.sent = g.sent ++ vs.map .red ∧ MeansDurations (window l') vs := by
  have hnonneg : ∀ m ∈ values (twoRecords ++ [.tick]), 0 ≤ m.duration := by decide
  have hwhole : ∀ m ∈ values (twoRecords ++ [.tick]), m.duration.den = 1 := by decide
  refine ⟨hnonneg, (meansDurations_iff _ hnonneg).mpr fun l' hl' m hm => ?_⟩
  exact hwhole m (mem_values_of_mem_window hl' hm)

/-- Two requests of half a millisecond each, then a tick. -/
def halfMillis : List (Timed Traffic) :=
  [.value (webTraffic "default" "web" "200" (1 / 2)),
    .value (webTraffic "default" "web" "200" (1 / 2)), .tick]

/-- They are reported to take no time. -/
theorem not_meansDurations_halfMillis : (∀ m ∈ values halfMillis, 0 ≤ m.duration) ∧
    ∃ g g', Runs (halfMillis.take 2) g ∧ Step g .tick g' ∧
      ∀ vs, g'.sent = g.sent ++ vs.map .red →
        ¬ MeansDurations (window (halfMillis.take 2)) vs := by
  have hnonneg : ∀ m ∈ values halfMillis, 0 ≤ m.duration := by decide +kernel
  have hfrac : ¬ WholeMillis (window (halfMillis.take 2)) := by decide +kernel
  refine ⟨hnonneg, exists_tick_not (fun _ _ _ hagg hstep hsent => ?_) hfrac⟩
  exact meansDurations_tick_iff hnonneg hagg hstep hsent

end Gather

end Kubebpfbox.Http
