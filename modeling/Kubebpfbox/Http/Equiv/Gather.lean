import Kubebpfbox.Http.Ebpf
import Kubebpfbox.Http.Gather
import Mathlib.Algebra.Order.Field.Rat
import Mathlib.Tactic.Linarith

/-!
# Correctness of the RED aggregation

The invariant of the loop is `Aggregates`: every entry of `redMetric` is the fold over the records
of its pod since the last tick (`Runs.aggregates`).  `step_tick` is what a tick sends under it, and
`total_step` what a round does to the sum of all counts.  `red_conserves` puts them together.
-/

namespace Kubebpfbox.Http.Gather

open Golang Timed

/-- The `RED` values among those that were sent. -/
def reds (l : List Sent) : List RED := l.filterMap Sent.red?

@[simp] theorem reds_append (l l' : List Sent) : reds (l ++ l') = reds l ++ reds l' :=
  List.filterMap_append

@[simp] theorem reds_traffic (m : Traffic) : reds [.traffic m] = [] := rfl

/-! ### What an entry counts -/

/-- `v` counts the records `w`. -/
structure Tallies (w : List Traffic) (v : RED) : Prop where
  requestCount : v.requestCount = w.length
  errCount : v.errCount = w.countP fun m => 499 < (atoi m.code).1
  durationCount : v.durationCount = (w.map fun m => truncate m.duration).sum

namespace Tallies

variable {w : List Traffic} {v : RED}

theorem ofTraffic (m : Traffic) : Tallies [m] (RED.ofTraffic m) where
  requestCount := rfl
  errCount := by
    rw [List.countP_singleton, RED.ofTraffic, isErr]
    by_cases he : 499 < (atoi m.code).1 <;> simp [he]
  durationCount := by
    rw [List.map_singleton, List.sum_singleton]
    rfl

theorem add (h : Tallies w v) (m : Traffic) : Tallies (w ++ [m]) (v.add m) where
  requestCount := by
    rw [List.length_append, RED.add, h.requestCount]
    rfl
  errCount := by
    rw [List.countP_append, List.countP_singleton, RED.add, h.errCount, isErr]
    by_cases he : 499 < (atoi m.code).1 <;> simp [he]
  durationCount := by
    rw [List.map_append, List.sum_append, List.map_singleton, List.sum_singleton, RED.add,
      h.durationCount]

theorem withRates (h : Tallies w v) : Tallies w v.withRates :=
  ⟨h.requestCount, h.errCount, h.durationCount⟩

/-- The counts are in order, so that no quotient of a tick has the divisor zero. -/
theorem bounds (h : Tallies w v) (hw : w ≠ []) :
    1 ≤ v.requestCount ∧ 0 ≤ v.errCount ∧ v.errCount ≤ v.requestCount := by
  have hlen : 0 < w.length := List.length_pos_of_ne_nil hw
  have hle := List.countP_le_length (p := fun m : Traffic => 499 < (atoi m.code).1) (l := w)
  rw [h.requestCount, h.errCount]
  omega

/-- Codes short enough for `atoi` count as errors exactly when they denote a number above 499. -/
theorem errCount_of_short (h : Tallies w v) (hw : ∀ m ∈ w, m.code.length < 19) :
    v.errCount = w.countP fun m => (decimal? m.code).any (499 < ·) := by
  rw [h.errCount]
  congr 1
  apply List.countP_congr
  intro m hm
  rw [atoi_eq_of_length_lt (hw m hm)]
  cases decimal? m.code with
  | none => simp
  | some n => simp

end Tallies

/-- The error rate is a percentage. -/
theorem errRate_withRates {v : RED} (h : 1 ≤ v.requestCount ∧ 0 ≤ v.errCount ∧
    v.errCount ≤ v.requestCount) : 0 ≤ v.withRates.errRate ∧ v.withRates.errRate ≤ 100 := by
  obtain ⟨hreq, herr, hle⟩ := h
  have hreq' : (0 : ℚ) < v.requestCount := by exact_mod_cast hreq
  have herr' : (0 : ℚ) ≤ v.errCount := by exact_mod_cast herr
  have hle' : (v.errCount : ℚ) ≤ v.requestCount := by exact_mod_cast hle
  have hquot : (v.errCount : ℚ) / v.requestCount ≤ 1 := (div_le_one hreq').mpr hle'
  have hnonneg : (0 : ℚ) ≤ v.errCount / v.requestCount := div_nonneg herr' hreq'.le
  show 0 ≤ (v.errCount : ℚ) / v.requestCount * 100 ∧ (v.errCount : ℚ) / v.requestCount * 100 ≤ 100
  constructor <;> linarith

/-- The names in an entry are those of the first record it counts; its service is named after the
name space. -/
structure Identifies (m : Traffic) (v : RED) : Prop where
  podName : v.podName = m.podName
  nodeName : v.nodeName = m.nodeName
  nameSpace : v.nameSpace = m.nameSpace
  serviceName : v.serviceName = m.nameSpace

/-- The entry that `w` leaves behind. -/
abbrev tally (w : List Traffic) : Option RED := foldFirst RED.ofTraffic RED.add w

theorem tallies_of_tally {w : List Traffic} {v : RED} (h : tally w = some v) : Tallies w v :=
  foldFirst_induction Tallies.ofTraffic (fun _ _ m hw => hw.add m) h

theorem identifies_of_tally {w : List Traffic} {v : RED} (h : tally w = some v) :
    ∃ m, w.head? = some m ∧ Identifies m v := by
  refine foldFirst_induction (P := fun w v => ∃ m, w.head? = some m ∧ Identifies m v) ?_ ?_ h
  · intro m
    exact ⟨m, rfl, rfl, rfl, rfl, rfl⟩
  · rintro w v m ⟨m', hhead, hid⟩
    refine ⟨m', ?_, hid.1, hid.2, hid.3, hid.4⟩
    rw [List.head?_append, hhead, Option.some_or]

/-! ### The invariant -/

/-- Every entry is what the records of its pod leave behind. -/
def Aggregates (w : List Traffic) (g : Gather) : Prop :=
  ∀ k, g.redMetric.lookup k = tally (ofKey Traffic.podName k w)

theorem Aggregates.mem_iff {w : List Traffic} {g : Gather} (h : Aggregates w g) (k : GoString) :
    k ∈ g.redMetric ↔ k ∈ w.map Traffic.podName := by
  rw [← not_iff_not, ← Finmap.lookup_eq_none, h k, foldFirst_eq_none_iff, ofKey_eq_nil_iff]

/-- An entry counts the records of its pod, of which there is at least one. -/
theorem Aggregates.entry {w : List Traffic} {g : Gather} (h : Aggregates w g) {k : GoString}
    {v : RED} (hk : g.redMetric.lookup k = some v) :
    v.podName = k ∧ Tallies (ofKey Traffic.podName k w) v ∧ ofKey Traffic.podName k w ≠ [] := by
  rw [h k] at hk
  obtain ⟨m, hhead, hid⟩ := identifies_of_tally hk
  have hm : m ∈ ofKey Traffic.podName k w := List.mem_of_head? hhead
  refine ⟨?_, tallies_of_tally hk, List.ne_nil_of_mem hm⟩
  rw [hid.podName]
  exact (mem_ofKey.mp hm).2

/-- A tick over distinct keys. -/
theorem tick_eq {order : List GoString} (horder : order.Nodup) (g : Gather) :
    g.tick order =
      { redMetric := g.redMetric.eraseAll order
        sent := g.sent ++
          ((order.filterMap fun k => g.redMetric.lookup k).map RED.withRates).map .red } := by
  unfold tick
  induction order generalizing g with
  | nil =>
    rw [List.foldl_nil, List.filterMap_nil, List.map_nil, List.map_nil, List.append_nil]
    rfl
  | cons k order ih =>
    obtain ⟨hk, hnodup⟩ := List.nodup_cons.mp horder
    rw [List.foldl_cons, ih hnodup, flush]
    cases hlook : g.redMetric.lookup k with
    | none =>
      rw [List.filterMap_cons_none (f := fun k => g.redMetric.lookup k) hlook,
        GoMap.eraseAll_cons, GoMap.erase_of_lookup_eq_none hlook]
    | some v =>
      -- the deletion leaves the entries of the later keys as they are
      have hrest : (order.filterMap fun k' => (g.redMetric.erase k).lookup k') =
          order.filterMap fun k' => g.redMetric.lookup k' := by
        apply List.filterMap_congr
        intro k' hk'
        exact Finmap.lookup_erase_ne fun heq => hk (heq ▸ hk')
      show Gather.mk _ (g.sent ++ [.red v.withRates] ++ _) = _
      rw [List.filterMap_cons_some (f := fun k => g.redMetric.lookup k) hlook, hrest,
        List.append_assoc]
      rfl

/-- One round keeps the invariant. -/
theorem aggregates_step {w : List Traffic} {g g' : Gather} {t : Timed Traffic}
    (h : Aggregates w g) (hstep : Step g t g') : Aggregates (extend w t) g' := by
  rcases hstep with m | horder
  · exact GoMap.lookup_upsert_of_foldFirst h m
  · intro k
    rw [tick_eq horder.1, horder.eraseAll]
    rfl

theorem Runs.aggregates {l : List (Timed Traffic)} {g : Gather} (h : Runs l g) :
    Aggregates (window l) g := by
  induction h with
  | nil => exact fun _ => rfl
  | concat _ hstep ih =>
    rw [window_concat]
    exact aggregates_step ih hstep

/-! ### What a tick sends -/

/-- The `RED` values that are sent for the window `w`: one for every pod, with the counts of its
records. -/
structure Reports (w : List Traffic) (vs : List RED) : Prop where
  nodup : (vs.map RED.podName).Nodup
  mem_iff : ∀ k, k ∈ vs.map RED.podName ↔ k ∈ w.map Traffic.podName
  tallies : ∀ v ∈ vs, Tallies (ofKey Traffic.podName v.podName w) v
  /-- the same count in terms of what the codes denote -/
  errCount : (∀ m ∈ w, m.code.length < 19) → ∀ v ∈ vs, v.errCount =
    (ofKey Traffic.podName v.podName w).countP fun m => (decimal? m.code).any (499 < ·)
  errRate : ∀ v ∈ vs, 0 ≤ v.errRate ∧ v.errRate ≤ 100

/-- The entries under the keys are named after them. -/
theorem Aggregates.map_podName {w : List Traffic} {g : Gather} (h : Aggregates w g)
    {order : List GoString} (horder : ∀ k ∈ order, k ∈ g.redMetric) :
    ((order.filterMap fun k => g.redMetric.lookup k).map RED.withRates).map RED.podName =
      order := by
  induction order with
  | nil => rfl
  | cons k order ih =>
    obtain ⟨v, hv⟩ := Finmap.mem_iff.mp (horder k (List.mem_cons_self ..))
    rw [List.filterMap_cons_some (f := fun k => g.redMetric.lookup k) hv, List.map_cons,
      List.map_cons, ih fun k' hk' => horder k' (List.mem_cons_of_mem _ hk')]
    exact congrArg (· :: order) (h.entry hv).1

/-- A tick sends the reports of the window, and leaves the map empty. -/
theorem step_tick {w : List Traffic} {g g' : Gather} (h : Aggregates w g)
    (hstep : Step g .tick g') :
    ∃ vs, g'.sent = g.sent ++ vs.map .red ∧ g'.redMetric = ∅ ∧ Reports w vs := by
  cases hstep with
  | @tick order horder =>
    have hmem : ∀ k ∈ order, k ∈ g.redMetric := fun k hk => horder.mem_iff.mp hk
    -- what is sent are the entries of the map with their rates
    have hentry : ∀ v ∈ (order.filterMap fun k => g.redMetric.lookup k).map RED.withRates,
        ∃ k v', g.redMetric.lookup k = some v' ∧ v = v'.withRates := by
      intro v hv
      obtain ⟨v', hv', rfl⟩ := List.mem_map.mp hv
      obtain ⟨k, -, hk⟩ := List.mem_filterMap.mp hv'
      exact ⟨k, v', hk, rfl⟩
    have htallies : ∀ v ∈ (order.filterMap fun k => g.redMetric.lookup k).map RED.withRates,
        Tallies (ofKey Traffic.podName v.podName w) v := by
      intro v hv
      obtain ⟨k, v', hk, rfl⟩ := hentry v hv
      obtain ⟨hname, htally, -⟩ := h.entry hk
      show Tallies (ofKey Traffic.podName v'.podName w) _
      rw [hname]
      exact htally.withRates
    rw [tick_eq horder.1, horder.eraseAll]
    refine ⟨_, rfl, rfl, ?_, ?_, htallies, ?_, ?_⟩
    · rw [h.map_podName hmem]
      exact horder.1
    · intro k
      rw [h.map_podName hmem, horder.mem_iff, h.mem_iff]
    · intro hshort v hv
      exact (htallies v hv).errCount_of_short fun m hm => hshort m (mem_ofKey.mp hm).1
    · intro v hv
      obtain ⟨k, v', hk, rfl⟩ := hentry v hv
      obtain ⟨-, htally, hne⟩ := h.entry hk
      exact errRate_withRates (htally.bounds hne)

theorem eq_of_sent_eq {l : List Sent} {vs vs' : List RED}
    (h : l ++ vs.map .red = l ++ vs'.map .red) : vs = vs' := by
  have hinj : Function.Injective Sent.red := fun _ _ heq => Sent.red.inj heq
  exact List.map_injective_iff.mpr hinj (List.append_cancel_left h)

/-- A metric that is sent is the entry of its pod with the rates. -/
theorem tally_of_sent {w : List Traffic} {g g' : Gather} {vs : List RED} (h : Aggregates w g)
    (hstep : Step g .tick g') (hsent : g'.sent = g.sent ++ vs.map .red) :
    ∀ v ∈ vs, ∃ v', tally (ofKey Traffic.podName v.podName w) = some v' ∧ v = v'.withRates := by
  cases hstep with
  | @tick order horder =>
    rw [tick_eq horder.1] at hsent
    obtain rfl := eq_of_sent_eq hsent
    intro v hv
    obtain ⟨v', hv', rfl⟩ := List.mem_map.mp hv
    obtain ⟨k, -, hk⟩ := List.mem_filterMap.mp hv'
    refine ⟨v', ?_, rfl⟩
    show tally (ofKey Traffic.podName v'.podName w) = _
    rw [(h.entry hk).1, ← h k, hk]

/-! ### Whole runs -/

theorem exists_runs (l : List (Timed Traffic)) : ∃ g, Runs l g := by
  induction l using List.reverseRecOn with
  | nil => exact ⟨_, .nil⟩
  | append_singleton l t ih =>
    obtain ⟨g, hrun⟩ := ih
    cases t with
    | value m => exact ⟨_, hrun.concat (.receive m)⟩
    | tick =>
      obtain ⟨order, horder⟩ := GoMap.exists_isRange g.redMetric
      exact ⟨_, hrun.concat (.tick horder)⟩

/-- What can be said of the metrics of one tick from its window, can be said of those of all ticks
of all runs over `l` from its windows. -/
theorem forall_ticks_iff {l : List (Timed Traffic)} {P : List Traffic → List RED → Prop}
    {Q : List Traffic → Prop}
    (h : ∀ l' g g' vs, l' ++ [.tick] <+: l → Aggregates (window l') g → Step g .tick g' →
      g'.sent = g.sent ++ vs.map .red → (P (window l') vs ↔ Q (window l'))) :
    (∀ l' g g', l' ++ [.tick] <+: l → Runs l' g → Step g .tick g' →
      ∃ vs, g'.sent = g.sent ++ vs.map .red ∧ P (window l') vs) ↔
    ∀ l', l' ++ [.tick] <+: l → Q (window l') := by
  constructor
  · intro hP l' hl'
    obtain ⟨g, hrun⟩ := exists_runs l'
    obtain ⟨order, horder⟩ := GoMap.exists_isRange g.redMetric
    obtain ⟨vs, hsent, hvs⟩ := hP l' g _ hl' hrun (.tick horder)
    exact (h l' g _ vs hl' hrun.aggregates (.tick horder) hsent).mp hvs
  · intro hQ l' g g' hl' hrun hstep
    obtain ⟨vs, hsent, -⟩ := step_tick hrun.aggregates hstep
    exact ⟨vs, hsent, (h l' g g' vs hl' hrun.aggregates hstep hsent).mpr (hQ l' hl')⟩

/-- A window that does not allow for `P` has a run and a tick whose metrics do not have it. -/
theorem exists_tick_not {l : List (Timed Traffic)} {P : List Traffic → List RED → Prop}
    {Q : List Traffic → Prop}
    (h : ∀ g g' vs, Aggregates (window l) g → Step g .tick g' →
      g'.sent = g.sent ++ vs.map .red → (P (window l) vs ↔ Q (window l)))
    (hQ : ¬ Q (window l)) : ∃ g g', Runs l g ∧ Step g .tick g' ∧
      ∀ vs, g'.sent = g.sent ++ vs.map .red → ¬ P (window l) vs := by
  obtain ⟨g, hrun⟩ := exists_runs l
  obtain ⟨order, horder⟩ := GoMap.exists_isRange g.redMetric
  refine ⟨g, _, hrun, .tick horder, fun vs hsent hP => hQ ?_⟩
  exact (h g _ vs hrun.aggregates (.tick horder) hsent).mp hP

/-! ### Conservation -/

/-- The records counted in what was sent and in the map. -/
def total (g : Gather) : ℤ :=
  ((reds g.sent).map RED.requestCount).sum + GoMap.sum RED.requestCount g.redMetric

theorem total_receive (g : Gather) (m : Traffic) : total (g.receive m) = total g + 1 := by
  unfold total receive
  rw [reds_append, reds_traffic, List.append_nil,
    GoMap.sum_upsert RED.requestCount _ _ (d := 1) rfl fun _ => rfl, add_assoc]

/-- A count that is sent is taken from the map. -/
theorem total_flush (g : Gather) (k : GoString) : total (g.flush k) = total g := by
  unfold flush
  cases hk : g.redMetric.lookup k with
  | none => rfl
  | some v =>
    unfold total
    rw [GoMap.sum_of_lookup hk, reds_append, List.map_append, List.sum_append, add_assoc]
    exact congrArg (_ + ·) (congrArg (· + _) (List.sum_singleton ..))

theorem total_tick (g : Gather) (order : List GoString) : total (g.tick order) = total g := by
  unfold tick
  induction order generalizing g with
  | nil => rfl
  | cons k order ih => rw [List.foldl_cons, ih, total_flush]

theorem Runs.total_eq {l : List (Timed Traffic)} {g : Gather} (h : Runs l g) :
    total g = (values l).length := by
  induction h with
  | nil => rfl
  | concat _ hstep ih =>
    cases hstep with
    | receive m =>
      rw [total_receive, ih, values_concat_value, List.length_append]
      rfl
    | tick horder => rw [total_tick, ih, values_concat_tick]

/-- **RED aggregation loses and double-counts nothing**, whatever records and ticks came before.  The
counters have no bound here, and the rates are exact rationals. -/
theorem red_conserves {l : List (Timed Traffic)} {g : Gather} (h : Runs l g) :
    (∃ g', Step g .tick g') ∧
    (∀ g', Step g .tick g' →
      ∃ vs, g'.sent = g.sent ++ vs.map .red ∧ g'.redMetric = ∅ ∧ Reports (window l) vs) ∧
    (∀ m g', Step g (.value m) g' → reds g'.sent = reds g.sent) ∧
    (∀ k v, g.redMetric.lookup k = some v →
      1 ≤ v.requestCount ∧ 0 ≤ v.errCount ∧ v.errCount ≤ v.requestCount) ∧
    ((reds g.sent).map RED.requestCount).sum + GoMap.sum RED.requestCount g.redMetric =
      (values l).length := by
  have hinv := h.aggregates
  refine ⟨?_, ?_, ?_, ?_, h.total_eq⟩
  · obtain ⟨order, horder⟩ := GoMap.exists_isRange g.redMetric
    exact ⟨_, Step.tick horder⟩
  · intro g' hstep
    exact step_tick hinv hstep
  · rintro m g' ⟨⟩
    rw [receive, reds_append, reds_traffic, List.append_nil]
  · intro k v hk
    obtain ⟨-, htally, hne⟩ := hinv.entry hk
    exact htally.bounds hne

/-- A record of the pod `web-0`. -/
def webTraffic (nameSpace serviceName code : String) (duration : ℚ) : Traffic where
  type := 1
  flow := 1
  dstIP := ascii "10.0.0.2"
  dstPort := 80
  srcIP := ascii "10.0.0.1"
  srcPort := 51201
  duration := duration
  method := ascii "GET"
  url := ascii "/"
  code := ascii code
  podName := ascii "web-0"
  nodeName := ascii "node1"
  nameSpace := ascii nameSpace
  serviceName := ascii serviceName

/-- A success and a failure. -/
def twoRecords : List (Timed Traffic) :=
  [.value (webTraffic "default" "web" "200" 3), .value (webTraffic "default" "web" "503" 5)]

theorem red_conserves_of_two : ∃ g g' vs, Runs twoRecords g ∧ Step g .tick g' ∧
    g'.sent = g.sent ++ vs.map .red ∧ Reports (window twoRecords) vs := by
  have hrun : Runs twoRecords _ := (Runs.nil.concat (Step.receive _)).concat (Step.receive _)
  obtain ⟨⟨g', hstep⟩, htick, -⟩ := red_conserves hrun
  obtain ⟨vs, hsent, -, hreports⟩ := htick g' hstep
  exact ⟨_, g', vs, hrun, hstep, hsent, hreports⟩

end Kubebpfbox.Http.Gather
