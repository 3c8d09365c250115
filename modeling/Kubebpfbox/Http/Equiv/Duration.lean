import Kubebpfbox.Http.Equiv.Trace

/-!
# The duration of a record

The start time is stored in the field that later holds the duration, which has 32 bits.  Both times
the clock is narrowed it loses the same high bits, so the record holds the low word of the elapsed
nanoseconds, however the low words of the two readings compare (`duration_record`).  It is the
elapsed time for less than 2^32 ns, a little over four seconds (`duration_eq_iff`).
-/

namespace Kubebpfbox.Http

open Slots

/-- The difference of two readings, the first of which was narrowed and both of which are. -/
theorem toNat_elapsed {t₀ t₁ : UInt64} (h : t₀ ≤ t₁) :
    (t₁ - t₀.toUInt32.toUInt64).toUInt32.toNat = (t₁.toNat - t₀.toNat) % 2 ^ 32 := by
  have hle : t₀.toNat ≤ t₁.toNat := UInt64.le_iff_toNat_le.mp h
  have ht₁ : t₁.toNat < 2 ^ 64 := t₁.toNat_lt
  have hsplit : t₀.toNat = 2 ^ 32 * (t₀.toNat / 2 ^ 32) + t₀.toNat % 2 ^ 32 :=
    (Nat.div_add_mod ..).symm
  rw [UInt64.toNat_toUInt32, UInt64.toNat_sub, UInt32.toNat_toUInt64, UInt64.toNat_toUInt32]
  omega

section Record

variable {filterIp : FilterIp} {mid : List Arrival} {r s : Arrival} {c : ConnKey}
  (hr : SeesRequest filterIp c r)
  (hmid : ∀ x ∈ mid, ¬ SeesRequest filterIp c x ∧ ¬ SeesResponse filterIp c x)
  (hs : SeesResponse filterIp c s) (hclock : r.now ≤ s.now)
include hr hmid hs hclock

theorem duration_record {m : RequestMap} {p : Packet}
    (hp : recordAt filterIp m (r :: mid ++ [s]) (r :: mid).length = some p) :
    p.duration.toNat = (s.now.toNat - r.now.toNat) % 2 ^ 32 := by
  obtain ⟨method, -, hrec⟩ := recordAt_request_response hr hmid hs m
  rw [hp] at hrec
  split_ifs at hrec with hroom
  rw [submit] at hrec
  split_ifs at hrec with hring
  obtain rfl := Option.some.inj hrec
  exact toNat_elapsed hclock

/-- **The reported duration is the elapsed time** exactly when fewer than 2^32 nanoseconds passed,
whatever went before. -/
theorem duration_eq_iff {m : RequestMap} {p : Packet}
    (hp : recordAt filterIp m (r :: mid ++ [s]) (r :: mid).length = some p) :
    p.duration.toNat = s.now.toNat - r.now.toNat ↔ s.now.toNat - r.now.toNat < 2 ^ 32 := by
  rw [duration_record hr hmid hs hclock hp]
  constructor
  · intro heq
    rw [← heq]
    exact Nat.mod_lt _ (by norm_num)
  · exact Nat.mod_eq_of_lt

end Record

/-! ### A response after some time -/

/-- The answer of `hostB`, `t` nanoseconds after the clock started. -/
def okArrivalAt (t : UInt64) : Arrival := { okArrival hostA hostB (200, 1) with now := t }

theorem seesRequest_getArrival : SeesRequest filterB (sampleConn hostA hostB (200, 1))
    (getArrival hostA hostB (200, 1)) := by
  rw [seesRequest_iff_requestOn filterB (plain_getArrival ..)]
  exact requestOn_getArrival hostA_not_mem_filterB hostB (200, 1)

theorem seesResponse_okArrivalAt (t : UInt64) :
    SeesResponse filterB (sampleConn hostA hostB (200, 1)) (okArrivalAt t) := by
  have h := responseOn_okArrival hostA_not_mem_filterB hostB (200, 1)
  rw [← seesResponse_iff_responseOn filterB (plain_okArrival ..)] at h
  exact h

theorem exists_record_okArrivalAt (t : UInt64) : ∃ p, recordAt filterB ∅
    (getArrival hostA hostB (200, 1) :: [] ++ [okArrivalAt t]) 1 = some p := by
  have hmid : ∀ x ∈ ([] : List Arrival), ¬ SeesRequest filterB (sampleConn hostA hostB (200, 1)) x ∧
      ¬ SeesResponse filterB (sampleConn hostA hostB (200, 1)) x := by simp
  have hroom : (∅ : RequestMap).HasRoom (sampleConn hostA hostB (200, 1)) := Or.inr (by decide)
  obtain ⟨method, -, hrec⟩ :=
    recordAt_request_response seesRequest_getArrival hmid (seesResponse_okArrivalAt t) ∅
  rw [if_pos hroom] at hrec
  exact ⟨_, hrec⟩

theorem duration_eq_iff_of_second : ∃ p, recordAt filterB ∅
      (getArrival hostA hostB (200, 1) :: [] ++ [okArrivalAt 1000000000]) 1 = some p ∧
    p.duration.toNat = 1000000000 := by
  obtain ⟨p, hp⟩ := exists_record_okArrivalAt 1000000000
  exact ⟨p, hp, (duration_eq_iff seesRequest_getArrival (by simp) (seesResponse_okArrivalAt _)
    (by decide) hp).mpr (by decide)⟩

/-- After five seconds the record says a little over 0.7. -/
theorem duration_ne_of_five_seconds : ∃ p, recordAt filterB ∅
      (getArrival hostA hostB (200, 1) :: [] ++ [okArrivalAt 5000000000]) 1 = some p ∧
    SeesRequest filterB (sampleConn hostA hostB (200, 1)) (getArrival hostA hostB (200, 1)) ∧
    SeesResponse filterB (sampleConn hostA hostB (200, 1)) (okArrivalAt 5000000000) ∧
    p.duration.toNat = 705032704 ∧
    p.duration.toNat ≠ (okArrivalAt 5000000000).now.toNat
      - (getArrival hostA hostB (200, 1)).now.toNat := by
  obtain ⟨p, hp⟩ := exists_record_okArrivalAt 5000000000
  have hduration := duration_record seesRequest_getArrival (by simp) (seesResponse_okArrivalAt _)
    (by decide) hp
  refine ⟨p, hp, seesRequest_getArrival, seesResponse_okArrivalAt _, ?_, ?_⟩
  · rw [hduration]
    decide
  · rw [hduration]
    decide

end Kubebpfbox.Http
