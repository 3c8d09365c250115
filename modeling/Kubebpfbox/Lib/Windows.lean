import Mathlib.Data.List.Basic
import Mathlib.Data.List.Nodup
import Mathlib.Tactic.Ring

/-!
# Copying a delimited text window by window

A text is read in windows of `width` bytes, a new window every `stride` bytes, and the windows are
laid side by side into a buffer.  A byte that stops the reading is not kept, nor is anything behind
it; a window that passes the end of the text is not read, nor is any window behind it.

`Reading` holds the text with the two sizes, `source x` is the position of the text that byte `x` of
the buffer comes from, and `Kept x` says that the byte stays there.  `copied zero n` is the buffer
after `n` bytes, with `zero` wherever nothing is kept.

* `exists_source_eq`: windows that leave no gap read every byte in front of one they have read.
* `kept_of_lt`, `not_kept_of_stops`: what is kept, in terms of the first byte that stops.
-/

namespace Windows

/-- A loop over `0, …, n - 1` keeps an invariant that counts the rounds. -/
theorem foldl_range_invariant {α : Type*} {P : ℕ → α → Prop} {f : α → ℕ → α} {a : α} (n : ℕ)
    (hzero : P 0 a) (hstep : ∀ i < n, ∀ b, P i b → P (i + 1) (f b i)) :
    P n ((List.range n).foldl f a) := by
  induction n with
  | zero => exact hzero
  | succ n ih =>
    have hn : P n ((List.range n).foldl f a) := ih fun i hi => hstep i (by omega)
    rw [List.range_succ, List.foldl_append]
    exact hstep n (by omega) _ hn

/-- A text, and how it is read. -/
structure Reading (β : Type*) where
  width : ℕ
  stride : ℕ
  text : ℕ → β
  length : ℕ
  stops : β → Bool

namespace Reading

variable {β : Type*} (r : Reading β)

/-- The position of the text that byte `x` of the buffer is read from. -/
def source (x : ℕ) : ℕ := r.stride * (x / r.width) + x % r.width

/-- Window `i` lies inside the text. -/
def Fits (i : ℕ) : Prop := r.stride * i + r.width ≤ r.length

/-- Byte `x` of the buffer is kept: its window is read, and neither it nor a byte in front of it in
the buffer stops the reading. -/
def Kept (x : ℕ) : Prop :=
  r.Fits (x / r.width) ∧ ∀ y, y ≤ x → r.stops (r.text (r.source y)) = false

instance (i : ℕ) : Decidable (r.Fits i) := inferInstanceAs (Decidable (_ ≤ _))

instance (x : ℕ) : Decidable (r.Kept x) := inferInstanceAs (Decidable (_ ∧ _))

/-- The first `n` bytes of the buffer are kept. -/
def AllKept (n : ℕ) : Prop := ∀ y, y < n → r.Kept y

instance (n : ℕ) : Decidable (r.AllKept n) := inferInstanceAs (Decidable (∀ y, y < n → r.Kept y))

/-- The buffer after `n` bytes. -/
def copied (zero : β) (n x : ℕ) : β := if x < n ∧ r.Kept x then r.text (r.source x) else zero

variable {r}

theorem Fits.of_le {i j : ℕ} (h : r.Fits j) (hij : i ≤ j) : r.Fits i := by
  have hmul : r.stride * i ≤ r.stride * j := Nat.mul_le_mul_left _ hij
  unfold Fits at *
  omega

theorem Kept.of_le {x y : ℕ} (h : r.Kept x) (hyx : y ≤ x) : r.Kept y :=
  ⟨h.1.of_le (Nat.div_le_div_right hyx), fun z hz => h.2 z (hz.trans hyx)⟩

theorem source_of_lt {x : ℕ} (h : x < r.width) : r.source x = x := by
  rw [source, Nat.div_eq_of_lt h, Nat.mod_eq_of_lt h]
  omega

/-- Byte `j` of window `i`. -/
theorem source_add {i j : ℕ} (hj : j < r.width) :
    r.source (i * r.width + j) = r.stride * i + j := by
  have hpos : 0 < r.width := by omega
  have hdiv : (i * r.width + j) / r.width = i := by
    rw [Nat.add_comm, Nat.add_mul_div_right _ _ hpos, Nat.div_eq_of_lt hj]
    omega
  have hmod : (i * r.width + j) % r.width = j := by
    rw [Nat.add_comm, Nat.add_mul_mod_self_right, Nat.mod_eq_of_lt hj]
  rw [source, hdiv, hmod]

/-- Windows that leave no gap have read every byte in front of one they have read. -/
theorem exists_source_eq (hpos : 0 < r.width) (hgap : r.stride ≤ r.width) {s x : ℕ}
    (h : s ≤ r.source x) : ∃ y, y ≤ x ∧ r.source y = s := by
  have hx : r.width * (x / r.width) + x % r.width = x := Nat.div_add_mod x r.width
  have hcomm : x / r.width * r.width = r.width * (x / r.width) := Nat.mul_comm _ _
  have hmod : x % r.width < r.width := Nat.mod_lt _ hpos
  rcases Nat.lt_or_ge s (r.stride * (x / r.width)) with hlt | hge
  · -- an earlier window reads it
    have hstride : 0 < r.stride := by
      rcases Nat.eq_zero_or_pos r.stride with hzero | hpos
      · rw [hzero, Nat.zero_mul] at hlt
        omega
      · exact hpos
    have hs : r.stride * (s / r.stride) + s % r.stride = s := Nat.div_add_mod s r.stride
    have hj : s % r.stride < r.width := lt_of_lt_of_le (Nat.mod_lt _ hstride) hgap
    have hi : s / r.stride < x / r.width := Nat.div_lt_of_lt_mul hlt
    have hmul : r.width * (s / r.stride + 1) ≤ r.width * (x / r.width) :=
      Nat.mul_le_mul_left _ hi
    have hcomm' : s / r.stride * r.width = r.width * (s / r.stride) := Nat.mul_comm _ _
    refine ⟨s / r.stride * r.width + s % r.stride, ?_, ?_⟩
    · rw [Nat.mul_add, Nat.mul_one] at hmul
      omega
    · rw [source_add hj]
      omega
  · -- the window of `x` reads it
    unfold source at h
    refine ⟨x / r.width * r.width + (s - r.stride * (x / r.width)), ?_, ?_⟩
    · omega
    · rw [source_add (by omega)]
      omega

/-! ### What is kept, by the first byte that stops -/

/-- The text goes on in front of `d`. -/
def GoesOn (r : Reading β) (d : ℕ) : Prop := ∀ s, s < d → r.stops (r.text s) = false

/-- Nothing stops the reading before position `d` is read. -/
theorem kept_of_lt {d x : ℕ} (hd : r.GoesOn d) (hfits : r.Fits (x / r.width))
    (h : ∀ y, y ≤ x → r.source y < d) : r.Kept x :=
  ⟨hfits, fun y hy => hd _ (h y hy)⟩

/-- No byte stays that was read at or behind a byte that stops. -/
theorem Kept.source_lt (hpos : 0 < r.width) (hgap : r.stride ≤ r.width) {d x : ℕ} (h : r.Kept x)
    (hd : r.stops (r.text d) = true) : r.source x < d := by
  by_contra hge
  obtain ⟨y, hy, hsource⟩ := exists_source_eq hpos hgap (Nat.not_lt.mp hge)
  have hgo : r.stops (r.text (r.source y)) = false := h.2 y hy
  rw [hsource, hd] at hgo
  cases hgo

/-- From a byte that stops on, nothing stays. -/
theorem not_kept_of_stops {x y : ℕ} (hstop : r.stops (r.text (r.source x)) = true) (hxy : x ≤ y) :
    ¬ r.Kept y := by
  intro h
  have hgo : r.stops (r.text (r.source x)) = false := h.2 x hxy
  rw [hstop] at hgo
  cases hgo

/-- A kept byte, in terms of the first byte that stops. -/
theorem kept_iff (hpos : 0 < r.width) (hgap : r.stride ≤ r.width) {d x : ℕ} (hd : r.GoesOn d)
    (hstop : r.stops (r.text d) = true) :
    r.Kept x ↔ r.Fits (x / r.width) ∧ ∀ y, y ≤ x → r.source y < d := by
  constructor
  · intro h
    exact ⟨h.1, fun y hy => (h.of_le hy).source_lt hpos hgap hstop⟩
  · rintro ⟨hfits, hlt⟩
    exact kept_of_lt hd hfits hlt

theorem allKept_succ {n : ℕ} : r.AllKept (n + 1) ↔ r.Kept n := by
  constructor
  · intro h
    exact h n (by omega)
  · intro h y hy
    exact h.of_le (by omega)

/-- The bytes that are kept are the first ones of the buffer. -/
theorem exists_kept_iff (r : Reading β) (m : ℕ) :
    ∃ n, n ≤ m ∧ ∀ x, x < m → (r.Kept x ↔ x < n) := by
  induction m with
  | zero => exact ⟨0, le_rfl, fun x hx => by omega⟩
  | succ m ih =>
    by_cases hm : r.Kept m
    · exact ⟨m + 1, le_rfl, fun x hx => iff_of_true (hm.of_le (by omega)) hx⟩
    · obtain ⟨n, hn, hkept⟩ := ih
      refine ⟨n, by omega, fun x hx => ?_⟩
      rcases Nat.eq_or_lt_of_le (Nat.le_of_lt_succ hx) with rfl | hlt
      · exact iff_of_false hm (by omega)
      · exact hkept x hlt

/-- One byte more, in a window that is read. -/
theorem kept_iff_allKept {n : ℕ} (hfits : r.Fits (n / r.width)) :
    r.Kept n ↔ r.AllKept n ∧ r.stops (r.text (r.source n)) = false := by
  constructor
  · intro h
    exact ⟨fun y hy => h.of_le hy.le, h.2 n le_rfl⟩
  · rintro ⟨hbefore, hgo⟩
    refine ⟨hfits, fun y hy => ?_⟩
    rcases Nat.eq_or_lt_of_le hy with rfl | hlt
    · exact hgo
    · exact (hbefore y hlt).2 y le_rfl

/-! ### Growing the buffer -/

variable {zero : β} {n x : ℕ}

theorem copied_of_kept (hx : x < n) (h : r.Kept x) : r.copied zero n x = r.text (r.source x) :=
  if_pos ⟨hx, h⟩

theorem copied_of_not_kept (h : ¬ r.Kept x) : r.copied zero n x = zero := if_neg fun hx => h hx.2

/-- Nothing is kept from a window on that is not read. -/
theorem Kept.lt_of_not_fits (h : r.Kept x) (hpos : 0 < r.width) {i : ℕ} (hfits : ¬ r.Fits i) :
    x < i * r.width := by
  by_contra hge
  have hi : i ≤ x / r.width := (Nat.le_div_iff_mul_le hpos).mpr (Nat.not_lt.mp hge)
  exact hfits (h.1.of_le hi)

/-- When nothing is kept from byte `m` on, the buffer stays as it is. -/
theorem copied_eq_of_forall_lt {m : ℕ} (hm : m ≤ n) (h : ∀ x, r.Kept x → x < m) :
    r.copied zero n = r.copied zero m := by
  funext x
  by_cases hk : r.Kept x
  · have hx : x < m := h x hk
    rw [copied_of_kept (by omega) hk, copied_of_kept hx hk]
  · rw [copied_of_not_kept hk, copied_of_not_kept hk]

theorem Kept.lt_of_not_allKept (h : r.Kept x) {m : ℕ} (hm : ¬ r.AllKept m) : x < m := by
  by_contra hge
  exact hm fun y hy => h.of_le (by omega)

end Reading

end Windows
