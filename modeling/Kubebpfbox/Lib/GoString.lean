import Mathlib.Data.List.DropRight
import Mathlib.Tactic.NormNum
import Mathlib.Tactic.Positivity
import Mathlib.Tactic.Ring

/-!
# Go strings and `strconv`

A Go string is a sequence of bytes, not of characters.  `ascii` writes a literal, `itoa` is
`strconv.Itoa` on a natural number and `itoaInt` on any, and `trimRight` is `strings.TrimRight` with
a cutset of one byte.  Different numbers have different texts (`itoa_injective`,
`itoaInt_injective`).

`atoi` is `strconv.Atoi` on a 64-bit platform: it returns the number and an error, and a caller
that drops the error still sees the number, which is `0` when the text is no decimal number and
the nearest bound when the digits read so far do not fit.  `decimal?` is the number a text denotes,
and `atoi_eq_of_length_lt` says that the two agree on every text short enough not to overflow.
-/

namespace Golang

/-- A Go string: its bytes. -/
abbrev GoString := List UInt8

/-- The bytes of an ASCII literal. -/
def ascii (s : String) : GoString := s.toList.map fun c => UInt8.ofNat c.toNat

/-- `strconv.Itoa`, for a number that is not negative. -/
def itoa (n : ℕ) : GoString := (Nat.toDigits 10 n).map fun c => UInt8.ofNat c.toNat

/-- `strconv.Itoa`. -/
def itoaInt (i : ℤ) : GoString := if i < 0 then 45 :: itoa i.natAbs else itoa i.toNat

/-- `strings.TrimRight(s, string(b))`. -/
def trimRight (b : UInt8) (s : GoString) : GoString := s.rdropWhile (· == b)

/-- Only the bytes behind the last other one are trimmed. -/
theorem trimRight_append_replicate {b : UInt8} {s : GoString} (h : ∀ c ∈ s, c ≠ b) (k : ℕ) :
    trimRight b (s ++ List.replicate k b) = s := by
  induction k with
  | zero =>
    rw [List.replicate_zero, List.append_nil, trimRight, List.rdropWhile_eq_self_iff]
    intro hs hlast
    exact h _ (List.getLast_mem hs) (eq_of_beq hlast)
  | succ k ih =>
    rw [List.replicate_succ', ← List.append_assoc, trimRight, List.rdropWhile_concat,
      if_pos (beq_self_eq_true b)]
    exact ih

/-! ### `bytes.IndexByte` -/

/-- `bytes.IndexByte`; `-1` if the byte is not there. -/
def indexByte (s : GoString) (c : UInt8) : ℤ := if c ∈ s then s.idxOf c else -1

/-- The bytes in front of the first one that is `c`. -/
theorem take_idxOf (s : GoString) (c : UInt8) : s.take (s.idxOf c) = s.takeWhile (· ≠ c) := by
  induction s with
  | nil => rfl
  | cons b s ih =>
    by_cases hb : b = c
    · subst hb
      rw [List.idxOf_cons_self, List.take_zero, List.takeWhile_cons_of_neg (by simp)]
    · rw [List.idxOf_cons_ne _ hb, List.take_succ_cons, ih,
        List.takeWhile_cons_of_pos (by simpa using hb)]

/-! ### `strconv.Itoa` -/

/-- The digits of a number are bytes. -/
theorem toNat_lt_of_mem_toDigits {n : ℕ} {c : Char} (h : c ∈ Nat.toDigits 10 n) :
    48 ≤ c.toNat ∧ c.toNat ≤ 57 := by
  have hdigit : c.isDigit = true := Nat.isDigit_of_mem_toDigits (by omega) (by omega) h
  rw [Char.isDigit, Bool.and_eq_true, decide_eq_true_eq, decide_eq_true_eq] at hdigit
  exact ⟨UInt32.le_iff_toNat_le.mp hdigit.1, UInt32.le_iff_toNat_le.mp hdigit.2⟩

/-- The text gives the digits back. -/
theorem map_ofNat_itoa (n : ℕ) :
    (itoa n).map (fun b => Char.ofNat b.toNat) = Nat.toDigits 10 n := by
  have hchar : ∀ c ∈ Nat.toDigits 10 n,
      ((fun b : UInt8 => Char.ofNat b.toNat) ∘ fun c : Char => UInt8.ofNat c.toNat) c = id c := by
    intro c hc
    obtain ⟨-, hle⟩ := toNat_lt_of_mem_toDigits hc
    show Char.ofNat (UInt8.ofNat c.toNat).toNat = c
    rw [UInt8.toNat_ofNat', Nat.mod_eq_of_lt (by omega), Char.ofNat_toNat]
  rw [itoa, List.map_map, List.map_congr_left hchar, List.map_id]

theorem itoa_injective : Function.Injective itoa := by
  intro m n h
  have hdigits : Nat.toDigits 10 m = Nat.toDigits 10 n := by
    rw [← map_ofNat_itoa, ← map_ofNat_itoa, h]
  calc m = Nat.ofDigitChars 10 (Nat.toDigits 10 m) 0 := Nat.ofDigitChars_ten_toDigits.symm
    _ = Nat.ofDigitChars 10 (Nat.toDigits 10 n) 0 := by rw [hdigits]
    _ = n := Nat.ofDigitChars_ten_toDigits

/-- A natural number is written without a sign. -/
theorem minus_notMem_itoa (n : ℕ) : 45 ∉ itoa n := by
  intro h
  obtain ⟨c, hc, heq⟩ := List.mem_map.mp h
  obtain ⟨hge, hle⟩ := toNat_lt_of_mem_toDigits hc
  have hnat := congrArg UInt8.toNat heq
  rw [UInt8.toNat_ofNat', show (45 : UInt8).toNat = 45 from rfl] at hnat
  omega

theorem itoaInt_injective : Function.Injective itoaInt := by
  intro i j h
  unfold itoaInt at h
  split_ifs at h with hi hj hj
  · have habs : i.natAbs = j.natAbs := itoa_injective (List.cons.inj h).2
    omega
  · exact absurd (h ▸ List.mem_cons_self ..) (minus_notMem_itoa _)
  · exact absurd (h ▸ List.mem_cons_self ..) (minus_notMem_itoa _)
  · have hnat : i.toNat = j.toNat := itoa_injective h
    omega

/-! ### `strconv.Atoi` -/

/-- The two errors of `strconv`, `ErrSyntax` and `ErrRange`. -/
inductive NumError where
  | errSyntax
  | errRange
  deriving DecidableEq, Repr

/-- A decimal digit. -/
def isDigit (d : UInt8) : Bool := 48 ≤ d.toNat && d.toNat ≤ 57

/-- The greatest `uint64`. -/
def maxUint64 : ℕ := 2 ^ 64 - 1

/-- The greatest `int`. -/
def maxInt : ℤ := 2 ^ 63 - 1

/-- The least `int`. -/
def minInt : ℤ := -2 ^ 63

/-- The loop of `strconv.ParseUint` with `n` read so far.  It stops at the first byte that is no
digit or makes the number overflow, whichever comes first. -/
def parseUintFrom (n : ℕ) : GoString → ℕ × Option NumError
  | [] => (n, none)
  | d :: ds =>
    if isDigit d then
      if maxUint64 < n * 10 + (d.toNat - 48) then (maxUint64, some .errRange)
      else parseUintFrom (n * 10 + (d.toNat - 48)) ds
    else (0, some .errSyntax)

/-- `strconv.ParseUint` in base ten. -/
def parseUint (s : GoString) : ℕ × Option NumError :=
  if s = [] then (0, some .errSyntax) else parseUintFrom 0 s

/-- A number read with its sign, brought into the range of `int`. -/
def clampInt (neg : Bool) : ℕ × Option NumError → ℤ × Option NumError
  | (_, some .errSyntax) => (0, some .errSyntax)
  | (un, _) =>
    if neg then if (un : ℤ) ≤ -minInt then (-un, none) else (minInt, some .errRange)
    else if (un : ℤ) ≤ maxInt then (un, none) else (maxInt, some .errRange)

/-- `strconv.Atoi`. -/
def atoi (s : GoString) : ℤ × Option NumError :=
  if s.head? = some 45 then clampInt true (parseUint s.tail)
  else if s.head? = some 43 then clampInt false (parseUint s.tail)
  else clampInt false (parseUint s)

/-- The digits `ds` appended to the decimal number `n`; `none` at a byte that is no digit. -/
def digitsFrom (n : ℕ) : GoString → Option ℕ
  | [] => some n
  | d :: ds => if isDigit d then digitsFrom (n * 10 + (d.toNat - 48)) ds else none

/-- The number an unsigned decimal text denotes. -/
def natural? (s : GoString) : Option ℕ := if s = [] then none else digitsFrom 0 s

/-- The number a decimal text with an optional sign denotes. -/
def decimal? (s : GoString) : Option ℤ :=
  if s.head? = some 45 then (natural? s.tail).map fun n => -(n : ℤ)
  else if s.head? = some 43 then (natural? s.tail).map fun n => (n : ℤ)
  else (natural? s).map fun n => (n : ℤ)

/-- A reading of a text that denotes the number `n?`, with no overflow on the way. -/
def exactly (n? : Option ℕ) : ℕ × Option NumError :=
  match n? with
  | none => (0, some .errSyntax)
  | some n => (n, none)

/-- A number below `m` with `k` more digits stays below `m 10 ^ k`. -/
theorem parseUintFrom_eq (ds : GoString) :
    ∀ n m : ℕ, n < m → m * 10 ^ ds.length ≤ maxUint64 →
      parseUintFrom n ds = exactly (digitsFrom n ds) ∧
        ∀ v ∈ digitsFrom n ds, v < m * 10 ^ ds.length := by
  induction ds with
  | nil =>
    intro n m hn _
    refine ⟨rfl, ?_⟩
    intro v hv
    rw [digitsFrom, Option.mem_some_iff] at hv
    simpa [← hv] using hn
  | cons d ds ih =>
    intro n m hn hm
    have hpow : m * 10 ^ (d :: ds).length = m * 10 * 10 ^ ds.length := by
      rw [List.length_cons, pow_succ]
      ring
    rw [hpow] at hm ⊢
    rw [parseUintFrom, digitsFrom]
    by_cases hd : isDigit d = true
    · have hdig : d.toNat - 48 ≤ 9 := by
        simp only [isDigit, Bool.and_eq_true, decide_eq_true_eq] at hd
        omega
      -- `m` bounds what is read so far and grows by one digit with it
      have hstep : n * 10 + (d.toNat - 48) < m * 10 := by omega
      have hfit : ¬ maxUint64 < n * 10 + (d.toNat - 48) := by
        have hle : m * 10 ≤ m * 10 * 10 ^ ds.length := Nat.le_mul_of_pos_right _ (by positivity)
        omega
      rw [if_pos hd, if_neg hfit, if_pos hd]
      exact ih _ (m * 10) hstep hm
    · rw [if_neg hd, if_neg hd]
      exact ⟨rfl, fun v hv => by cases hv⟩

/-- At most eighteen digits are read exactly, and the number fits in an `int`. -/
theorem parseUint_eq_of_length_le {s : GoString} (h : s.length ≤ 18) :
    parseUint s = exactly (natural? s) ∧ ∀ v ∈ natural? s, (v : ℤ) ≤ maxInt := by
  have hpow : 10 ^ s.length ≤ 10 ^ 18 := Nat.pow_le_pow_right (by norm_num) h
  have hmax : (10 : ℕ) ^ 18 ≤ maxUint64 := by norm_num [maxUint64]
  obtain ⟨hread, hlt⟩ := parseUintFrom_eq s 0 1 (by norm_num) (by omega)
  unfold parseUint natural?
  split_ifs with hs
  · exact ⟨rfl, fun v hv => by cases hv⟩
  · refine ⟨hread, ?_⟩
    intro v hv
    have hv18 : v < 10 ^ 18 := by
      have := hlt v hv
      omega
    have hint : (10 : ℤ) ^ 18 ≤ maxInt := by norm_num [maxInt]
    have hvint : (v : ℤ) < 10 ^ 18 := by exact_mod_cast hv18
    omega

/-- **`atoi` on a short text**: below nineteen bytes nothing overflows, so the number is the one
the text denotes, and `0` when it denotes none. -/
theorem atoi_eq_of_length_lt {s : GoString} (h : s.length < 19) :
    (atoi s).1 = (decimal? s).getD 0 := by
  have htail : s.tail.length ≤ 18 := by
    rw [List.length_tail]
    omega
  obtain ⟨hall, hallMax⟩ := parseUint_eq_of_length_le (show s.length ≤ 18 by omega)
  obtain ⟨hrest, hrestMax⟩ := parseUint_eq_of_length_le htail
  have hmin : maxInt ≤ -minInt := by norm_num [maxInt, minInt]
  unfold atoi decimal?
  split_ifs
  · rw [hrest]
    cases hn : natural? s.tail with
    | none => rfl
    | some n =>
      have hle := hrestMax n hn
      simp [exactly, clampInt, show (n : ℤ) ≤ -minInt by omega]
  · rw [hrest]
    cases hn : natural? s.tail with
    | none => rfl
    | some n => simp [exactly, clampInt, hrestMax n hn]
  · rw [hall]
    cases hn : natural? s with
    | none => rfl
    | some n => simp [exactly, clampInt, hallMax n hn]

example : atoi (ascii "503") = (503, none) := by decide
example : atoi (ascii "5x3") = (0, some .errSyntax) := by decide

end Golang
