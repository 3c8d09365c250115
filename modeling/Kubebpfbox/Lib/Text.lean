import Kubebpfbox.Lib.GoString
import Kubebpfbox.Lib.Regexp

/-!
# Runes and lines of a Go string

A regular expression reads a string rune by rune.  `runes` cuts a string into the encodings of its
runes as `utf8.DecodeRuneInString` does, so that a byte that begins no valid encoding is a rune by
itself, and `findStringSubmatch` is the method of `regexp.Regexp` on it.

`scanLines` are the lines a `bufio.Scanner` delivers.  It stops for good at a line that does not fit
into its buffer.
-/

namespace Golang

/-! ### Runes -/

/-- The string as a list of one-byte strings: its runes, when it is ASCII. -/
def chars (s : GoString) : List GoString := s.map fun b => [b]

@[simp] theorem length_chars (s : GoString) : (chars s).length = s.length := List.length_map _

@[simp] theorem chars_append (s t : GoString) : chars (s ++ t) = chars s ++ chars t :=
  List.map_append

@[simp] theorem flatten_chars (s : GoString) : (chars s).flatten = s := by
  induction s with
  | nil => rfl
  | cons b s ih => exact congrArg (b :: ·) ih

@[simp] theorem singleton_mem_chars {s : GoString} {b : UInt8} : [b] ∈ chars s ↔ b ∈ s := by
  simp [chars]

/-- The number of bytes of an encoding that begins with `b`. -/
def runeSize (b : UInt8) : ℕ :=
  if 0xC2 ≤ b ∧ b ≤ 0xDF then 2
  else if 0xE0 ≤ b ∧ b ≤ 0xEF then 3
  else if 0xF0 ≤ b ∧ b ≤ 0xF4 then 4
  else 1

/-- The second byte of an encoding that begins with `b`. -/
def acceptSecond (b c : UInt8) : Bool :=
  if b = 0xE0 then 0xA0 ≤ c && c ≤ 0xBF
  else if b = 0xED then 0x80 ≤ c && c ≤ 0x9F
  else if b = 0xF0 then 0x90 ≤ c && c ≤ 0xBF
  else if b = 0xF4 then 0x80 ≤ c && c ≤ 0x8F
  else 0x80 ≤ c && c ≤ 0xBF

/-- A further byte of an encoding. -/
def isContinuation (c : UInt8) : Bool := 0x80 ≤ c && c ≤ 0xBF

/-- The bytes of `s` that belong to the rune that begins with `b`. -/
def runeTail (b : UInt8) (s : GoString) : ℕ :=
  let n := runeSize b - 1
  let tail := s.take n
  if tail.length = n ∧ tail.head?.all (acceptSecond b) ∧ tail.tail.all isContinuation then n else 0

/-- The encodings of the runes. -/
def runes : GoString → List GoString
  | [] => []
  | b :: s => (b :: s.take (runeTail b s)) :: runes (s.drop (runeTail b s))
termination_by s => s.length
decreasing_by
  rw [List.length_drop, List.length_cons]
  omega

@[simp] theorem runes_nil : runes [] = [] := by rw [runes]

theorem runes_cons (b : UInt8) (s : GoString) :
    runes (b :: s) = (b :: s.take (runeTail b s)) :: runes (s.drop (runeTail b s)) := by
  rw [runes]

/-- Nothing is lost. -/
theorem flatten_runes (s : GoString) : (runes s).flatten = s := by
  induction s using runes.induct with
  | case1 => rw [runes_nil, List.flatten_nil]
  | case2 b s ih => rw [runes_cons, List.flatten_cons, ih, List.cons_append, List.take_append_drop]

theorem singleton_mem_of_mem_runes {s : GoString} {b : UInt8} (h : [b] ∈ runes s) : b ∈ s := by
  rw [← flatten_runes s]
  exact List.mem_flatten.mpr ⟨[b], h, List.mem_singleton.mpr rfl⟩

theorem runeTail_of_ascii {b : UInt8} (hb : b < 0x80) (s : GoString) : runeTail b s = 0 := by
  have hsize : runeSize b = 1 := by
    unfold runeSize
    simp only [UInt8.lt_iff_toNat_lt, UInt8.le_iff_toNat_le] at *
    have h : b.toNat < 128 := hb
    rw [if_neg, if_neg, if_neg] <;> (intro h'; simp at h'; omega)
  simp [runeTail, hsize]

theorem runes_ascii_cons {b : UInt8} (hb : b < 0x80) (s : GoString) :
    runes (b :: s) = [b] :: runes s := by
  rw [runes_cons, runeTail_of_ascii hb, List.take_zero, List.drop_zero]

/-- A text of ASCII characters is read byte by byte. -/
theorem runes_ascii_append {x : GoString} (hx : ∀ b ∈ x, b < 0x80) (s : GoString) :
    runes (x ++ s) = chars x ++ runes s := by
  induction x with
  | nil => rfl
  | cons b x ih =>
    obtain ⟨hb, hx⟩ := List.forall_mem_cons.mp hx
    rw [List.cons_append, runes_ascii_cons hb, ih hx]
    rfl

theorem runes_ascii {x : GoString} (hx : ∀ b ∈ x, b < 0x80) : runes x = chars x := by
  have h := runes_ascii_append hx []
  rwa [List.append_nil, runes_nil, List.append_nil] at h

/-- An ASCII character is no part of a longer encoding. -/
theorem not_continuation_of_ascii {a c : UInt8} (hc : c < 0x80) :
    acceptSecond a c = false ∧ isContinuation c = false := by
  have h : c.toNat < 128 := hc
  have hlow : ∀ k : UInt8, 128 ≤ k.toNat → decide (k ≤ c) = false := by
    intro k hk
    rw [decide_eq_false_iff_not, UInt8.le_iff_toNat_le]
    omega
  unfold acceptSecond isContinuation
  rw [hlow 0x80 (by decide), hlow 0xA0 (by decide), hlow 0x90 (by decide)]
  simp

theorem runeTail_le (b : UInt8) (s : GoString) : runeTail b s ≤ s.length := by
  simp only [runeTail]
  split_ifs with h
  · have hlen := h.1
    rw [List.length_take] at hlen
    omega
  · omega

/-- What follows an ASCII character does not change how the string before it is read. -/
theorem runeTail_append {c : UInt8} (hc : c < 0x80) (b : UInt8) (s t : GoString) :
    runeTail b (s ++ c :: t) = runeTail b s := by
  by_cases hn : runeSize b - 1 ≤ s.length
  · have htake : (s ++ c :: t).take (runeSize b - 1) = s.take (runeSize b - 1) :=
      List.take_append_of_le_length hn
    simp only [runeTail, htake]
  · -- the encoding would have to go on with the character
    have hs : runeTail b s = 0 := by
      simp only [runeTail]
      rw [if_neg]
      rintro ⟨hlen, -⟩
      rw [List.length_take] at hlen
      omega
    rw [hs]
    simp only [runeTail]
    rw [if_neg]
    rintro ⟨-, hhead, htail⟩
    obtain ⟨k, hk⟩ : ∃ k, runeSize b - 1 = s.length + (k + 1) :=
      ⟨runeSize b - 1 - s.length - 1, by omega⟩
    rw [hk, List.take_length_add_append, List.take_succ_cons] at hhead htail
    obtain ⟨hsecond, hcont⟩ := not_continuation_of_ascii (a := b) hc
    cases s with
    | nil =>
      rw [List.nil_append, List.head?_cons, Option.all_some, hsecond] at hhead
      cases hhead
    | cons d s =>
      rw [List.cons_append, List.tail_cons, List.all_append, List.all_cons, hcont] at htail
      simp at htail

/-- A string is read up to an ASCII character as if it ended there. -/
theorem runes_append {c : UInt8} (hc : c < 0x80) (s t : GoString) :
    runes (s ++ c :: t) = runes s ++ runes (c :: t) := by
  induction s using runes.induct with
  | case1 => rw [runes_nil, List.nil_append, List.nil_append]
  | case2 b s ih =>
    have hle := runeTail_le b s
    rw [List.cons_append, runes_cons, runes_cons b s, runeTail_append hc,
      List.take_append_of_le_length hle, List.drop_append_of_le_length hle, ih, List.cons_append]

/-- `FindStringSubmatch`: what the expression and its groups match at the leftmost position. -/
def findStringSubmatch (r : Regexp GoString) (s : GoString) : Option (List GoString) :=
  (r.findSubmatch (runes s)).map fun l => l.map List.flatten

/-! ### Lines -/

/-- `bufio.MaxScanTokenSize`. -/
def maxScanTokenSize : ℕ := 64 * 1024

/-- A line without the carriage return at its end. -/
def dropCR (s : GoString) : GoString := if s.getLast? = some 13 then s.dropLast else s

/-- The lines of a text; there is none after a final newline. -/
def rawLines (s : GoString) : List GoString :=
  let ls := s.splitOn 10
  if ls.getLast? = some [] then ls.dropLast else ls

/-- The lines a `bufio.Scanner` delivers. -/
def scanLines (s : GoString) : List GoString :=
  ((rawLines s).takeWhile fun l => l.length < maxScanTokenSize).map dropCR

theorem rawLines_append {l : GoString} (hl : 10 ∉ l) (s : GoString) :
    rawLines (l ++ 10 :: s) = l :: rawLines s := by
  have hne : s.splitOn 10 ≠ [] := List.splitOn_ne_nil 10 s
  simp only [rawLines]
  rw [List.splitOn_append_cons_self_of_not_mem hl, List.getLast?_cons_of_ne_nil hne,
    List.dropLast_cons_of_ne_nil hne]
  split_ifs <;> rfl

/-- A line that fits is delivered, and the scanner goes on behind it. -/
theorem scanLines_append {l : GoString} (hl : 10 ∉ l) (hlen : l.length < maxScanTokenSize)
    (s : GoString) : scanLines (l ++ 10 :: s) = dropCR l :: scanLines s := by
  rw [scanLines, rawLines_append hl, List.takeWhile_cons, if_pos (decide_eq_true hlen)]
  rfl

/-- At a line that does not fit the scanner stops for good. -/
theorem scanLines_append_of_le {l : GoString} (hl : 10 ∉ l) (hlen : maxScanTokenSize ≤ l.length)
    (s : GoString) : scanLines (l ++ 10 :: s) = [] := by
  rw [scanLines, rawLines_append hl, List.takeWhile_cons, if_neg]
  · rfl
  · rw [decide_eq_true_eq]
    exact Nat.not_lt.mpr hlen

theorem isPrefix_dropCR (s : GoString) : dropCR s <+: s := by
  unfold dropCR
  split_ifs
  · exact List.dropLast_prefix s
  · exact List.prefix_rfl

end Golang
