import Kubebpfbox.Http.SocketFilter
import Kubebpfbox.Lib.Windows

/-!
# Correctness of `__load_url_to_map`

`__load_url_to_map` reads the URL in windows of 16 bytes, moves 12 bytes on from one to the next,
and lays the windows side by side into the buffer.  `urlReading` is that reading in the words of
`Windows.Reading`, and `loadUrlToMap_eq` says that the two loops leave in a cleared buffer what is
kept of it.

* `scanUrlByte_scanState`, `foldl_scanUrlByte`: one round of the inner loop, and all of them.
* `loadUrlChunk_of_fits`, `loadUrlChunk_of_not_fits`, `afterWindows_step`: one round of the outer
  loop, whether it loads a window, fails to, or has finished before.
-/

namespace Kubebpfbox.Http

open Windows

/-- The URL ends at a blank or a question mark. -/
def isUrlEnd (b : UInt8) : Bool := b == ' '.toUInt8 || b == '?'.toUInt8

/-- The bytes from `start` on, as `__load_url_to_map` reads them. -/
def urlReading (skb : SkBuff) (start : ℕ) : Reading UInt8 where
  width := 16
  stride := 12
  text s := skb.data.getD (start + s) 0
  length := skb.data.length - start
  stops := isUrlEnd

/-! ### Buffers as functions -/

/-- The buffer with the bytes `f 0, f 1, …`. -/
def bufferOf (f : ℕ → UInt8) : Vector UInt8 maxUrlLen := Vector.ofFn fun x => f x

theorem getElem_bufferOf (f : ℕ → UInt8) {x : ℕ} (hx : x < maxUrlLen) : (bufferOf f)[x] = f x :=
  Vector.getElem_ofFn hx

theorem bufferOf_congr {f g : ℕ → UInt8} (h : ∀ x, x < maxUrlLen → f x = g x) :
    bufferOf f = bufferOf g := by
  ext x hx : 1
  rw [getElem_bufferOf f hx, getElem_bufferOf g hx, h x hx]

theorem url_zero : Packet.zero.url = bufferOf fun _ => 0 := by
  ext x hx : 1
  rw [getElem_bufferOf _ hx]
  exact Vector.getElem_replicate hx

/-- A byte of the buffer is cleared. -/
theorem setIfInBounds_bufferOf (f : ℕ → UInt8) (x : ℕ) :
    (bufferOf f).setIfInBounds x 0 = bufferOf fun y => if y = x then 0 else f y := by
  ext y hy : 1
  rw [getElem_bufferOf _ hy, Vector.getElem_setIfInBounds hy, getElem_bufferOf f hy]
  by_cases hxy : x = y
  · rw [if_pos hxy, if_pos hxy.symm]
  · rw [if_neg hxy, if_neg (Ne.symm hxy)]

/-- A window is stored in the buffer. -/
theorem overwrite_bufferOf (f : ℕ → UInt8) (off : ℕ) {k : ℕ} (buf : Vector UInt8 k) :
    overwrite (bufferOf f) off buf
      = bufferOf fun x => if off ≤ x then buf[x - off]?.getD (f x) else f x := by
  ext x hx : 1
  rw [getElem_bufferOf _ hx, overwrite, Vector.getElem_ofFn]
  simp only [getElem_bufferOf f hx]

/-! ### One byte -/

theorem scanUrlByte_bufferOf (finished : Bool) (f : ℕ → UInt8) {x : ℕ} (hx : x < maxUrlLen) :
    scanUrlByte (finished, bufferOf f) x =
      if finished || isUrlEnd (f x) then (true, bufferOf fun y => if y = x then 0 else f y)
      else (false, bufferOf f) := by
  have hget : (bufferOf f)[x]?.getD 0 = f x := by
    rw [Vector.getElem?_eq_getElem hx, Option.getD_some, getElem_bufferOf f hx]
  have hend : isUrlEnd (f x) = (f x == ' '.toUInt8 || f x == '?'.toUInt8) := rfl
  unfold scanUrlByte
  simp only [hget, setIfInBounds_bufferOf, ← hend]
  cases finished <;> cases isUrlEnd (f x) <;> rfl

/-! ### One window -/

section Window

variable {skb : SkBuff} {start : ℕ}

theorem source_urlReading {i j : ℕ} (hj : j < 16) :
    (urlReading skb start).source (i * 16 + j) = 12 * i + j :=
  Reading.source_add (r := urlReading skb start) hj

/-- A window that lies in the frame is read as a whole. -/
theorem bpfSkbLoadBytes_of_fits {i : ℕ} (hfits : (urlReading skb start).Fits i) {poffset : UInt32}
    (hoff : poffset.toNat = start + 12 * i) :
    bpfSkbLoadBytes skb poffset 16 =
      (0, Vector.ofFn fun j => (urlReading skb start).text
        ((urlReading skb start).source (i * 16 + j))) := by
  have hlen : 12 * i + 16 ≤ skb.data.length - start := hfits
  have hload : poffset.toNat + 16 ≤ skb.data.length := by omega
  rw [bpfSkbLoadBytes, if_pos hload]
  congr 2
  funext j
  have hsource : (urlReading skb start).source (i * 16 + j) = 12 * i + j :=
    source_urlReading j.isLt
  rw [hsource, hoff, Nat.add_assoc]
  rfl

theorem bpfSkbLoadBytes_of_not_fits {i : ℕ} (hfits : ¬ (urlReading skb start).Fits i)
    {poffset : UInt32} (hoff : poffset.toNat = start + 12 * i) :
    bpfSkbLoadBytes skb poffset 16 = (efault, Vector.replicate 16 0) := by
  have hlen : ¬ 12 * i + 16 ≤ skb.data.length - start := hfits
  exact bpfSkbLoadBytes_of_lt (by omega)

/-- The buffer when the bytes up to `n` are settled and those from there to `m` are as they were
read. -/
def scanned (skb : SkBuff) (start n m x : ℕ) : UInt8 :=
  if n ≤ x ∧ x < m then (urlReading skb start).text ((urlReading skb start).source x)
  else (urlReading skb start).copied 0 n x

theorem scanned_succ_of_ne {n m x : ℕ} (hx : x ≠ n) :
    scanned skb start n m x = scanned skb start (n + 1) m x := by
  have hlt : x < n + 1 ↔ x < n := by omega
  have hge : n + 1 ≤ x ↔ n ≤ x := by omega
  simp only [scanned, Reading.copied, hlt, hge]

theorem scanned_succ_self (n m : ℕ) : scanned skb start (n + 1) m n =
    if (urlReading skb start).Kept n then (urlReading skb start).text
      ((urlReading skb start).source n) else 0 := by
  have hlt : n < n + 1 := by omega
  rw [scanned, if_neg (by omega), Reading.copied]
  simp only [hlt, true_and]

/-- The two variables of the inner loop when the bytes up to `n` are settled. -/
def scanState (skb : SkBuff) (start n m : ℕ) : Bool × Vector UInt8 maxUrlLen :=
  (!decide ((urlReading skb start).AllKept n), bufferOf (scanned skb start n m))

/-- One byte of a window that was read. -/
theorem scanUrlByte_scanState {i j : ℕ} (hi : i < 16) (hj : j < 16)
    (hfits : (urlReading skb start).Fits i) :
    scanUrlByte (scanState skb start (i * 16 + j) (i * 16 + 16)) (i * 16 + j)
      = scanState skb start (i * 16 + (j + 1)) (i * 16 + 16) := by
  have hx : i * 16 + j < maxUrlLen := by
    rw [maxUrlLen]
    omega
  have hdiv : (i * 16 + j) / (urlReading skb start).width = i := by
    show (i * 16 + j) / 16 = i
    omega
  have hkept := Reading.kept_iff_allKept (r := urlReading skb start) (n := i * 16 + j)
    (by rwa [hdiv])
  -- the byte under the cursor is still as it was read
  have hbyte : scanned skb start (i * 16 + j) (i * 16 + 16) (i * 16 + j)
      = (urlReading skb start).text ((urlReading skb start).source (i * 16 + j)) := by
    rw [scanned, if_pos (by omega)]
  have hend : (urlReading skb start).stops
      ((urlReading skb start).text ((urlReading skb start).source (i * 16 + j)))
        = isUrlEnd (scanned skb start (i * 16 + j) (i * 16 + 16) (i * 16 + j)) := by
    rw [hbyte]
    rfl
  have hall : (urlReading skb start).AllKept (i * 16 + (j + 1)) ↔
      (urlReading skb start).Kept (i * 16 + j) := Reading.allKept_succ
  rw [hend] at hkept
  rw [scanState, scanUrlByte_bufferOf _ _ hx, scanState]
  by_cases hk : (urlReading skb start).Kept (i * 16 + j)
  · -- the byte stays
    obtain ⟨hbefore, hgo⟩ := hkept.mp hk
    rw [decide_eq_true hbefore, decide_eq_true (hall.mpr hk), hgo, if_neg (by simp),
      Bool.not_true]
    refine congrArg (Prod.mk false) (bufferOf_congr fun x _ => ?_)
    rcases eq_or_ne x (i * 16 + j) with rfl | hne
    · rw [hbyte, ← Nat.add_assoc, scanned_succ_self, if_pos hk]
    · exact scanned_succ_of_ne hne
  · -- the byte is cleared
    have hcond : (!decide ((urlReading skb start).AllKept (i * 16 + j)) ||
        isUrlEnd (scanned skb start (i * 16 + j) (i * 16 + 16) (i * 16 + j))) = true := by
      rw [hkept, not_and, Bool.not_eq_false] at hk
      by_cases hbefore : (urlReading skb start).AllKept (i * 16 + j)
      · rw [hk hbefore, Bool.or_true]
      · rw [decide_eq_false hbefore, Bool.not_false, Bool.true_or]
    have hlost : ¬ (urlReading skb start).AllKept (i * 16 + (j + 1)) := fun h => hk (hall.mp h)
    rw [if_pos hcond, decide_eq_false hlost, Bool.not_false]
    refine congrArg (Prod.mk true) (bufferOf_congr fun x _ => ?_)
    rcases eq_or_ne x (i * 16 + j) with rfl | hne
    · rw [if_pos rfl, ← Nat.add_assoc, scanned_succ_self, if_neg hk]
    · rw [if_neg hne]
      exact scanned_succ_of_ne hne

/-- The inner loop over a window that was read. -/
theorem foldl_scanUrlByte {i : ℕ} (hi : i < 16) (hfits : (urlReading skb start).Fits i) :
    (List.range 16).foldl (fun st j => scanUrlByte st (i * 16 + j))
        (scanState skb start (i * 16) (i * 16 + 16))
      = scanState skb start (i * 16 + 16) (i * 16 + 16) :=
  foldl_range_invariant (P := fun j st => st = scanState skb start (i * 16 + j) (i * 16 + 16)) 16
    rfl fun _ hj _ hst => hst ▸ scanUrlByte_scanState hi hj hfits

/-! ### All windows -/

/-- The three variables of the outer loop after `i` windows; the cursor is of no account once the
loop has finished. -/
structure AfterWindows (skb : SkBuff) (start i : ℕ) (st : Bool × UInt32 × Vector UInt8 maxUrlLen) :
    Prop where
  finished : st.1 = !decide ((urlReading skb start).AllKept (i * 16))
  poffset : (urlReading skb start).AllKept (i * 16) → st.2.1.toNat = start + 12 * i
  buffer : st.2.2 = bufferOf ((urlReading skb start).copied 0 (i * 16))

/-- A window that was read and is not scanned yet. -/
theorem overwrite_copied {i : ℕ} (hfits : (urlReading skb start).Fits i) {poffset : UInt32}
    (hoff : poffset.toNat = start + 12 * i) :
    overwrite (bufferOf ((urlReading skb start).copied 0 (i * 16))) (i * 16)
        (bpfSkbLoadBytes skb poffset 16).2
      = bufferOf (scanned skb start (i * 16) (i * 16 + 16)) := by
  rw [bpfSkbLoadBytes_of_fits hfits hoff, overwrite_bufferOf]
  refine bufferOf_congr fun x _ => ?_
  by_cases hge : i * 16 ≤ x
  · rw [if_pos hge]
    by_cases hlt : x < i * 16 + 16
    · have hj : x - i * 16 < 16 := by omega
      have hx : i * 16 + (x - i * 16) = x := by omega
      rw [scanned, if_pos ⟨hge, hlt⟩, Vector.getElem?_eq_getElem hj, Option.getD_some,
        Vector.getElem_ofFn, hx]
    · have hj : ¬ x - i * 16 < 16 := by omega
      rw [scanned, if_neg (by omega), Vector.getElem?_eq_none (by omega), Option.getD_none]
  · rw [if_neg hge, scanned, if_neg (by omega)]

/-- A load that fails leaves zeros where there were zeros. -/
theorem overwrite_copied_of_not_fits {i : ℕ} (hfits : ¬ (urlReading skb start).Fits i)
    {poffset : UInt32} (hoff : poffset.toNat = start + 12 * i) :
    overwrite (bufferOf ((urlReading skb start).copied 0 (i * 16))) (i * 16)
        (bpfSkbLoadBytes skb poffset 16).2
      = bufferOf ((urlReading skb start).copied 0 (i * 16)) := by
  rw [bpfSkbLoadBytes_of_not_fits hfits hoff, overwrite_bufferOf]
  refine bufferOf_congr fun x _ => ?_
  by_cases hge : i * 16 ≤ x
  · have hzero : (urlReading skb start).copied 0 (i * 16) x = 0 := if_neg (by omega)
    rw [if_pos hge, hzero]
    by_cases hlt : x - i * 16 < 16
    · rw [Vector.getElem?_eq_getElem hlt, Option.getD_some, Vector.getElem_replicate]
    · rw [Vector.getElem?_eq_none (by omega), Option.getD_none]
  · rw [if_neg hge]

/-- A loop that has finished leaves the buffer as it is. -/
theorem afterWindows_of_forall_lt {i : ℕ} {poffset : UInt32}
    (hlt : ∀ x, (urlReading skb start).Kept x → x < i * 16) :
    AfterWindows skb start (i + 1)
      (true, poffset, bufferOf ((urlReading skb start).copied 0 (i * 16))) := by
  have hlost : ¬ (urlReading skb start).AllKept ((i + 1) * 16) := by
    intro hkept
    have := hlt (i * 16) (hkept (i * 16) (by omega))
    omega
  have hsame : (urlReading skb start).copied 0 ((i + 1) * 16)
      = (urlReading skb start).copied 0 (i * 16) :=
    Reading.copied_eq_of_forall_lt (by omega) hlt
  refine ⟨?_, fun hkept => absurd hkept hlost, ?_⟩
  · rw [decide_eq_false hlost]
    rfl
  · rw [hsame]

/-- A round that reads a window scans it. -/
theorem loadUrlChunk_of_fits {i : ℕ} (hi : i < 16) (hall : (urlReading skb start).AllKept (i * 16))
    (hfits : (urlReading skb start).Fits i) {poffset : UInt32}
    (hoff : poffset.toNat = start + 12 * i) :
    loadUrlChunk skb (false, poffset, bufferOf ((urlReading skb start).copied 0 (i * 16))) i =
      (!decide ((urlReading skb start).AllKept (i * 16 + 16)), poffset + 12,
        bufferOf (scanned skb start (i * 16 + 16) (i * 16 + 16))) := by
  have hresult : (bpfSkbLoadBytes skb poffset 16).1 = 0 := by
    rw [bpfSkbLoadBytes_of_fits hfits hoff]
  have hinit : (false, bufferOf (scanned skb start (i * 16) (i * 16 + 16)))
      = scanState skb start (i * 16) (i * 16 + 16) := by
    rw [scanState, decide_eq_true hall]
    rfl
  simp only [loadUrlChunk, Bool.false_eq_true, if_false, hresult, if_true,
    overwrite_copied hfits hoff, hinit, foldl_scanUrlByte hi hfits]
  rfl

/-- A round whose load fails is the last one that does anything. -/
theorem loadUrlChunk_of_not_fits {i : ℕ} (hfits : ¬ (urlReading skb start).Fits i)
    {poffset : UInt32} (hoff : poffset.toNat = start + 12 * i) :
    loadUrlChunk skb (false, poffset, bufferOf ((urlReading skb start).copied 0 (i * 16))) i =
      (true, poffset, bufferOf ((urlReading skb start).copied 0 (i * 16))) := by
  have hresult : (bpfSkbLoadBytes skb poffset 16).1 ≠ 0 := by
    rw [bpfSkbLoadBytes_of_not_fits hfits hoff]
    decide
  simp only [loadUrlChunk, Bool.false_eq_true, if_false, hresult,
    overwrite_copied_of_not_fits hfits hoff]

/-- One window. -/
theorem afterWindows_step (hstart : start + 256 < 2 ^ 32) {i : ℕ} (hi : i < 16)
    {st : Bool × UInt32 × Vector UInt8 maxUrlLen} (h : AfterWindows skb start i st) :
    AfterWindows skb start (i + 1) (loadUrlChunk skb st i) := by
  obtain ⟨finished, poffset, p⟩ := st
  obtain ⟨hfin, hoff, hbuf⟩ := h
  simp only at hfin hoff hbuf
  have hnext : (i + 1) * 16 = i * 16 + 16 := by omega
  by_cases hall : (urlReading skb start).AllKept (i * 16)
  · rw [decide_eq_true hall, Bool.not_true] at hfin
    have hpoffset := hoff hall
    rw [hfin, hbuf]
    by_cases hfits : (urlReading skb start).Fits i
    · -- the window is read and scanned
      rw [loadUrlChunk_of_fits hi hall hfits hpoffset]
      refine ⟨by rw [hnext], fun _ => ?_, ?_⟩
      · have htwelve : (12 : UInt32).toNat = 12 := rfl
        show (poffset + 12).toNat = start + 12 * (i + 1)
        rw [UInt32.toNat_add, hpoffset, htwelve]
        omega
      · rw [hnext]
        refine bufferOf_congr fun x _ => ?_
        rw [scanned, if_neg (by omega)]
    · -- the load fails and clears the window
      rw [loadUrlChunk_of_not_fits hfits hpoffset]
      apply afterWindows_of_forall_lt
      intro x hx
      exact hx.lt_of_not_fits (show 0 < 16 by omega) hfits
  · -- nothing is read any more
    rw [decide_eq_false hall, Bool.not_false] at hfin
    rw [hfin, hbuf]
    show AfterWindows skb start (i + 1) (true, poffset, _)
    apply afterWindows_of_forall_lt
    intro x hx
    exact hx.lt_of_not_allKept hall

/-- **What `__load_url_to_map` leaves in the buffer.** -/
theorem loadUrlToMap_eq {poffset : UInt32} (hpoffset : poffset.toNat + 256 < 2 ^ 32) :
    loadUrlToMap skb poffset Packet.zero.url
      = bufferOf ((urlReading skb poffset.toNat).copied 0 maxUrlLen) := by
  have hall : (urlReading skb poffset.toNat).AllKept (0 * 16) := fun y hy => by omega
  have hempty : Packet.zero.url = bufferOf ((urlReading skb poffset.toNat).copied 0 (0 * 16)) := by
    rw [url_zero]
    refine bufferOf_congr fun x _ => ?_
    rw [Reading.copied, if_neg (by omega)]
  have hzero : AfterWindows skb poffset.toNat 0 (false, poffset, Packet.zero.url) := by
    refine ⟨?_, fun _ => rfl, hempty⟩
    rw [decide_eq_true hall]
    rfl
  have hrun := foldl_range_invariant (P := AfterWindows skb poffset.toNat) 16 hzero
    fun i hi st hst => afterWindows_step hpoffset hi hst
  exact hrun.buffer

end Window

end Kubebpfbox.Http
