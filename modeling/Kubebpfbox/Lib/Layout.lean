import Kubebpfbox.Lib.Bytes
import Mathlib.Data.Vector.Basic

/-!
# Records in memory

`structBytes` is how a C compiler lays a struct out: every member starts at a multiple of its
alignment, the whole struct is as long as a multiple of its own, and the bytes in between are
padding, which may hold anything.

`Reader` reads a record back from a buffer, one field after another, the way `encoding/binary` does.
The `read_` lemmas say what a reader finds at the front of a buffer.
-/

namespace Layout

open Bytes

/-! ### Writing -/

/-- A member of a struct: its alignment and its bytes. -/
structure Member where
  align : ℕ
  bytes : List UInt8

/-- Padding up to the next multiple of `align`; the byte at offset `i` is `pad i`. -/
def padTo (pad : ℕ → UInt8) (align : ℕ) (acc : List UInt8) : List UInt8 :=
  acc ++ (List.range ((align - acc.length % align) % align)).map fun i => pad (acc.length + i)

/-- The bytes of a struct with the given alignment and members. -/
def structBytes (pad : ℕ → UInt8) (align : ℕ) (members : List Member) : List UInt8 :=
  padTo pad align (members.foldl (fun acc m => padTo pad m.align acc ++ m.bytes) [])

/-- A `__u8[n]` member. -/
def Member.u8s {n : ℕ} (v : Vector UInt8 n) : Member := ⟨1, v.toList⟩

/-- A `__u16` member on a little-endian machine. -/
def Member.u16 (w : UInt16) : Member := ⟨2, bytesLE 2 w.toNat⟩

/-- A `__u32` member on a little-endian machine. -/
def Member.u32 (w : UInt32) : Member := ⟨4, bytesLE 4 w.toNat⟩

/-- A `__u64` member on a little-endian machine. -/
def Member.u64 (w : UInt64) : Member := ⟨8, bytesLE 8 w.toNat⟩

/-! ### Reading -/

/-- The front of a buffer and the rest. -/
theorem exists_append_of_length {l : List UInt8} {m n : ℕ} (h : l.length = m + n) :
    ∃ a b, l = a ++ b ∧ a.length = m ∧ b.length = n := by
  refine ⟨l.take m, l.drop m, (List.take_append_drop m l).symm, ?_, ?_⟩
  · rw [List.length_take]
    omega
  · rw [List.length_drop]
    omega

/-- A reader consumes the front of a buffer; `none` is `io.ErrUnexpectedEOF`. -/
abbrev Reader := StateT (List UInt8) Option

namespace Reader

/-- The next `n` bytes. -/
def u8s (n : ℕ) : Reader (Vector UInt8 n) := fun b =>
  if h : (b.take n).length = n then some (⟨(b.take n).toArray, by simpa using h⟩, b.drop n)
  else none

/-- The next two bytes, a little-endian number. -/
def u16 : Reader UInt16 := do
  let v ← u8s 2
  return UInt16.ofNat (natLE v.toList)

/-- The next four bytes, a little-endian number. -/
def u32 : Reader UInt32 := do
  let v ← u8s 4
  return UInt32.ofNat (natLE v.toList)

/-- The next eight bytes, a little-endian number. -/
def u64 : Reader UInt64 := do
  let v ← u8s 8
  return UInt64.ofNat (natLE v.toList)

/-- Skip `n` bytes. -/
def skip (n : ℕ) : Reader PUnit := do
  let _ ← u8s n

theorem read_bind {α β : Type} {x : Reader α} {f : α → Reader β} {b b' : List UInt8} {a : α}
    (h : x b = some (a, b')) : (x >>= f) b = f a b' := by
  change (x b).bind (fun p => f p.1 p.2) = _
  rw [h, Option.bind_some]

theorem read_u8s {n : ℕ} (v : Vector UInt8 n) (rest : List UInt8) :
    u8s n (v.toList ++ rest) = some (v, rest) := by
  have hlen : v.toList.length = n := v.length_toList
  have htake : (v.toList ++ rest).take n = v.toList := by
    rw [List.take_append_of_le_length hlen.ge, List.take_of_length_le hlen.le]
  have hdrop : (v.toList ++ rest).drop n = rest := by
    rw [List.drop_append_of_le_length hlen.ge, List.drop_of_length_le hlen.le, List.nil_append]
  unfold u8s
  simp only [htake, hdrop, hlen, dif_pos]
  congr 2

theorem read_u16 (w : UInt16) (rest : List UInt8) :
    u16 (bytesLE 2 w.toNat ++ rest) = some (w, rest) := by
  let v : Vector UInt8 2 := ⟨(bytesLE 2 w.toNat).toArray, length_bytesLE 2 _⟩
  have hv : v.toList = bytesLE 2 w.toNat := rfl
  rw [u16, ← hv, read_bind (read_u8s v rest), hv, le16_bytesLE]
  rfl

theorem read_u32 (w : UInt32) (rest : List UInt8) :
    u32 (bytesLE 4 w.toNat ++ rest) = some (w, rest) := by
  let v : Vector UInt8 4 := ⟨(bytesLE 4 w.toNat).toArray, length_bytesLE 4 _⟩
  have hv : v.toList = bytesLE 4 w.toNat := rfl
  rw [u32, ← hv, read_bind (read_u8s v rest), hv, le32_bytesLE]
  rfl

theorem read_u64 (w : UInt64) (rest : List UInt8) :
    u64 (bytesLE 8 w.toNat ++ rest) = some (w, rest) := by
  let v : Vector UInt8 8 := ⟨(bytesLE 8 w.toNat).toArray, length_bytesLE 8 _⟩
  have hv : v.toList = bytesLE 8 w.toNat := rfl
  rw [u64, ← hv, read_bind (read_u8s v rest), hv, le64_bytesLE]
  rfl

theorem read_skip {n : ℕ} {gap : List UInt8} (h : gap.length = n) (rest : List UInt8) :
    skip n (gap ++ rest) = some (⟨⟩, rest) := by
  let v : Vector UInt8 n := ⟨gap.toArray, h⟩
  have hv : v.toList = gap := rfl
  rw [skip, ← hv, read_bind (read_u8s v rest)]
  rfl

end Reader

end Layout
