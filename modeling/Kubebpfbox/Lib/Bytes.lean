import Mathlib.Data.Nat.ModEq
import Mathlib.Tactic.Ring
import Mathlib.Tactic.NormNum

/-!
# Bytes, byte order and fixed-width words

`bytesLE w n` writes `n` as exactly `w` bytes, least significant first, and `natLE` reads bytes
back; `bytesBE` is the other byte order.  `natLE_bytesLE` and `bytesLE_natLE` are the two round
trips.  `le16` and `le32` are the words a little-endian machine loads from memory, with
`bytesLE_le16` and `bytesLE_le32` giving the memory back; `swap16` exchanges the two bytes of a
word (`swap16_le16`).
-/

namespace Bytes

/-! ### Numbers as bytes -/

/-- The `w` little-endian bytes of `n`; what does not fit in them is dropped. -/
def bytesLE : ℕ → ℕ → List UInt8
  | 0, _ => []
  | w + 1, n => UInt8.ofNat n :: bytesLE w (n / 256)

/-- The number with the given little-endian bytes. -/
def natLE : List UInt8 → ℕ
  | [] => 0
  | b :: bs => b.toNat + 256 * natLE bs

/-- The `w` big-endian bytes of `n`. -/
def bytesBE (w n : ℕ) : List UInt8 := (bytesLE w n).reverse

@[simp] theorem length_bytesLE (w n : ℕ) : (bytesLE w n).length = w := by
  induction w generalizing n with
  | zero => rfl
  | succ w ih => rw [bytesLE, List.length_cons, ih]

theorem natLE_lt (bs : List UInt8) : natLE bs < 256 ^ bs.length := by
  induction bs with
  | nil => simp [natLE]
  | cons b bs ih =>
    have hb : b.toNat < 256 := b.toNat_lt
    rw [natLE, List.length_cons, pow_succ]
    omega

/-- Writing and reading back keeps what fits in `w` bytes. -/
theorem natLE_bytesLE (w n : ℕ) : natLE (bytesLE w n) = n % 256 ^ w := by
  induction w generalizing n with
  | zero => simp [bytesLE, natLE, Nat.mod_one]
  | succ w ih =>
    have hb : (UInt8.ofNat n).toNat = n % 256 := UInt8.toNat_ofNat'
    rw [bytesLE, natLE, ih, hb, pow_succ', Nat.mod_mul]

theorem natLE_bytesLE_of_lt {w n : ℕ} (h : n < 256 ^ w) : natLE (bytesLE w n) = n := by
  rw [natLE_bytesLE, Nat.mod_eq_of_lt h]

/-- Reading and writing back gives the bytes again. -/
theorem bytesLE_natLE (bs : List UInt8) : bytesLE bs.length (natLE bs) = bs := by
  induction bs with
  | nil => rfl
  | cons b bs ih =>
    have hb : b.toNat < 256 := b.toNat_lt
    have hlow : UInt8.ofNat (natLE (b :: bs)) = b := by
      apply UInt8.toNat.inj
      rw [UInt8.toNat_ofNat', natLE]
      omega
    have hhigh : natLE (b :: bs) / 256 = natLE bs := by
      rw [natLE]
      omega
    rw [List.length_cons, bytesLE, hlow, hhigh, ih]

/-! ### Words in memory -/

/-- The 16-bit word a little-endian machine loads from two bytes of memory. -/
def le16 (b₀ b₁ : UInt8) : UInt16 := UInt16.ofNat (natLE [b₀, b₁])

/-- The 32-bit word a little-endian machine loads from four bytes of memory. -/
def le32 (b₀ b₁ b₂ b₃ : UInt8) : UInt32 := UInt32.ofNat (natLE [b₀, b₁, b₂, b₃])

theorem toNat_le16 (b₀ b₁ : UInt8) : (le16 b₀ b₁).toNat = natLE [b₀, b₁] := by
  have h : natLE [b₀, b₁] < 2 ^ 16 := lt_of_lt_of_eq (natLE_lt _) (by norm_num)
  rw [le16, UInt16.toNat_ofNat', Nat.mod_eq_of_lt h]

theorem toNat_le32 (b₀ b₁ b₂ b₃ : UInt8) : (le32 b₀ b₁ b₂ b₃).toNat = natLE [b₀, b₁, b₂, b₃] := by
  have h : natLE [b₀, b₁, b₂, b₃] < 2 ^ 32 := lt_of_lt_of_eq (natLE_lt _) (by norm_num)
  rw [le32, UInt32.toNat_ofNat', Nat.mod_eq_of_lt h]

/-- Storing a loaded 16-bit word gives the memory back. -/
@[simp] theorem bytesLE_le16 (b₀ b₁ : UInt8) : bytesLE 2 (le16 b₀ b₁).toNat = [b₀, b₁] := by
  have h := bytesLE_natLE [b₀, b₁]
  rwa [← toNat_le16] at h

/-- Storing a loaded 32-bit word gives the memory back. -/
@[simp] theorem bytesLE_le32 (b₀ b₁ b₂ b₃ : UInt8) :
    bytesLE 4 (le32 b₀ b₁ b₂ b₃).toNat = [b₀, b₁, b₂, b₃] := by
  have h := bytesLE_natLE [b₀, b₁, b₂, b₃]
  rwa [← toNat_le32] at h

theorem le16_inj {a₀ a₁ b₀ b₁ : UInt8} : le16 a₀ a₁ = le16 b₀ b₁ ↔ a₀ = b₀ ∧ a₁ = b₁ := by
  constructor
  · intro h
    have hbytes : [a₀, a₁] = [b₀, b₁] := by rw [← bytesLE_le16, ← bytesLE_le16, h]
    simpa using hbytes
  · rintro ⟨rfl, rfl⟩
    rfl

theorem le16_bytesLE (w : UInt16) :
    UInt16.ofNat (natLE (bytesLE 2 w.toNat)) = w := by
  have hw : w.toNat < 256 ^ 2 := lt_of_lt_of_eq w.toNat_lt (by norm_num)
  rw [natLE_bytesLE_of_lt hw, UInt16.ofNat_toNat]

theorem le32_bytesLE (w : UInt32) :
    UInt32.ofNat (natLE (bytesLE 4 w.toNat)) = w := by
  have hw : w.toNat < 256 ^ 4 := lt_of_lt_of_eq w.toNat_lt (by norm_num)
  rw [natLE_bytesLE_of_lt hw, UInt32.ofNat_toNat]

theorem le64_bytesLE (w : UInt64) :
    UInt64.ofNat (natLE (bytesLE 8 w.toNat)) = w := by
  have hw : w.toNat < 256 ^ 8 := lt_of_lt_of_eq w.toNat_lt (by norm_num)
  rw [natLE_bytesLE_of_lt hw, UInt64.ofNat_toNat]

/-- Four bytes are those of a word. -/
theorem exists_bytesLE_uint32 {bs : List UInt8} (h : bs.length = 4) :
    ∃ w : UInt32, bytesLE 4 w.toNat = bs := by
  refine ⟨UInt32.ofNat (natLE bs), ?_⟩
  have hlt : natLE bs < 2 ^ 32 := lt_of_lt_of_eq (natLE_lt bs) (by rw [h]; norm_num)
  rw [UInt32.toNat_ofNat', Nat.mod_eq_of_lt hlt, ← h]
  exact bytesLE_natLE bs

/-- Eight bytes are those of a double word. -/
theorem exists_bytesLE_uint64 {bs : List UInt8} (h : bs.length = 8) :
    ∃ w : UInt64, bytesLE 8 w.toNat = bs := by
  refine ⟨UInt64.ofNat (natLE bs), ?_⟩
  have hlt : natLE bs < 2 ^ 64 := lt_of_lt_of_eq (natLE_lt bs) (by rw [h]; norm_num)
  rw [UInt64.toNat_ofNat', Nat.mod_eq_of_lt hlt, ← h]
  exact bytesLE_natLE bs

/-- The 16-bit word with the two bytes exchanged. -/
def swap16 (w : UInt16) : UInt16 := UInt16.ofNat (natLE (bytesBE 2 w.toNat))

theorem swap16_le16 (b₀ b₁ : UInt8) : swap16 (le16 b₀ b₁) = le16 b₁ b₀ := by
  rw [swap16, bytesBE, bytesLE_le16]
  rfl

/-- Two bytes in network order are the number `256 b₀ + b₁`. -/
theorem toNat_swap16_le16 (b₀ b₁ : UInt8) :
    (swap16 (le16 b₀ b₁)).toNat = 256 * b₀.toNat + b₁.toNat := by
  rw [swap16_le16, toNat_le16, natLE, natLE, natLE]
  omega

end Bytes
