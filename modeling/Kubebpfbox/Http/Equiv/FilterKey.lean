import Kubebpfbox.Http.Ebpf

/-!
# The keys of `filter_ip`

The kernel program looks an address up as the word its four bytes make in the packet; user space
writes the word `ipv4ToUint32` makes of what `net.ParseIP` returns.  That is the 16-byte form of the
address, whose first four bytes are zero, so user space only ever writes the key of `0.0.0.0`
(`ipv4ToUint32_v4InV6`).

* `keyAgrees_iff`: the two keys are the same for `0.0.0.0` and for no other address.
-/

namespace Kubebpfbox.Http

open Bytes Golang

/-- The IPv4-in-IPv6 form of an address. -/
def v4InV6 (a b c d : UInt8) : NetIP := List.replicate 10 0 ++ [0xff, 0xff, a, b, c, d]

theorem ipv4ToUint32_v4InV6 (a b c d : UInt8) : ipv4ToUint32 (v4InV6 a b c d) = .ok 0 := by
  rfl

theorem ipString_intToIP_le32 (a b c d : UInt8) :
    ipString (intToIP (le32 a b c d)) = dottedQuad a b c d := by
  have hbytes : intToIP (le32 a b c d) = #v[a, b, c, d] := by
    apply Vector.toList_inj.mp
    exact bytesLE_le32 a b c d
  rw [hbytes]
  rfl

/-- The bytes of the source address, behind the Ethernet header. -/
def HasSaddr (skb : SkBuff) (a b c d : UInt8) : Prop :=
  34 ≤ skb.data.length ∧ (skb.data.drop 26).take 4 = [a, b, c, d]

/-- The bytes of the destination address. -/
def HasDaddr (skb : SkBuff) (a b c d : UInt8) : Prop :=
  34 ≤ skb.data.length ∧ (skb.data.drop 30).take 4 = [a, b, c, d]

theorem getD_of_take_drop {l : List UInt8} {n : ℕ} {a b c d : UInt8}
    (h : (l.drop n).take 4 = [a, b, c, d]) :
    l.getD n 0 = a ∧ l.getD (n + 1) 0 = b ∧ l.getD (n + 2) 0 = c ∧ l.getD (n + 3) 0 = d := by
  have hget : ∀ i < 4, l.getD (n + i) 0 = [a, b, c, d].getD i 0 := by
    intro i hi
    rw [← h, List.getD_eq_getElem?_getD, List.getD_eq_getElem?_getD, List.getElem?_take_of_lt hi,
      List.getElem?_drop]
  exact ⟨hget 0 (by omega), hget 1 (by omega), hget 2 (by omega), hget 3 (by omega)⟩

theorem saddr_of_hasSaddr {skb : SkBuff} {a b c d : UInt8} (h : HasSaddr skb a b c d) :
    skb.iphdr.saddr = le32 a b c d := by
  have hload : ethHlen.toNat + sizeofIphdr ≤ skb.data.length := h.1
  obtain ⟨ha, hb, hc, hd⟩ := getD_of_take_drop h.2
  rw [SkBuff.iphdr, Iphdr.ofBytes]
  simp only [getElem_bpfSkbLoadBytes hload]
  rw [← ha, ← hb, ← hc, ← hd]
  rfl

theorem daddr_of_hasDaddr {skb : SkBuff} {a b c d : UInt8} (h : HasDaddr skb a b c d) :
    skb.iphdr.daddr = le32 a b c d := by
  have hload : ethHlen.toNat + sizeofIphdr ≤ skb.data.length := h.1
  obtain ⟨ha, hb, hc, hd⟩ := getD_of_take_drop h.2
  rw [SkBuff.iphdr, Iphdr.ofBytes]
  simp only [getElem_bpfSkbLoadBytes hload]
  rw [← ha, ← hb, ← hc, ← hd]
  rfl

variable (parseIP : GoString → NetIP)

/-- The key user space writes for an address is the word the kernel program looks up in a frame
from or to it, and it prints the address again. -/
def KeyAgrees (a b c d : UInt8) : Prop :=
  ∃ key, filterKeyOf parseIP (dottedQuad a b c d) = .ok key ∧
    bytesLE 4 key.toNat = [a, b, c, d] ∧
    (∀ skb, HasSaddr skb a b c d → skb.iphdr.saddr = key) ∧
    (∀ skb, HasDaddr skb a b c d → skb.iphdr.daddr = key) ∧
    ipString (intToIP key) = dottedQuad a b c d

/-- **The keys agree** for `0.0.0.0` alone, and all addresses have the same key. -/
theorem keyAgrees_iff (hparse : ∀ a b c d, parseIP (dottedQuad a b c d) = v4InV6 a b c d) :
    (∀ a b c d, KeyAgrees parseIP a b c d ↔ a = 0 ∧ b = 0 ∧ c = 0 ∧ d = 0) ∧
    ∀ a b c d a' b' c' d', filterKeyOf parseIP (dottedQuad a b c d)
      = filterKeyOf parseIP (dottedQuad a' b' c' d') := by
  have hkey : ∀ a b c d, filterKeyOf parseIP (dottedQuad a b c d) = .ok 0 := by
    intro a b c d
    rw [filterKeyOf, hparse, ipv4ToUint32_v4InV6]
  refine ⟨fun a b c d => ⟨?_, ?_⟩, fun a b c d a' b' c' d' => by rw [hkey, hkey]⟩
  · rintro ⟨key, hk, hbytes, -⟩
    rw [hkey, Except.ok.injEq] at hk
    have hzero : bytesLE 4 (0 : UInt32).toNat = [0, 0, 0, 0] := by decide
    rw [← hk, hzero] at hbytes
    simp only [List.cons.injEq, and_true] at hbytes
    exact ⟨hbytes.1.symm, hbytes.2.1.symm, hbytes.2.2.1.symm, hbytes.2.2.2.symm⟩
  · rintro ⟨rfl, rfl, rfl, rfl⟩
    have hword : le32 0 0 0 0 = 0 := by decide
    refine ⟨0, hkey 0 0 0 0, by decide, fun skb h => ?_, fun skb h => ?_, ?_⟩
    · rw [saddr_of_hasSaddr h, hword]
    · rw [daddr_of_hasDaddr h, hword]
    · rw [← hword]
      exact ipString_intToIP_le32 0 0 0 0

/-! ### A parser of dotted quads -/

/-- One of the four numbers: decimal, below 256, with no leading zero. -/
def octet? (s : GoString) : Option UInt8 :=
  match natural? s with
  | some n => if n < 256 ∧ (s.length = 1 ∨ s.head? ≠ some 48) then some (UInt8.ofNat n) else none
  | none => none

/-- `net.ParseIP` on texts without a colon. -/
def parseIPv4 (s : GoString) : NetIP :=
  match (s.splitOn 46).map octet? with
  | [some a, some b, some c, some d] => v4InV6 a b c d
  | _ => []

theorem octet?_itoa (a : UInt8) : octet? (itoa a.toNat) = some a := by
  have hall : ∀ n < 256, octet? (itoa n) = some (UInt8.ofNat n) := by decide +kernel
  rw [hall a.toNat a.toNat_lt, UInt8.ofNat_toNat]

theorem dot_notMem_itoa (a : UInt8) : 46 ∉ itoa a.toNat := by
  have hall : ∀ n < 256, (46 : UInt8) ∉ itoa n := by decide +kernel
  exact hall a.toNat a.toNat_lt

theorem splitOn_itoa_append (a : UInt8) (s : GoString) :
    (itoa a.toNat ++ 46 :: s).splitOn 46 = itoa a.toNat :: s.splitOn 46 := by
  have hclean : ∀ x ∈ itoa a.toNat, (x == 46) = false := by
    intro x hx
    rw [beq_eq_false_iff_ne]
    rintro rfl
    exact dot_notMem_itoa a hx
  rw [List.splitOn, List.splitOnP_append_cons (p := (· == 46)) _ _ (beq_self_eq_true 46),
    List.splitOnP_eq_singleton hclean]
  rfl

theorem splitOn_itoa (a : UInt8) : (itoa a.toNat).splitOn 46 = [itoa a.toNat] := by
  refine List.splitOnP_eq_singleton fun x hx => ?_
  rw [beq_eq_false_iff_ne]
  rintro rfl
  exact dot_notMem_itoa a hx

/-- The parser reads what `IP.String` prints. -/
theorem parseIPv4_dottedQuad (a b c d : UInt8) :
    parseIPv4 (dottedQuad a b c d) = v4InV6 a b c d := by
  have hsplit : (dottedQuad a b c d).splitOn 46
      = [itoa a.toNat, itoa b.toNat, itoa c.toNat, itoa d.toNat] := by
    have hquad : dottedQuad a b c d = itoa a.toNat ++ 46 :: (itoa b.toNat ++ 46 ::
        (itoa c.toNat ++ 46 :: itoa d.toNat)) := by
      simp [dottedQuad, ascii]
    rw [hquad, splitOn_itoa_append, splitOn_itoa_append, splitOn_itoa_append, splitOn_itoa]
  rw [parseIPv4, hsplit]
  simp only [List.map_cons, List.map_nil, octet?_itoa]

theorem keyAgrees_iff_of_parseIPv4 :
    KeyAgrees parseIPv4 0 0 0 0 ∧
      filterKeyOf parseIPv4 (dottedQuad 10 0 0 1) = filterKeyOf parseIPv4 (dottedQuad 10 0 0 2) :=
  have hkeys := keyAgrees_iff parseIPv4 parseIPv4_dottedQuad
  ⟨(hkeys.1 0 0 0 0).mpr ⟨rfl, rfl, rfl, rfl⟩, hkeys.2 10 0 0 1 10 0 0 2⟩

/-- The key of `10.0.0.1` is not the word of its bytes, and it is the key of `10.0.0.2` too. -/
theorem not_keyAgrees :
    ¬ KeyAgrees parseIPv4 10 0 0 1 ∧
      filterKeyOf parseIPv4 (dottedQuad 10 0 0 1) = .ok 0 ∧
      filterKeyOf parseIPv4 (dottedQuad 10 0 0 2) = .ok 0 := by
  have hkey : ∀ a b c d, filterKeyOf parseIPv4 (dottedQuad a b c d) = .ok 0 := by
    intro a b c d
    rw [filterKeyOf, parseIPv4_dottedQuad, ipv4ToUint32_v4InV6]
  refine ⟨?_, hkey 10 0 0 1, hkey 10 0 0 2⟩
  rintro ⟨key, hk, hbytes, -⟩
  rw [hkey, Except.ok.injEq] at hk
  rw [← hk] at hbytes
  revert hbytes
  decide

end Kubebpfbox.Http
