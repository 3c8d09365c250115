import Kubebpfbox.Http.SocketFilter
import Mathlib.Tactic.IntervalCases

/-!
# The TCP segment of a frame, and what the program takes for it

`SkBuff.tcpHeader`, `SkBuff.payload12` and `SkBuff.fourTuple` read a frame the way the IP and TCP
standards lay it out: the TCP header lies behind the `4 ihl` bytes of the IP header and the payload
behind the `4 doff` bytes of the TCP header.

The program finds the payload with the same sum (`poffset_parse`), but takes the TCP header from a
fixed place, so the two readings agree when the IP header has no options, `HasPlainIpHeader`
(`tcph_parse`, `preChar_parse`, `requestKey_parse`, `responseKey_parse`, `payloadSize_parse`).
-/

namespace Kubebpfbox.Http

open Bytes

namespace SkBuff

/-- Where the TCP header starts. -/
def tcpOffset (skb : SkBuff) : ℕ := 14 + 4 * skb.iphdr.ihl.toNat

/-- The TCP header. -/
def tcpHeader (skb : SkBuff) : Tcphdr := skb.tcphdr (UInt32.ofNat skb.tcpOffset)

/-- Where the TCP payload starts. -/
def payloadOffset (skb : SkBuff) : ℕ := skb.tcpOffset + 4 * skb.tcpHeader.doff.toNat

/-- The first twelve bytes of the TCP payload. -/
def payload12 (skb : SkBuff) : Vector UInt8 12 :=
  (bpfSkbLoadBytes skb (UInt32.ofNat skb.payloadOffset) 12).2

/-- The addresses and ports of the segment. -/
def fourTuple (skb : SkBuff) : ConnKey where
  srcIp := skb.iphdr.saddr
  dstIp := skb.iphdr.daddr
  srcPort := skb.tcpHeader.source
  dstPort := skb.tcpHeader.dest

/-- The length of the payload, by the lengths the headers state. -/
def payloadSize (skb : SkBuff) : UInt32 :=
  (bpfNtohs skb.iphdr.totLen).toUInt32 - UInt32.ofNat (4 * skb.iphdr.ihl.toNat) -
    UInt32.ofNat (4 * skb.tcpHeader.doff.toNat)

/-- The IP header is twenty bytes long. -/
def HasPlainIpHeader (skb : SkBuff) : Prop := skb.iphdr.ihl = 5

end SkBuff

/-- The connection seen from the other side. -/
def ConnKey.mirror (c : ConnKey) : ConnKey := ⟨c.dstIp, c.srcIp, c.dstPort, c.srcPort⟩

/-! ### The two readings -/

theorem shiftLeft_two (x : UInt8) : x.toUInt32 <<< 2 = UInt32.ofNat (4 * x.toNat) := by
  apply UInt32.toNat.inj
  have hx : x.toNat < 2 ^ 8 := x.toNat_lt
  have htwo : (2 : UInt32).toNat % 32 = 2 := rfl
  rw [UInt32.toNat_shiftLeft, UInt32.toNat_ofNat', UInt8.toNat_toUInt32, htwo, Nat.shiftLeft_eq]
  omega

theorem poffset_parse (skb : SkBuff) :
    (parse skb).poffset
      = UInt32.ofNat (skb.tcpOffset + 4 * (parse skb).tcph.doff.toNat) := by
  rw [SkBuff.tcpOffset, UInt32.ofNat_add, UInt32.ofNat_add, ← shiftLeft_two, ← shiftLeft_two]
  rfl

/-- The length field of an IP header has four bits. -/
theorem ihl_le (skb : SkBuff) : skb.iphdr.ihl.toNat ≤ 15 := by
  have hand : ∀ b : UInt8, (b &&& 0x0f).toNat ≤ 15 := by
    intro b
    rw [UInt8.toNat_and]
    exact Nat.and_le_right
  exact hand _

/-- And so has the one of a TCP header. -/
theorem doff_le (skb : SkBuff) (offset : UInt32) : (skb.tcphdr offset).doff.toNat ≤ 15 := by
  have hshift : ∀ b : UInt8, (b >>> 4).toNat ≤ 15 := by
    intro b
    have hb : b.toNat < 2 ^ 8 := b.toNat_lt
    have hfour : (4 : UInt8).toNat % 8 = 4 := rfl
    rw [UInt8.toNat_shiftRight, hfour, Nat.shiftRight_eq_div_pow]
    omega
  exact hshift _

theorem toNat_poffset (skb : SkBuff) :
    (parse skb).poffset.toNat = skb.tcpOffset + 4 * (parse skb).tcph.doff.toNat := by
  have hihl : skb.iphdr.ihl.toNat ≤ 15 := ihl_le skb
  have hdoff : (parse skb).tcph.doff.toNat ≤ 15 := doff_le skb _
  rw [poffset_parse, UInt32.toNat_ofNat', SkBuff.tcpOffset]
  omega

section PlainIpHeader

variable {skb : SkBuff} (h : skb.HasPlainIpHeader)
include h

theorem tcpOffset_eq : skb.tcpOffset = 34 := by
  rw [SkBuff.tcpOffset, show skb.iphdr.ihl = 5 from h]
  rfl

theorem tcph_parse : (parse skb).tcph = skb.tcpHeader := by
  rw [SkBuff.tcpHeader, tcpOffset_eq h]
  rfl

theorem poffset_parse_eq : (parse skb).poffset = UInt32.ofNat skb.payloadOffset := by
  rw [poffset_parse, tcph_parse h, SkBuff.payloadOffset]

theorem preChar_parse : (parse skb).preChar = skb.payload12 := by
  rw [SkBuff.payload12, ← poffset_parse_eq h]
  rfl

theorem requestKey_parse : (parse skb).requestKey = skb.fourTuple := by
  rw [Parsed.requestKey, tcph_parse h]
  rfl

theorem responseKey_parse : (parse skb).responseKey = skb.fourTuple.mirror := by
  rw [Parsed.responseKey, tcph_parse h]
  rfl

theorem payloadSize_parse : (parse skb).payloadSize = skb.payloadSize := by
  rw [SkBuff.payloadSize, ← tcph_parse h, ← shiftLeft_two, ← shiftLeft_two]
  rfl

end PlainIpHeader

/-! ### The recognisers -/

/-- A request does not look like a response. -/
theorem not_isHttpResponse_of_isHttpRequest {p : Vector UInt8 12} {m : HttpRequestMethod}
    (h : isHttpRequest p = some m) : isHttpResponse p = false := by
  by_contra hrsp
  simp only [isHttpResponse, Bool.not_eq_false, decide_eq_true_eq] at hrsp
  obtain ⟨h0, h1, -, -⟩ := hrsp
  have hH : 'H'.toUInt8 ≠ 'G'.toUInt8 ∧ 'H'.toUInt8 ≠ 'P'.toUInt8 ∧ 'H'.toUInt8 ≠ 'D'.toUInt8 := by
    decide
  have hT : 'T'.toUInt8 ≠ 'E'.toUInt8 := by decide
  simp [isHttpRequest, h0, h1, hH, hT] at h

/-- The letters of the recognised method are the first bytes of the payload. -/
theorem name_prefix_of_isHttpRequest {p : Vector UInt8 12} {m : HttpRequestMethod}
    (h : isHttpRequest p = some m) : m.name <+: p.toList := by
  have htwelve : p.toList =
      [p[0], p[1], p[2], p[3], p[4], p[5], p[6], p[7], p[8], p[9], p[10], p[11]] := by
    apply List.ext_getElem
    · simp
    · intro i hi _
      have hi12 : i < 12 := by simpa using hi
      interval_cases i <;> rfl
  rw [htwelve]
  unfold isHttpRequest at h
  -- one case for each method: the bytes that were compared spell its name
  split_ifs at h with hget hpost hput hdelete hhead hpatch <;> obtain rfl := Option.some.inj h
  · obtain ⟨h0, h1, h2⟩ := hget
    rw [h0, h1, h2]
    exact ⟨_, rfl⟩
  · obtain ⟨h0, h1, h2, h3⟩ := hpost
    rw [h0, h1, h2, h3]
    exact ⟨_, rfl⟩
  · obtain ⟨h0, h1, h2⟩ := hput
    rw [h0, h1, h2]
    exact ⟨_, rfl⟩
  · obtain ⟨h0, h1, h2, h3, h4, h5⟩ := hdelete
    rw [h0, h1, h2, h3, h4, h5]
    exact ⟨_, rfl⟩
  · obtain ⟨h0, h1, h2, h3⟩ := hhead
    rw [h0, h1, h2, h3]
    exact ⟨_, rfl⟩
  · obtain ⟨h0, h1, h2, h3, h4⟩ := hpatch
    rw [h0, h1, h2, h3, h4]
    exact ⟨_, rfl⟩

/-! ### Building a frame -/

/-- An IPv4 address, byte by byte in network order. -/
structure Ipv4 where
  a : UInt8
  b : UInt8
  c : UInt8
  d : UInt8
  deriving DecidableEq, Repr

/-- The word a little-endian machine loads from the bytes of an address. -/
def Ipv4.word (x : Ipv4) : UInt32 := le32 x.a x.b x.c x.d

/-- The headers of a frame without options whose payload has `n` bytes. -/
def frameHeaders (src dst : Ipv4) (sport dport : UInt8 × UInt8) (n : ℕ) : List UInt8 :=
  -- Ethernet
  [0, 0, 0, 0, 0, 0, 0, 0, 0, 0, 0, 0, 0x08, 0x00,
  -- IPv4
    0x45, 0, UInt8.ofNat ((40 + n) / 256), UInt8.ofNat (40 + n), 0, 0, 0, 0, 64, 6, 0, 0,
    src.a, src.b, src.c, src.d, dst.a, dst.b, dst.c, dst.d,
  -- TCP
    sport.1, sport.2, dport.1, dport.2, 0, 0, 0, 0, 0, 0, 0, 0, 0x50, 0x18, 0, 0, 0, 0, 0, 0]

/-- A frame without header options that carries `payload`. -/
def tcpFrame (src dst : Ipv4) (sport dport : UInt8 × UInt8) (payload : List UInt8) : SkBuff where
  data := frameHeaders src dst sport dport payload.length ++ payload

section TcpFrame

variable (src dst : Ipv4) (sport dport : UInt8 × UInt8) (payload : List UInt8)

theorem length_tcpFrame :
    (tcpFrame src dst sport dport payload).data.length = 54 + payload.length := by
  rw [tcpFrame, List.length_append]
  rfl

theorem isTcpIpv4_tcpFrame : (tcpFrame src dst sport dport payload).IsTcpIpv4 := by
  constructor
  · have h : offsetofHProto.toNat + 2 ≤ (tcpFrame src dst sport dport payload).data.length := by
      rw [length_tcpFrame, show offsetofHProto.toNat = 12 from rfl]
      omega
    unfold SkBuff.ethProto
    simp only [getElem_bpfSkbLoadBytes h]
    show bpfNtohs (le16 8 0) = ethPIp
    decide
  · have h : (ethHlen + offsetofProtocol).toNat + 1
        ≤ (tcpFrame src dst sport dport payload).data.length := by
      rw [length_tcpFrame, show (ethHlen + offsetofProtocol).toNat = 23 from rfl]
      omega
    unfold SkBuff.ipProto
    rw [getElem_bpfSkbLoadBytes h]
    rfl

theorem iphdr_tcpFrame : (tcpFrame src dst sport dport payload).iphdr =
    { ihl := 5
      totLen := le16 (UInt8.ofNat ((40 + payload.length) / 256)) (UInt8.ofNat (40 + payload.length))
      saddr := src.word
      daddr := dst.word } := by
  have h : ethHlen.toNat + sizeofIphdr ≤ (tcpFrame src dst sport dport payload).data.length := by
    rw [length_tcpFrame, show ethHlen.toNat = 14 from rfl, sizeofIphdr]
    omega
  have hihl : (5 : UInt8) = 0x45 &&& 0x0f := by decide
  unfold SkBuff.iphdr Iphdr.ofBytes
  simp only [getElem_bpfSkbLoadBytes h, show ethHlen.toNat = 14 from rfl]
  rw [hihl]
  rfl

theorem plain_tcpFrame : (tcpFrame src dst sport dport payload).HasPlainIpHeader := by
  rw [SkBuff.HasPlainIpHeader, iphdr_tcpFrame]

theorem tcpHeader_tcpFrame : (tcpFrame src dst sport dport payload).tcpHeader =
    { source := le16 sport.1 sport.2, dest := le16 dport.1 dport.2, doff := 5 } := by
  have h : (34 : UInt32).toNat + sizeofTcphdr
      ≤ (tcpFrame src dst sport dport payload).data.length := by
    rw [length_tcpFrame, show (34 : UInt32).toNat = 34 from rfl, sizeofTcphdr]
    omega
  have hdoff : (5 : UInt8) = (0x50 : UInt8) >>> 4 := by decide
  rw [SkBuff.tcpHeader, tcpOffset_eq (plain_tcpFrame src dst sport dport payload),
    show UInt32.ofNat 34 = 34 from rfl]
  unfold SkBuff.tcphdr Tcphdr.ofBytes
  simp only [getElem_bpfSkbLoadBytes h, show (34 : UInt32).toNat = 34 from rfl]
  rw [hdoff]
  rfl

theorem fourTuple_tcpFrame : (tcpFrame src dst sport dport payload).fourTuple =
    ⟨src.word, dst.word, le16 sport.1 sport.2, le16 dport.1 dport.2⟩ := by
  rw [SkBuff.fourTuple, iphdr_tcpFrame, tcpHeader_tcpFrame]

theorem payloadOffset_tcpFrame : (tcpFrame src dst sport dport payload).payloadOffset = 54 := by
  rw [SkBuff.payloadOffset, tcpHeader_tcpFrame,
    tcpOffset_eq (plain_tcpFrame src dst sport dport payload)]
  rfl

/-- The payload of a built frame is the payload it was built with. -/
theorem payload12_tcpFrame (h : 12 ≤ payload.length) :
    (tcpFrame src dst sport dport payload).payload12 = Vector.ofFn fun i => payload.getD i 0 := by
  have hlen : (UInt32.ofNat 54).toNat + 12
      ≤ (tcpFrame src dst sport dport payload).data.length := by
    rw [length_tcpFrame, show (UInt32.ofNat 54).toNat = 54 from rfl]
    omega
  rw [SkBuff.payload12, payloadOffset_tcpFrame]
  ext i hi
  have hhdr : (frameHeaders src dst sport dport payload.length).length = 54 := rfl
  rw [getElem_bpfSkbLoadBytes hlen, Vector.getElem_ofFn, show (UInt32.ofNat 54).toNat = 54 from rfl]
  simp only [tcpFrame, List.getD_eq_getElem?_getD]
  rw [List.getElem?_append_right (by omega), hhdr, Nat.add_sub_cancel_left]

end TcpFrame

end Kubebpfbox.Http
