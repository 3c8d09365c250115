import Kubebpfbox.Http.Equiv.Url

/-!
# Headers with options

The program computes where the payload starts from both header lengths, but loads the TCP header
from behind an IP header of twenty bytes.  With options in the IP header it takes the ports and the
data offset from the wrong place, and the payload with them.

`parsesSegment_iff` says exactly for which frames nothing comes of it.
-/

namespace Kubebpfbox.Http

open Bytes Golang

variable {filterIp : FilterIp} {skb : SkBuff} {a : Arrival}

/-! ### Where the headers lie -/

/-- A TCP header that lies in the frame. -/
theorem tcphdr_eq {offset : UInt32} (h : offset.toNat + sizeofTcphdr ≤ skb.data.length) :
    skb.tcphdr offset =
      { source := le16 (skb.data.getD offset.toNat 0) (skb.data.getD (offset.toNat + 1) 0)
        dest := le16 (skb.data.getD (offset.toNat + 2) 0) (skb.data.getD (offset.toNat + 3) 0)
        doff := skb.data.getD (offset.toNat + 12) 0 >>> 4 } := by
  unfold SkBuff.tcphdr Tcphdr.ofBytes
  simp only [getElem_bpfSkbLoadBytes h, Nat.add_zero]

theorem toNat_tcpOffset (skb : SkBuff) : (UInt32.ofNat skb.tcpOffset).toNat = skb.tcpOffset := by
  have hihl : skb.iphdr.ihl.toNat ≤ 15 := ihl_le skb
  rw [UInt32.toNat_ofNat', SkBuff.tcpOffset]
  omega

theorem toNat_payloadOffset (skb : SkBuff) :
    (UInt32.ofNat skb.payloadOffset).toNat = skb.payloadOffset := by
  have hihl : skb.iphdr.ihl.toNat ≤ 15 := ihl_le skb
  have hdoff : skb.tcpHeader.doff.toNat ≤ 15 := doff_le skb _
  rw [UInt32.toNat_ofNat', SkBuff.payloadOffset, SkBuff.tcpOffset]
  omega

/-- The data offset in the place the program reads it from. -/
def SkBuff.plainDoff (skb : SkBuff) : UInt8 := skb.data.getD 46 0 >>> 4

/-- Where the program looks for the payload. -/
def SkBuff.foundOffset (skb : SkBuff) : ℕ := skb.tcpOffset + 4 * skb.plainDoff.toNat

/-- Option bytes that do for the TCP header: the ports are the same, and so are twelve bytes where
the data offset among them points to and the first of the payload. -/
structure SkBuff.OptionsMatch (skb : SkBuff) : Prop where
  ports : ∀ i, i < 4 → skb.data.getD (34 + i) 0 = skb.data.getD (skb.tcpOffset + i) 0
  payload : ∀ i, i < 12 → skb.data.getD (skb.payloadOffset + i) 0
    = if skb.foundOffset + 12 ≤ skb.data.length then skb.data.getD (skb.foundOffset + i) 0 else 0

/-- The program takes the segment from where the headers say it is: the bytes it classifies are the
first of the payload, and the ports of the keys and of the record are those of the TCP header. -/
structure ParsesSegment (a : Arrival) : Prop where
  payload : ∀ i (hi : i < 12),
    a.skb.data[a.skb.payloadOffset + i]? = some (parse a.skb).preChar[i]
  requestKey : (parse a.skb).requestKey.srcPort = a.skb.tcpHeader.source ∧
    (parse a.skb).requestKey.dstPort = a.skb.tcpHeader.dest
  responseKey : (parse a.skb).responseKey.srcPort = a.skb.tcpHeader.dest ∧
    (parse a.skb).responseKey.dstPort = a.skb.tcpHeader.source
  packet : ∀ method, (requestPacket a method).srcPort = a.skb.tcpHeader.source ∧
    (requestPacket a method).dstPort = a.skb.tcpHeader.dest

/-! ### What the program finds -/

section Legal

variable (hihl : 5 ≤ skb.iphdr.ihl) (hdoff : 5 ≤ skb.tcpHeader.doff)
  (hlen : skb.payloadOffset + 12 ≤ skb.data.length)
include hihl hdoff hlen

/-- Both places the TCP header can be taken for lie in the frame. -/
theorem header_le : 34 ≤ skb.tcpOffset ∧ skb.tcpOffset + sizeofTcphdr ≤ skb.data.length := by
  have h5 : (5 : UInt8).toNat = 5 := rfl
  have hi : 5 ≤ skb.iphdr.ihl.toNat := by
    rw [← h5]
    exact UInt8.le_iff_toNat_le.mp hihl
  have hd : 5 ≤ skb.tcpHeader.doff.toNat := by
    rw [← h5]
    exact UInt8.le_iff_toNat_le.mp hdoff
  rw [SkBuff.payloadOffset] at hlen
  rw [sizeofTcphdr]
  constructor
  · rw [SkBuff.tcpOffset]
    omega
  · omega

theorem tcpHeader_eq : skb.tcpHeader =
    { source := le16 (skb.data.getD skb.tcpOffset 0) (skb.data.getD (skb.tcpOffset + 1) 0)
      dest := le16 (skb.data.getD (skb.tcpOffset + 2) 0) (skb.data.getD (skb.tcpOffset + 3) 0)
      doff := skb.data.getD (skb.tcpOffset + 12) 0 >>> 4 } := by
  obtain ⟨-, hle⟩ := header_le hihl hdoff hlen
  have h : (UInt32.ofNat skb.tcpOffset).toNat + sizeofTcphdr ≤ skb.data.length := by
    rw [toNat_tcpOffset]
    exact hle
  rw [SkBuff.tcpHeader, tcphdr_eq h, toNat_tcpOffset]

theorem tcph_parse_eq : (parse skb).tcph =
    { source := le16 (skb.data.getD 34 0) (skb.data.getD 35 0)
      dest := le16 (skb.data.getD 36 0) (skb.data.getD 37 0)
      doff := skb.plainDoff } := by
  obtain ⟨hpos, hle⟩ := header_le hihl hdoff hlen
  have hplace : (ethHlen + UInt32.ofNat sizeofIphdr).toNat = 34 := rfl
  have h : (ethHlen + UInt32.ofNat sizeofIphdr).toNat + sizeofTcphdr ≤ skb.data.length := by
    rw [hplace]
    omega
  exact tcphdr_eq h

theorem toNat_poffset_eq : (parse skb).poffset.toNat = skb.foundOffset := by
  rw [toNat_poffset, tcph_parse_eq hihl hdoff hlen, SkBuff.foundOffset]

theorem preChar_eq (i : ℕ) (hi : i < 12) : (parse skb).preChar[i]
    = if skb.foundOffset + 12 ≤ skb.data.length then skb.data.getD (skb.foundOffset + i) 0
      else 0 := by
  have hoffset := toNat_poffset_eq hihl hdoff hlen
  have hpre : (parse skb).preChar = (bpfSkbLoadBytes skb (parse skb).poffset 12).2 := rfl
  simp only [hpre]
  split_ifs with h
  · rw [← hoffset] at h ⊢
    exact getElem_bpfSkbLoadBytes h i hi
  · rw [← hoffset] at h
    simp only [bpfSkbLoadBytes_of_lt (Nat.not_le.mp h), Vector.getElem_replicate]

/-- The ports agree when the four bytes they are read from do. -/
theorem ports_eq_iff : ((parse skb).tcph.source = skb.tcpHeader.source ∧
      (parse skb).tcph.dest = skb.tcpHeader.dest) ↔
    ∀ i, i < 4 → skb.data.getD (34 + i) 0 = skb.data.getD (skb.tcpOffset + i) 0 := by
  rw [tcph_parse_eq hihl hdoff hlen, tcpHeader_eq hihl hdoff hlen]
  simp only [le16_inj]
  constructor
  · rintro ⟨⟨h0, h1⟩, h2, h3⟩ i hi
    interval_cases i
    · exact h0
    · exact h1
    · exact h2
    · exact h3
  · intro h
    exact ⟨⟨h 0 (by omega), h 1 (by omega)⟩, h 2 (by omega), h 3 (by omega)⟩

end Legal

/-- An IP header without options does. -/
theorem optionsMatch_of_plain (hplain : skb.HasPlainIpHeader) (hdoff : 5 ≤ skb.tcpHeader.doff)
    (hlen : skb.payloadOffset + 12 ≤ skb.data.length) : skb.OptionsMatch := by
  have hihl : 5 ≤ skb.iphdr.ihl := by
    rw [show skb.iphdr.ihl = 5 from hplain]
    decide
  have hfound : skb.foundOffset = skb.payloadOffset := by
    rw [← toNat_poffset_eq hihl hdoff hlen, poffset_parse_eq hplain, toNat_payloadOffset]
  constructor
  · intro i _
    rw [tcpOffset_eq hplain]
  · intro i _
    rw [hfound, if_pos hlen]

/-- **Headers of every size are parsed** exactly when the IP header has no options, or options that
do for the TCP header. -/
theorem parsesSegment_iff (h : Reaches filterIp a) (hihl : 5 ≤ a.skb.iphdr.ihl)
    (hdoff : 5 ≤ a.skb.tcpHeader.doff) (hlen : a.skb.payloadOffset + 12 ≤ a.skb.data.length) :
    (∀ m, socketFilterHttp filterIp a m = classify a m) ∧
      (ParsesSegment a ↔ a.skb.HasPlainIpHeader ∨ a.skb.OptionsMatch) := by
  refine ⟨socketFilterHttp_of_reaches filterIp h, ?_⟩
  have hpayload : ∀ i, i < 12 → a.skb.data[a.skb.payloadOffset + i]?
      = some (a.skb.data.getD (a.skb.payloadOffset + i) 0) := by
    intro i hi
    have hlt : a.skb.payloadOffset + i < a.skb.data.length := by omega
    rw [List.getD_eq_getElem?_getD, List.getElem?_eq_getElem hlt, Option.getD_some]
  constructor
  · -- what the program took for the TCP header does for it
    intro hparse
    refine Or.inr ⟨(ports_eq_iff hihl hdoff hlen).mp hparse.requestKey, fun i hi => ?_⟩
    have hbyte := hparse.payload i hi
    rw [hpayload i hi, preChar_eq hihl hdoff hlen] at hbyte
    exact Option.some.inj hbyte
  · intro hcond
    have hmatch : a.skb.OptionsMatch :=
      hcond.elim (fun hplain => optionsMatch_of_plain hplain hdoff hlen) id
    obtain ⟨hsource, hdest⟩ := (ports_eq_iff hihl hdoff hlen).mpr hmatch.ports
    refine ⟨fun i hi => ?_, ⟨hsource, hdest⟩, ⟨hdest, hsource⟩, fun _ => ⟨hsource, hdest⟩⟩
    rw [hpayload i hi, preChar_eq hihl hdoff hlen, hmatch.payload i hi]

theorem parsesSegment_iff_of_root :
    (∀ m, socketFilterHttp filterB (requestArrival (rootRequest "")) m
      = classify (requestArrival (rootRequest "")) m) ∧
    ParsesSegment (requestArrival (rootRequest "")) := by
  have hplain : (requestArrival (rootRequest "")).skb.HasPlainIpHeader := plain_tcpFrame ..
  have hihl : 5 ≤ (requestArrival (rootRequest "")).skb.iphdr.ihl := by
    rw [show (requestArrival (rootRequest "")).skb.iphdr.ihl = 5 from hplain]
    decide
  have hdoff : 5 ≤ (requestArrival (rootRequest "")).skb.tcpHeader.doff := by
    rw [requestArrival, tcpHeader_tcpFrame]
    decide
  have hlen : (requestArrival (rootRequest "")).skb.payloadOffset + 12
      ≤ (requestArrival (rootRequest "")).skb.data.length := by
    rw [length_requestArrival, requestArrival, payloadOffset_tcpFrame]
    decide
  obtain ⟨hclassify, hiff⟩ := parsesSegment_iff (reaches_requestArrival _) hihl hdoff hlen
  exact ⟨hclassify, hiff.mpr (Or.inl hplain)⟩

/-- A request for the root whose IP header carries one word of options, all of them no-ops. -/
def optionsArrival : Arrival where
  skb := { data :=
    [0, 0, 0, 0, 0, 0, 0, 0, 0, 0, 0, 0, 0x08, 0x00,
      0x46, 0, 0, 62, 0, 0, 0, 0, 64, 6, 0, 0, 10, 0, 0, 1, 10, 0, 0, 2, 1, 1, 1, 1,
      200, 1, 0, 80, 0, 0, 0, 0, 0, 0, 0, 0, 0x50, 0x18, 0, 0, 0, 0, 0, 0] ++
      ascii "GET / HTTP/1.0\r\n\r\n" }
  now := 1000
  ringRoom := true

/-- With options in the IP header the program takes them for the ports. -/
theorem not_parsesSegment_options : Reaches filterB optionsArrival ∧
    5 ≤ optionsArrival.skb.iphdr.ihl ∧ 5 ≤ optionsArrival.skb.tcpHeader.doff ∧
    optionsArrival.skb.payloadOffset + 12 ≤ optionsArrival.skb.data.length ∧
    ¬ ParsesSegment optionsArrival := by
  have hsrc : optionsArrival.skb.iphdr.saddr = hostA.word := by decide
  refine ⟨⟨by decide, ?_⟩, by decide, by decide, by decide, fun hparse => ?_⟩
  · rw [hsrc, checkTargetIp, Bpf.HashMap.lookup_eq_none.mpr hostA_not_mem_filterB]
    rfl
  · have hports : (parse optionsArrival.skb).requestKey.srcPort = 0x0101 ∧
        optionsArrival.skb.tcpHeader.source = 0x01c8 := by decide
    have hsource := hparse.requestKey.1
    rw [hports.1, hports.2] at hsource
    revert hsource
    decide

end Kubebpfbox.Http
