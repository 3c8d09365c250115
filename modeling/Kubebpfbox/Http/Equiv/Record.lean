import Kubebpfbox.Http.Ebpf
import Kubebpfbox.Http.Equiv.FilterKey
import Kubebpfbox.Http.Equiv.Headers

/-!
# Kernel record and Go decoder

What user space makes of the bytes the kernel program submits for a request and its response, field
by field, in terms of the two frames.  The addresses and ports of a frame are read off its header
bytes in network order (`SkBuff.srcAddr`, `SkBuff.srcPort` and their counterparts).

`decodeMapItem_record_iff`: the two agree but for the status code of a response with options in its
IP header, which the program may take from the wrong place (`SkBuff.StatusMatches`).
-/

namespace Kubebpfbox.Http

open Bytes Golang Layout

/-! ### Addresses and ports of a frame -/

namespace SkBuff

/-- The bytes of the IP header. -/
def ipBytes (skb : SkBuff) : List UInt8 := (bpfSkbLoadBytes skb ethHlen sizeofIphdr).2.toList

/-- The bytes of the TCP header. -/
def tcpBytes (skb : SkBuff) : List UInt8 :=
  (bpfSkbLoadBytes skb (UInt32.ofNat skb.tcpOffset) sizeofTcphdr).2.toList

/-- The source address. -/
def srcAddr (skb : SkBuff) : Ipv4 :=
  ⟨skb.ipBytes.getD 12 0, skb.ipBytes.getD 13 0, skb.ipBytes.getD 14 0, skb.ipBytes.getD 15 0⟩

/-- The destination address. -/
def dstAddr (skb : SkBuff) : Ipv4 :=
  ⟨skb.ipBytes.getD 16 0, skb.ipBytes.getD 17 0, skb.ipBytes.getD 18 0, skb.ipBytes.getD 19 0⟩

/-- The source port, a big-endian number. -/
def srcPort (skb : SkBuff) : ℕ :=
  256 * (skb.tcpBytes.getD 0 0).toNat + (skb.tcpBytes.getD 1 0).toNat

/-- The destination port, a big-endian number. -/
def dstPort (skb : SkBuff) : ℕ :=
  256 * (skb.tcpBytes.getD 2 0).toNat + (skb.tcpBytes.getD 3 0).toNat

theorem getD_toList {n i : ℕ} (b : Vector UInt8 n) (h : i < n) :
    b.toList.getD i 0 = b[i] := by
  rw [List.getD_eq_getElem?_getD, Vector.getElem?_toList, Vector.getElem?_eq_getElem h,
    Option.getD_some]

end SkBuff

/-- The dotted decimal notation. -/
def Ipv4.dottedQuad (x : Ipv4) : GoString := Http.dottedQuad x.a x.b x.c x.d

section Words

variable {skb : SkBuff}

theorem saddr_eq : skb.iphdr.saddr =
    le32 skb.srcAddr.a skb.srcAddr.b skb.srcAddr.c skb.srcAddr.d := by
  simp only [SkBuff.srcAddr, SkBuff.ipBytes]
  rw [SkBuff.getD_toList _ (i := 12) (by decide), SkBuff.getD_toList _ (i := 13) (by decide),
    SkBuff.getD_toList _ (i := 14) (by decide), SkBuff.getD_toList _ (i := 15) (by decide)]
  rfl

theorem daddr_eq : skb.iphdr.daddr =
    le32 skb.dstAddr.a skb.dstAddr.b skb.dstAddr.c skb.dstAddr.d := by
  simp only [SkBuff.dstAddr, SkBuff.ipBytes]
  rw [SkBuff.getD_toList _ (i := 16) (by decide), SkBuff.getD_toList _ (i := 17) (by decide),
    SkBuff.getD_toList _ (i := 18) (by decide), SkBuff.getD_toList _ (i := 19) (by decide)]
  rfl

theorem ipString_saddr : ipString (intToIP skb.iphdr.saddr) = skb.srcAddr.dottedQuad := by
  rw [saddr_eq]
  exact ipString_intToIP_le32 ..

theorem ipString_daddr : ipString (intToIP skb.iphdr.daddr) = skb.dstAddr.dottedQuad := by
  rw [daddr_eq]
  exact ipString_intToIP_le32 ..

theorem toNat_ntohs_source : (ntohs skb.tcpHeader.source).toNat = skb.srcPort := by
  rw [SkBuff.srcPort, SkBuff.tcpBytes, SkBuff.getD_toList _ (i := 0) (by decide),
    SkBuff.getD_toList _ (i := 1) (by decide)]
  exact toNat_swap16_le16 ..

theorem toNat_ntohs_dest : (ntohs skb.tcpHeader.dest).toNat = skb.dstPort := by
  rw [SkBuff.dstPort, SkBuff.tcpBytes, SkBuff.getD_toList _ (i := 2) (by decide),
    SkBuff.getD_toList _ (i := 3) (by decide)]
  exact toNat_swap16_le16 ..

end Words

/-- `MethodToString` gives the letters of the method back. -/
theorem methodToString_toUInt32 (m : HttpRequestMethod) : methodToString m.toUInt32 = m.name := by
  cases m <;> rfl

/-! ### From the record to the traffic metric -/

/-- The metric of the request `r` and the response `s`, to the endpoint of `provider`. -/
structure DecodedFrom (r s : Arrival) (provider : Provider) (t : Traffic) : Prop where
  srcIP : t.srcIP = r.skb.srcAddr.dottedQuad
  dstIP : t.dstIP = r.skb.dstAddr.dottedQuad
  srcPort : t.srcPort.toNat = r.skb.srcPort
  dstPort : t.dstPort.toNat = r.skb.dstPort
  method : ∃ m, isHttpRequest r.skb.payload12 = some m ∧ t.method = m.name ∧
    m.name <+: r.skb.payload12.toList
  code : t.code = s.skb.payload12.toList.drop 9
  podName : t.podName = provider.podName
  nodeName : t.nodeName = provider.nodeName
  nameSpace : t.nameSpace = provider.nameSpace
  serviceName : t.serviceName = provider.serviceName

variable {σ : Type} (endpoint2pod : Endpoint2Pod σ)

/-- What a record says about its request. -/
structure ReportsRequest (p : Packet) (r : Arrival) : Prop where
  srcIp : p.srcIp = r.skb.iphdr.saddr
  dstIp : p.dstIp = r.skb.iphdr.daddr
  srcPort : p.srcPort = r.skb.tcpHeader.source
  dstPort : p.dstPort = r.skb.tcpHeader.dest
  method : ∃ m, isHttpRequest r.skb.payload12 = some m ∧ p.method = m.toUInt32

theorem Reports.reportsRequest {p : Packet} {r s : Arrival} (h : Reports p r s) :
    ReportsRequest p r := by
  obtain ⟨m, hm, hmethod, -⟩ := h.method
  exact ⟨h.srcIp, h.dstIp, h.srcPort, h.dstPort, m, hm, hmethod⟩

theorem reportsRequest_fillResponse {r : Arrival} (hr : r.skb.HasPlainIpHeader)
    {method : HttpRequestMethod} (hm : isHttpRequest r.skb.payload12 = some method) (s : Arrival) :
    ReportsRequest (fillResponse (requestPacket r method) s) r where
  srcIp := rfl
  dstIp := rfl
  srcPort := congrArg Tcphdr.source (tcph_parse hr)
  dstPort := congrArg Tcphdr.dest (tcph_parse hr)
  method := ⟨method, hm, rfl⟩

/-- What the decoder makes of a record: nothing but the status code depends on the response. -/
theorem decodeMapItem_of_reportsRequest {p : Packet} {r : Arrival} (h : ReportsRequest p r) :
    (endpoint2pod.getPodByEndpoint r.skb.dstAddr.dottedQuad (Int32.ofNat r.skb.dstPort) = none →
      ∃ err, decodeMapItem endpoint2pod p.toHttpPacket = .error err) ∧
    ∀ provider, endpoint2pod.getPodByEndpoint r.skb.dstAddr.dottedQuad (Int32.ofNat r.skb.dstPort)
        = some provider →
      ∃ t, decodeMapItem endpoint2pod p.toHttpPacket = .ok t ∧
        ∀ s : Arrival, p.status.toList = s.skb.payload12.toList.drop 9 ↔
          DecodedFrom r s provider t := by
  have hdst : ipString (intToIP p.toHttpPacket.dstIp) = r.skb.dstAddr.dottedQuad := by
    rw [← ipString_daddr, ← h.dstIp]
    rfl
  have hport : (ntohs p.toHttpPacket.dstPort).toNat = r.skb.dstPort := by
    rw [← toNat_ntohs_dest, ← h.dstPort]
    rfl
  constructor
  · intro hnone
    simp only [decodeMapItem, hdst, hport, hnone]
    exact ⟨_, rfl⟩
  · intro provider hprov
    simp only [decodeMapItem, hdst, hport, hprov]
    refine ⟨_, rfl, fun s => ⟨fun hstatus => ?_, DecodedFrom.code⟩⟩
    obtain ⟨m, hm, hmethod⟩ := h.method
    exact {
      srcIP := by
        rw [← ipString_saddr, ← h.srcIp]
        rfl
      dstIP := rfl
      srcPort := by
        rw [← toNat_ntohs_source, ← h.srcPort]
        rfl
      dstPort := hport
      method := by
        refine ⟨m, hm, ?_, name_prefix_of_isHttpRequest hm⟩
        rw [← methodToString_toUInt32, ← hmethod]
        rfl
      code := hstatus
      podName := rfl
      nodeName := rfl
      nameSpace := rfl
      serviceName := rfl }

/-- What the decoder makes of a record that reports two frames. -/
theorem decodeMapItem_of_reports {p : Packet} {r s : Arrival} (h : Reports p r s)
    {provider : Provider}
    (hprov : endpoint2pod.getPodByEndpoint r.skb.dstAddr.dottedQuad (Int32.ofNat r.skb.dstPort)
      = some provider) :
    ∃ t, decodeMapItem endpoint2pod p.toHttpPacket = .ok t ∧ DecodedFrom r s provider t := by
  obtain ⟨t, ht, hiff⟩ :=
    (decodeMapItem_of_reportsRequest endpoint2pod h.reportsRequest).2 provider hprov
  exact ⟨t, ht, (hiff s).mp h.status⟩

/-! ### Where the status code is taken from -/

/-- Where the program loads the first bytes of the payload from.  It reads the data offset behind an
IP header of twenty bytes, and `0` for it when a TCP header there does not fit into the frame. -/
def SkBuff.loadOffset (skb : SkBuff) : ℕ :=
  skb.tcpOffset + 4 * if 54 ≤ skb.data.length then skb.plainDoff.toNat else 0

/-- The three bytes that the program takes for the status code are bytes 9 to 11 of the payload. -/
def SkBuff.StatusMatches (skb : SkBuff) : Prop :=
  ∀ i (hi : i < 12), 9 ≤ i → skb.data.getD (skb.loadOffset + i) 0 = skb.payload12[i]

theorem toNat_poffset_eq_loadOffset (skb : SkBuff) :
    (parse skb).poffset.toNat = skb.loadOffset := by
  have hplace : (ethHlen + UInt32.ofNat sizeofIphdr).toNat + sizeofTcphdr = 54 := rfl
  have hdoff : (parse skb).tcph.doff.toNat
      = if 54 ≤ skb.data.length then skb.plainDoff.toNat else 0 := by
    show (skb.tcphdr (ethHlen + UInt32.ofNat sizeofIphdr)).doff.toNat = _
    split_ifs with h
    · rw [← hplace] at h
      rw [tcphdr_eq h]
      rfl
    · rw [← hplace] at h
      rw [SkBuff.tcphdr, bpfSkbLoadBytes_of_lt (Nat.not_le.mp h)]
      rfl
  rw [toNat_poffset, hdoff, SkBuff.loadOffset]

/-- What begins like a response was loaded. -/
theorem preChar_of_isHttpResponse {skb : SkBuff} (h : isHttpResponse (parse skb).preChar = true)
    (i : ℕ) (hi : i < 12) :
    (parse skb).preChar[i] = skb.data.getD (skb.loadOffset + i) 0 := by
  have hpre : (parse skb).preChar = (bpfSkbLoadBytes skb (parse skb).poffset 12).2 := rfl
  by_cases hle : (parse skb).poffset.toNat + 12 ≤ skb.data.length
  · rw [← toNat_poffset_eq_loadOffset]
    simp only [hpre]
    exact getElem_bpfSkbLoadBytes hle i hi
  · rw [hpre, bpfSkbLoadBytes_of_lt (Nat.not_le.mp hle)] at h
    exact absurd h (by decide)

theorem drop_toList_eq_iff {n k : ℕ} (v w : Vector UInt8 n) :
    v.toList.drop k = w.toList.drop k ↔ ∀ i (hi : i < n), k ≤ i → v[i] = w[i] := by
  constructor
  · intro h i hi hki
    have hget : (v.toList.drop k)[i - k]? = (w.toList.drop k)[i - k]? := by rw [h]
    rw [List.getElem?_drop, List.getElem?_drop, Nat.add_sub_cancel' hki, Vector.getElem?_toList,
      Vector.getElem?_toList, Vector.getElem?_eq_getElem hi, Vector.getElem?_eq_getElem hi] at hget
    exact Option.some.inj hget
  · intro h
    apply List.ext_getElem
    · rw [List.length_drop, List.length_drop, Vector.length_toList, Vector.length_toList]
    · intro i hi _
      rw [List.length_drop, Vector.length_toList] at hi
      rw [List.getElem_drop, List.getElem_drop, Vector.getElem_toList, Vector.getElem_toList]
      exact h (k + i) (by omega) (Nat.le_add_right k i)

/-- The status code is that of the payload exactly when the bytes match. -/
theorem status_fillResponse_eq_iff (req : Packet) {s : Arrival}
    (hs : isHttpResponse (parse s.skb).preChar = true) :
    (fillResponse req s).status.toList = s.skb.payload12.toList.drop 9 ↔
      s.skb.StatusMatches := by
  rw [status_fillResponse, drop_toList_eq_iff]
  refine forall_congr' fun i => forall_congr' fun hi => imp_congr_right fun _ => ?_
  rw [preChar_of_isHttpResponse hs]

/-- Without options they do. -/
theorem statusMatches_of_plain {skb : SkBuff} (hplain : skb.HasPlainIpHeader)
    (hs : isHttpResponse (parse skb).preChar = true) : skb.StatusMatches := by
  intro i hi _
  rw [← preChar_of_isHttpResponse hs i hi]
  simp only [preChar_parse hplain]

/-! ### The agreement -/

/-- The endpoint of the server of a request. -/
def Arrival.server (r : Arrival) : Endpoint :=
  ⟨r.skb.dstAddr.dottedQuad, Int32.ofNat r.skb.dstPort⟩

/-- User space reads the bytes of the record, fails to decode it exactly when the index does not
know the server, and otherwise gets the metric of the two frames. -/
structure Agrees (r s : Arrival) (rawSample : List UInt8) : Prop where
  length_eq : rawSample.length = 296
  decodes : ∃ packet, HttpPacket.read rawSample = some packet ∧
    ((∃ err, decodeMapItem endpoint2pod packet = .error err) ↔
      r.server ∉ endpoint2pod.providers) ∧
    ∀ t, decodeMapItem endpoint2pod packet = .ok t →
      ∃ provider, endpoint2pod.providers.lookup r.server = some provider ∧
        DecodedFrom r s provider t

theorem agrees_fillResponse_iff {r s : Arrival} (hr : r.skb.HasPlainIpHeader)
    {method : HttpRequestMethod} (hm : isHttpRequest r.skb.payload12 = some method)
    (hs : isHttpResponse (parse s.skb).preChar = true) (pad : ℕ → UInt8) :
    Agrees endpoint2pod r s ((fillResponse (requestPacket r method) s).toBytes pad) ↔
      r.server ∉ endpoint2pod.providers ∨ s.skb.HasPlainIpHeader ∨ s.skb.StatusMatches := by
  set p := fillResponse (requestPacket r method) s with hp
  obtain ⟨hnone, hsome⟩ :=
    decodeMapItem_of_reportsRequest endpoint2pod (reportsRequest_fillResponse hr hm s)
  have hstatus : p.status.toList = s.skb.payload12.toList.drop 9 ↔ s.skb.StatusMatches :=
    status_fillResponse_eq_iff _ hs
  cases hlook : endpoint2pod.providers.lookup r.server with
  | none =>
    -- both sides say that the server is not known
    have hmem : r.server ∉ endpoint2pod.providers := Finmap.lookup_eq_none.mp hlook
    obtain ⟨err, herr⟩ := hnone hlook
    refine iff_of_true ⟨p.length_toBytes pad, p.toHttpPacket, HttpPacket.read_toBytes p pad,
      iff_of_true ⟨err, herr⟩ hmem, fun t ht => ?_⟩ (Or.inl hmem)
    rw [herr] at ht
    cases ht
  | some provider =>
    have hmem : r.server ∈ endpoint2pod.providers := Finmap.mem_iff.mpr ⟨provider, hlook⟩
    obtain ⟨t, ht, hiff⟩ := hsome provider hlook
    constructor
    · rintro ⟨-, packet, hread, -, hok⟩
      rw [HttpPacket.read_toBytes] at hread
      obtain ⟨provider', hlook', hfrom⟩ := hok t (Option.some.inj hread ▸ ht)
      rw [hlook] at hlook'
      rw [← Option.some.inj hlook'] at hfrom
      exact Or.inr (Or.inr (hstatus.mp ((hiff s).mpr hfrom)))
    · intro hcond
      have hmatch : s.skb.StatusMatches := by
        rcases hcond with hnot | hplain | hmatch
        · exact absurd hmem hnot
        · exact statusMatches_of_plain hplain hs
        · exact hmatch
      refine ⟨p.length_toBytes pad, p.toHttpPacket, HttpPacket.read_toBytes p pad, ?_, ?_⟩
      · refine iff_of_false ?_ (not_not.mpr hmem)
        rintro ⟨err, herr⟩
        rw [ht] at herr
        cases herr
      · intro t' ht'
        rw [ht] at ht'
        cases ht'
        exact ⟨provider, hlook, (hiff s).mp (hstatus.mpr hmatch)⟩

/-- **Kernel record and Go decoder agree** on a request and a response that make the program submit
a record, whatever is in `request_map`, in between the two frames and in the padding, exactly when
the index does not know the server, or the status code lies where the program loads it from. -/
theorem decodeMapItem_record_iff {filterIp : FilterIp} {requestMap : RequestMap} {c : ConnKey}
    {r s : Arrival} {mid : List Arrival} {p : Packet} (hr : r.skb.HasPlainIpHeader)
    (hreq : RequestOn filterIp c r)
    (hmid : ∀ x ∈ mid, ¬ SeesRequest filterIp c x ∧ ¬ SeesResponse filterIp c x)
    (hrsp : SeesResponse filterIp c s)
    (hrec : recordAt filterIp requestMap (r :: mid ++ [s]) (r :: mid).length = some p)
    (pad : ℕ → UInt8) :
    Agrees endpoint2pod r s (p.toBytes pad) ↔
      r.server ∉ endpoint2pod.providers ∨ s.skb.HasPlainIpHeader ∨ s.skb.StatusMatches := by
  rw [← seesRequest_iff_requestOn filterIp hr] at hreq
  obtain ⟨method, hm, hvalue⟩ := recordAt_request_response hreq hmid hrsp requestMap
  rw [preChar_parse hr] at hm
  rw [hrec] at hvalue
  -- there was room for the request and for the record
  split_ifs at hvalue with hroom
  rw [submit] at hvalue
  split_ifs at hvalue with hring
  rw [Option.some.inj hvalue]
  exact agrees_fillResponse_iff endpoint2pod hr hm hrsp.2.1 pad

/-- The index that holds `hostB` on port 80. -/
def indexB : Endpoint2Pod Unit where
  providers := (∅ : GoMap Endpoint Provider).insert ⟨hostB.dottedQuad, 80⟩
    { podName := ascii "web-0", nodeName := ascii "node1", nameSpace := ascii "default",
      serviceName := ascii "web" }

theorem dst_getArrival (client server : Ipv4) (port : UInt8 × UInt8) :
    (getArrival client server port).skb.dstAddr.dottedQuad = server.dottedQuad ∧
      (getArrival client server port).skb.dstPort = 80 := by
  constructor
  · rw [← ipString_daddr, daddr_getArrival]
    exact ipString_intToIP_le32 ..
  · rw [← toNat_ntohs_dest, getArrival, tcpHeader_tcpFrame]
    show (ntohs (le16 0 80)).toNat = 80
    decide

theorem server_getArrival_mem_indexB :
    (getArrival hostA hostB (200, 1)).server ∈ indexB.providers := by
  rw [Arrival.server, (dst_getArrival hostA hostB (200, 1)).1,
    (dst_getArrival hostA hostB (200, 1)).2, indexB, Finmap.mem_insert]
  exact Or.inl rfl

theorem quiet_nil : ∀ x ∈ ([] : List Arrival),
    ¬ SeesRequest filterB (sampleConn hostA hostB (200, 1)) x ∧
      ¬ SeesResponse filterB (sampleConn hostA hostB (200, 1)) x := by
  intro x hx
  cases hx

/-- A `GET` and what the program takes for its response make a record. -/
theorem exists_recordAt_pair {s : Arrival} (hring : s.ringRoom = true)
    (hs : SeesResponse filterB (sampleConn hostA hostB (200, 1)) s) : ∃ method,
    isHttpRequest (getArrival hostA hostB (200, 1)).skb.payload12 = some method ∧
    recordAt filterB ∅ ([getArrival hostA hostB (200, 1)] ++ [s]) 1
      = some (fillResponse (requestPacket (getArrival hostA hostB (200, 1)) method) s) := by
  have hreq := requestOn_getArrival hostA_not_mem_filterB hostB (200, 1)
  obtain ⟨method, hm, hrec⟩ := recordAt_request_response
    ((seesRequest_iff_requestOn filterB (plain_getArrival ..) _).mpr hreq) quiet_nil hs ∅
  have hroom : (∅ : RequestMap).HasRoom (sampleConn hostA hostB (200, 1)) := Or.inr (by decide)
  rw [if_pos hroom, submit, if_pos hring] at hrec
  rw [preChar_parse (plain_getArrival ..)] at hm
  exact ⟨method, hm, hrec⟩

theorem decodeMapItem_record_iff_of_pair :
    ∃ p packet t, recordAt filterB ∅
        ([getArrival hostA hostB (200, 1)] ++ [okArrival hostA hostB (200, 1)]) 1 = some p ∧
      HttpPacket.read (p.toBytes fun _ => 0) = some packet ∧
      decodeMapItem indexB packet = .ok t ∧ t.podName = ascii "web-0" ∧
      t.code = ascii "200" := by
  have hsees := (seesResponse_iff_responseOn filterB (plain_okArrival ..) _).mpr
    (responseOn_okArrival hostA_not_mem_filterB hostB (200, 1))
  obtain ⟨method, -, hrec⟩ := exists_recordAt_pair rfl hsees
  have hagrees := (decodeMapItem_record_iff indexB (plain_getArrival ..)
    (requestOn_getArrival hostA_not_mem_filterB hostB (200, 1)) quiet_nil hsees hrec
    fun _ => 0).mpr (Or.inr (Or.inl (plain_okArrival ..)))
  obtain ⟨packet, hread, herr, hok⟩ := hagrees.decodes
  -- the index knows the server, so the decoder does not fail
  cases hdec : decodeMapItem indexB packet with
  | error err => exact absurd server_getArrival_mem_indexB (herr.mp ⟨err, hdec⟩)
  | ok t =>
    obtain ⟨provider, hprov, hfrom⟩ := hok t hdec
    refine ⟨_, packet, t, hrec, hread, hdec, ?_, ?_⟩
    · rw [Arrival.server, (dst_getArrival hostA hostB (200, 1)).1,
        (dst_getArrival hostA hostB (200, 1)).2, indexB, show Int32.ofNat 80 = 80 from rfl,
        Finmap.lookup_insert] at hprov
      rw [hfrom.podName, ← Option.some.inj hprov]
    · rw [hfrom.code, okArrival, payload12_tcpFrame _ _ _ _ _ (by decide)]
      rfl

/-- An answer whose IP header carries one word of options, which look like the ports, and whose TCP
header carries a timestamp: the program takes the highest byte of the acknowledgement number for the
data offset, and finds `HTTP` in the timestamp that is echoed. -/
def optionsAnswer : Arrival where
  skb := { data :=
    [0, 0, 0, 0, 0, 0, 0, 0, 0, 0, 0, 0, 0x08, 0x00,
      0x46, 0, 0, 71, 0, 0, 0, 0, 64, 6, 0, 0, 10, 0, 0, 2, 10, 0, 0, 1, 0, 80, 200, 1,
      0, 80, 200, 1, 0, 0, 0, 0, 0x70, 0, 0, 0, 0x80, 0x18, 0, 0, 0, 0, 0, 0,
      1, 1, 8, 10, 0, 0, 0, 0] ++ ascii "HTTP" ++ ascii "HTTP/1.1 200 OK" }
  now := 1000
  ringRoom := true

theorem responseOn_optionsAnswer :
    ResponseOn filterB (sampleConn hostA hostB (200, 1)) optionsAnswer := by
  refine ⟨⟨by decide, ?_⟩, by decide, by decide⟩
  rw [Bool.or_eq_true, checkTargetIp, checkTargetIp,
    show optionsAnswer.skb.iphdr.daddr = hostA.word by decide,
    Bpf.HashMap.lookup_eq_none.mpr hostA_not_mem_filterB]
  exact Or.inr rfl

theorem seesResponse_optionsAnswer :
    SeesResponse filterB (sampleConn hostA hostB (200, 1)) optionsAnswer :=
  ⟨responseOn_optionsAnswer.1, by decide, by decide⟩

/-- The code that user space gets is `1.1`. -/
theorem not_agrees_options :
    (getArrival hostA hostB (200, 1)).skb.HasPlainIpHeader ∧
    RequestOn filterB (sampleConn hostA hostB (200, 1)) (getArrival hostA hostB (200, 1)) ∧
    ResponseOn filterB (sampleConn hostA hostB (200, 1)) optionsAnswer ∧
    optionsAnswer.skb.payload12.toList.drop 9 = ascii "200" ∧
    ∃ p, recordAt filterB ∅ ([getArrival hostA hostB (200, 1)] ++ [optionsAnswer]) 1 = some p ∧
      p.status.toList = ascii "1.1" ∧
      ¬ Agrees indexB (getArrival hostA hostB (200, 1)) optionsAnswer (p.toBytes fun _ => 0) := by
  obtain ⟨method, hm, hrec⟩ := exists_recordAt_pair rfl seesResponse_optionsAnswer
  refine ⟨plain_getArrival .., requestOn_getArrival hostA_not_mem_filterB hostB (200, 1),
    responseOn_optionsAnswer, by decide, _, hrec, ?_, fun hagrees => ?_⟩
  · rw [status_fillResponse]
    decide
  · rw [agrees_fillResponse_iff indexB (plain_getArrival ..) hm seesResponse_optionsAnswer.2.1]
      at hagrees
    rcases hagrees with hnot | hplain | hmatch
    · exact hnot server_getArrival_mem_indexB
    · exact absurd (show optionsAnswer.skb.iphdr.ihl = 5 from hplain) (by decide)
    · exact absurd (hmatch 11 (by decide) (by decide)) (by decide)

end Kubebpfbox.Http
