import Kubebpfbox.Http.SkBuff
import Kubebpfbox.Lib.GoString
import Kubebpfbox.Lib.HashMap

/-!
# The kernel program (`ebpf/http/http.c`)

`socketFilterHttp` is `socket__filter_http`: one run of the program on one frame, from the contents
of the maps `filter_ip` and `request_map` to the new contents of `request_map` and the record
submitted to the ring buffer, if any.  What a run takes from its surroundings besides the maps is
an `Arrival`: the frame, the clock, and whether the ring buffer has room for a record.

The result also names the `return` statement that ended the run (`Exit`), which is how the address
filter is told apart from the other ways to return `-1`.
-/

namespace Kubebpfbox.Http

open Golang

/-- `MAX_MAP_CONN`. -/
def maxMapConn : ℕ := 1024 * 16

/-- `MAX_MAP_FILTER_IP`. -/
def maxMapFilterIp : ℕ := 300

/-- `MAX_URL_LEN`. -/
def maxUrlLen : ℕ := 256

/-- `STATUS_LEN`. -/
def statusLen : ℕ := 3

/-- A four-tuple that uniquely identifies a connection. -/
structure ConnKey where
  srcIp : UInt32
  dstIp : UInt32
  srcPort : UInt16
  dstPort : UInt16
  deriving DecidableEq, Repr

/-- `enum packet_type_t`. -/
inductive PacketType where
  | http
  | rpc
  | mysql
  deriving DecidableEq, Repr

/-- The value of an enumerator. -/
def PacketType.toUInt32 : PacketType → UInt32
  | http => 1
  | rpc => 2
  | mysql => 3

/-- `enum http_request_method`. -/
inductive HttpRequestMethod where
  | get
  | post
  | put
  | delete
  | head
  | patch
  deriving DecidableEq, Repr

namespace HttpRequestMethod

/-- The value of an enumerator. -/
def toUInt32 : HttpRequestMethod → UInt32
  | get => 1
  | post => 2
  | put => 3
  | delete => 4
  | head => 5
  | patch => 6

/-- The letters of the method in a request line. -/
def name : HttpRequestMethod → GoString
  | get => ascii "GET"
  | post => ascii "POST"
  | put => ascii "PUT"
  | delete => ascii "DELETE"
  | head => ascii "HEAD"
  | patch => ascii "PATCH"

end HttpRequestMethod

/-- `struct packet`. -/
structure Packet where
  type : UInt32
  method : UInt32
  dstIp : UInt32
  dstPort : UInt16
  srcIp : UInt32
  srcPort : UInt16
  duration : UInt32
  reqPayloadSize : UInt32
  rspPayloadSize : UInt32
  status : Vector UInt8 statusLen
  url : Vector UInt8 maxUrlLen
  deriving DecidableEq

/-- `struct packet p = {}`. -/
def Packet.zero : Packet where
  type := 0
  method := 0
  dstIp := 0
  dstPort := 0
  srcIp := 0
  srcPort := 0
  duration := 0
  reqPayloadSize := 0
  rspPayloadSize := 0
  status := Vector.replicate statusLen 0
  url := Vector.replicate maxUrlLen 0

/-- The map `filter_ip`: the Pod IP addresses that need to be filtered. -/
abbrev FilterIp := Bpf.HashMap UInt32 UInt32 maxMapFilterIp

/-- The map `request_map`: HTTP request data for matching. -/
abbrev RequestMap := Bpf.HashMap ConnKey Packet maxMapConn

/-! ### Recognising message heads -/

/-- `__is_http_request`: the method a request starts with; `none` is the result `0`. -/
def isHttpRequest (p : Vector UInt8 12) : Option HttpRequestMethod :=
  if p[0] = 'G'.toUInt8 ∧ p[1] = 'E'.toUInt8 ∧ p[2] = 'T'.toUInt8 then
    some .get
  else if p[0] = 'P'.toUInt8 ∧ p[1] = 'O'.toUInt8 ∧ p[2] = 'S'.toUInt8 ∧ p[3] = 'T'.toUInt8 then
    some .post
  else if p[0] = 'P'.toUInt8 ∧ p[1] = 'U'.toUInt8 ∧ p[2] = 'T'.toUInt8 then
    some .put
  else if p[0] = 'D'.toUInt8 ∧ p[1] = 'E'.toUInt8 ∧ p[2] = 'L'.toUInt8 ∧ p[3] = 'E'.toUInt8 ∧
      p[4] = 'T'.toUInt8 ∧ p[5] = 'E'.toUInt8 then
    some .delete
  else if p[0] = 'H'.toUInt8 ∧ p[1] = 'E'.toUInt8 ∧ p[2] = 'A'.toUInt8 ∧ p[3] = 'D'.toUInt8 then
    some .head
  else if p[0] = 'P'.toUInt8 ∧ p[1] = 'A'.toUInt8 ∧ p[2] = 'T'.toUInt8 ∧ p[3] = 'C'.toUInt8 ∧
      p[4] = 'H'.toUInt8 then
    some .patch
  else
    none

/-- `__get_http_request_method_len`. -/
def getHttpRequestMethodLen : HttpRequestMethod → UInt32
  | .get => 3
  | .post => 4
  | .put => 3
  | .delete => 6
  | .head => 4
  | .patch => 5

/-- `__is_http_response`. -/
def isHttpResponse (p : Vector UInt8 12) : Bool :=
  p[0] = 'H'.toUInt8 ∧ p[1] = 'T'.toUInt8 ∧ p[2] = 'T'.toUInt8 ∧ p[3] = 'P'.toUInt8

/-! ### Loading the URL -/

/-- Store `buf` into `p` from index `off` on. -/
def overwrite {n k : ℕ} (p : Vector UInt8 n) (off : ℕ) (buf : Vector UInt8 k) : Vector UInt8 n :=
  Vector.ofFn fun x => if off ≤ x.val then buf[x.val - off]?.getD p[x.val] else p[x.val]

/-- The body of the inner loop of `__load_url_to_map` at the byte `x = i * 16 + j`, on the flag
`finished` and the buffer. -/
def scanUrlByte (st : Bool × Vector UInt8 maxUrlLen) (x : ℕ) : Bool × Vector UInt8 maxUrlLen :=
  let (finished, p) := st
  let c := p[x]?.getD 0
  if !finished && (c == ' '.toUInt8 || c == '?'.toUInt8) then (true, p.setIfInBounds x 0)
  else if finished then (finished, p.setIfInBounds x 0)
  else (finished, p)

/-- The body of the outer loop of `__load_url_to_map`, on `finished`, `poffset` and the buffer. -/
def loadUrlChunk (skb : SkBuff) (st : Bool × UInt32 × Vector UInt8 maxUrlLen) (i : ℕ) :
    Bool × UInt32 × Vector UInt8 maxUrlLen :=
  let (finished, poffset, p) := st
  if finished then
    -- the `break`: no later iteration does anything either
    (finished, poffset, p)
  else
    let (result, buf) := bpfSkbLoadBytes skb poffset 16
    let p := overwrite p (i * 16) buf
    if result = 0 then
      let (finished, p) := (List.range 16).foldl (fun st j => scanUrlByte st (i * 16 + j)) (false, p)
      (finished, poffset + 12, p)
    else
      (true, poffset, p)

/-- `__load_url_to_map`. -/
def loadUrlToMap (skb : SkBuff) (poffset : UInt32) (p : Vector UInt8 maxUrlLen) :
    Vector UInt8 maxUrlLen :=
  ((List.range 16).foldl (loadUrlChunk skb) (false, poffset, p)).2.2

/-! ### The program -/

/-- `__check_target_ip`: `1` when the address is not in `filter_ip`, `0` when it is. -/
def checkTargetIp (filterIp : FilterIp) (ip : UInt32) : Bool := (filterIp.lookup ip).isNone

/-- What one run of the program works on besides the maps: the frame, the value of
`bpf_ktime_get_ns`, and whether the ring buffer has room for one more record. -/
structure Arrival where
  skb : SkBuff
  now : UInt64
  ringRoom : Bool
  deriving DecidableEq

/-- The `return` statements of `socket__filter_http`, in source order. -/
inductive Exit where
  /-- not an IP packet -/
  | notIp
  /-- not a TCP packet -/
  | notTcp
  /-- dropped by the address filter -/
  | filtered
  /-- a response with no request in `request_map` -/
  | unmatched
  /-- neither a request nor a response -/
  | other
  /-- the end of the function, after a request or a matched response -/
  | done
  deriving DecidableEq, Repr

/-- What one run of the program leaves behind. -/
structure Verdict where
  exit : Exit
  requestMap : RequestMap
  submitted : Option Packet

/-- The value the program returns. -/
def Verdict.ret (v : Verdict) : ℤ := if v.exit = .done then 0 else -1

/-- The header lengths and the first bytes of the TCP payload, as the program finds them. -/
structure Parsed where
  iph : Iphdr
  tcph : Tcphdr
  ipHlen : UInt32
  tcpHlen : UInt32
  poffset : UInt32
  preChar : Vector UInt8 12

/-- The loads of `socket__filter_http` up to the first bytes of the payload. -/
def parse (skb : SkBuff) : Parsed :=
  let iph := skb.iphdr
  -- the TCP header is looked for behind an IP header without options
  let tcph := skb.tcphdr (ethHlen + UInt32.ofNat sizeofIphdr)
  let ipHlen := iph.ihl.toUInt32 <<< 2
  let tcpHlen := tcph.doff.toUInt32 <<< 2
  let poffset := ethHlen + ipHlen + tcpHlen
  { iph, tcph, ipHlen, tcpHlen, poffset, preChar := (bpfSkbLoadBytes skb poffset 12).2 }

/-- `bpf_ntohs(iph.tot_len) - ip_hlen - tcp_hlen`. -/
def Parsed.payloadSize (h : Parsed) : UInt32 :=
  (bpfNtohs h.iph.totLen).toUInt32 - h.ipHlen - h.tcpHlen

/-- The `struct packet` the program stores for a request. -/
def requestPacket (a : Arrival) (method : HttpRequestMethod) : Packet :=
  let h := parse a.skb
  { Packet.zero with
    srcIp := h.iph.saddr
    dstIp := h.iph.daddr
    srcPort := h.tcph.source
    dstPort := h.tcph.dest
    type := PacketType.http.toUInt32
    method := method.toUInt32
    duration := a.now.toUInt32
    reqPayloadSize := h.payloadSize
    url := loadUrlToMap a.skb (h.poffset + getHttpRequestMethodLen method + 1) Packet.zero.url }

/-- The stored request with the response data filled in. -/
def fillResponse (req : Packet) (a : Arrival) : Packet :=
  let h := parse a.skb
  { req with
    duration := (a.now - req.duration.toUInt64).toUInt32
    rspPayloadSize := h.payloadSize
    status := #v[h.preChar[9], h.preChar[10], h.preChar[11]] }

/-- The key of a request. -/
def Parsed.requestKey (h : Parsed) : ConnKey := ⟨h.iph.saddr, h.iph.daddr, h.tcph.source, h.tcph.dest⟩

/-- The key of the request a response answers. -/
def Parsed.responseKey (h : Parsed) : ConnKey := ⟨h.iph.daddr, h.iph.saddr, h.tcph.dest, h.tcph.source⟩

/-- The part of `socket__filter_http` behind the address filter. -/
def classify (a : Arrival) (requestMap : RequestMap) : Verdict :=
  let h := parse a.skb
  match isHttpRequest h.preChar with
  | some method =>
    -- the result of the update is ignored
    ⟨.done, requestMap.put h.requestKey (requestPacket a method), none⟩
  | none =>
    if isHttpResponse h.preChar then
      match requestMap.lookup h.responseKey with
      | none => ⟨.unmatched, requestMap, none⟩
      | some req =>
        let rsp := fillResponse req a
        -- `req` points into the map, so the entry changes before it is deleted
        let requestMap := requestMap.put h.responseKey rsp
        ⟨.done, requestMap.remove h.responseKey, if a.ringRoom then some rsp else none⟩
    else ⟨.other, requestMap, none⟩

/-- `socket__filter_http`. -/
def socketFilterHttp (filterIp : FilterIp) (a : Arrival) (requestMap : RequestMap) : Verdict :=
  if bpfNtohs a.skb.ethProto ≠ ethPIp then ⟨.notIp, requestMap, none⟩
  else if a.skb.ipProto ≠ ipprotoTcp then ⟨.notTcp, requestMap, none⟩
  else
    let h := parse a.skb
    if !checkTargetIp filterIp h.iph.saddr && !checkTargetIp filterIp h.iph.daddr then
      ⟨.filtered, requestMap, none⟩
    else classify a requestMap

/-! ### Runs -/

/-- `request_map` after the program ran on the frames of `tr`, one after another. -/
def runFrames (filterIp : FilterIp) (m : RequestMap) (tr : List Arrival) : RequestMap :=
  tr.foldl (fun m a => (socketFilterHttp filterIp a m).requestMap) m

/-- The record submitted at frame `j` of `tr`, if any. -/
def recordAt (filterIp : FilterIp) (m : RequestMap) (tr : List Arrival) (j : ℕ) : Option Packet :=
  tr[j]?.bind fun a => (socketFilterHttp filterIp a (runFrames filterIp m (tr.take j))).submitted

end Kubebpfbox.Http
