import Kubebpfbox.Endpoint2Pod.Basic
import Kubebpfbox.Http.HttpPacket
import Kubebpfbox.Http.Metrics

/-!
# The loader of the HTTP plugin (`plugins/http/ebpf.go`)

Two things cross between user space and the kernel program: the addresses to track go down into the
map `filter_ip`, and the records come up from the ring buffer.

* `AddFilterIP`, `DeleteFilterIP` and `WriteFilterIP` write `filter_ip`.  They find the key of an
  address with `filterKeyOf parseIP`, where `parseIP` is `net.ParseIP`; the definitions take it as the
  parameter `filterKey`, so that they can also be studied with another one.
* `decodeMapItem` is `DecodeMapItem`, from a record to a `Traffic`.  Durations are exact rationals.
-/

namespace Kubebpfbox.Http

open Bytes Golang

/-! ### Addresses and ports -/

/-- `net.IP`: 4 or 16 bytes, or none at all. -/
abbrev NetIP := List UInt8

/-- `ipv4ToUint32`. -/
def ipv4ToUint32 : NetIP → Except Panic UInt32
  | ip0 :: ip1 :: ip2 :: ip3 :: _ =>
    .ok (ip0.toUInt32 <<< 24 ||| ip1.toUInt32 <<< 16 ||| ip2.toUInt32 <<< 8 ||| ip3.toUInt32)
  | _ => .error .indexOutOfRange

/-- The key of an address in `filter_ip`, `ipv4ToUint32(net.ParseIP(s))`. -/
def filterKeyOf (parseIP : GoString → NetIP) (s : GoString) : Except Panic UInt32 :=
  ipv4ToUint32 (parseIP s)

/-- `intToIP`: `make(net.IP, 4)`, filled least significant byte first. -/
def intToIP (ipNum : UInt32) : Vector UInt8 4 :=
  ⟨(bytesLE 4 ipNum.toNat).toArray, length_bytesLE 4 _⟩

/-- The dotted decimal notation of an IPv4 address. -/
def dottedQuad (a b c d : UInt8) : GoString :=
  itoa a.toNat ++ ascii "." ++ itoa b.toNat ++ ascii "." ++ itoa c.toNat ++ ascii "." ++
    itoa d.toNat

/-- `net.IP.String`, for an address of 4 bytes. -/
def ipString (ip : Vector UInt8 4) : GoString := dottedQuad ip[0] ip[1] ip[2] ip[3]

/-- `Ntohs`: the value is stored most significant byte first, and what is there is loaded. -/
def ntohs (i : UInt16) : UInt16 := UInt16.ofNat (natLE (bytesBE 2 i.toNat))

/-- `MethodToString`. -/
def methodToString (method : UInt32) : GoString :=
  if method = 1 then ascii "GET"
  else if method = 2 then ascii "POST"
  else if method = 3 then ascii "PUT"
  else if method = 4 then ascii "DELETE"
  else if method = 5 then ascii "HEAD"
  else if method = 6 then ascii "PATCH"
  else []

/-! ### Writing `filter_ip` -/

/-- `filter_ip`, with keys of any type; with keys of type `UInt32` it is `FilterIp`. -/
abbrev FilterSet (κ : Type) := Bpf.HashMap κ UInt32 maxMapFilterIp

section Filter

variable {κ : Type} [DecidableEq κ] (filterKey : GoString → Except Panic κ)

/-- `AddFilterIP`. -/
def addFilterIP : EventHandler (FilterSet κ) := fun endpoint _ => do
  let key ← GoM.eval (filterKey endpoint.ip)
  match (← get).update key 1 with
  | none => return some (ascii "add filter ip map failed")
  | some m =>
    set m
    return none

/-- `DeleteFilterIP`. -/
def deleteFilterIP : EventHandler (FilterSet κ) := fun endpoint _ => do
  let key ← GoM.eval (filterKey endpoint.ip)
  match (← get).delete key with
  | none => return some (ascii "delete filter ip map failed")
  | some m =>
    set m
    return none

/-- `WriteFilterIP`, for the order in which the loop ranges over `Providers`.  It stops at the first
address that cannot be written. -/
def writeFilterIP : List Endpoint → GoM (FilterSet κ) (Option GoString)
  | [] => return none
  | provider :: order => do
    let key ← GoM.eval (filterKey provider.ip)
    match (← get).update key 1 with
    | none => return some (ascii "write filter ip map failed")
    | some m =>
      set m
      writeFilterIP order

/-- `HttpEbpf.Registry`. -/
def registry (i : Endpoint2Pod (FilterSet κ)) : Endpoint2Pod (FilterSet κ) :=
  { i with
    addEventHandlers := i.addEventHandlers ++ [addFilterIP filterKey]
    deleteEventHandlers := i.deleteEventHandlers ++ [deleteFilterIP filterKey] }

end Filter

/-! ### Reading records -/

/-- `DecodeMapItem`; the error is its text. -/
def decodeMapItem {σ : Type} (endpoint2pod : Endpoint2Pod σ) (packet : HttpPacket) :
    Except GoString Traffic :=
  let dstIP := ipString (intToIP packet.dstIp)
  let dstPort := ntohs packet.dstPort
  match endpoint2pod.getPodByEndpoint dstIP (Int32.ofNat dstPort.toNat) with
  | some provider =>
    .ok {
      type := packet.type
      flow := 1
      dstIP := dstIP
      dstPort := dstPort
      srcIP := ipString (intToIP packet.srcIp)
      srcPort := ntohs packet.srcPort
      duration := packet.duration.toNat / (1000 * 1000)
      method := methodToString packet.method
      url := trimRight 0 packet.url.toList
      code := packet.status.toList
      podName := provider.podName
      nodeName := provider.nodeName
      nameSpace := provider.nameSpace
      serviceName := provider.serviceName }
  | none =>
    .error (ascii "can't find pod by Endpoint: [" ++ dstIP ++ ascii ":" ++ itoa dstPort.toNat ++
      ascii "]")

end Kubebpfbox.Http
