import Kubebpfbox.Http.SocketFilter
import Kubebpfbox.Lib.Layout

/-!
# The record on its way to user space

`Packet.toBytes` is `struct packet` as `bpf_ringbuf_output` copies it, with the padding the compiler
puts in (`ebpf/http/http.c`); `HttpPacket` is the struct bpf2go generated for it, with the padding
written out as blank fields, and `HttpPacket.read` is `binary.Read` into it
(`plugins/http/http_bpfel_x86.go`).

`HttpPacket.read_toBytes`: the two layouts agree.
-/

namespace Kubebpfbox.Http

open Bytes Layout

/-- `struct packet` in memory; `pad` holds the padding. -/
def Packet.toBytes (p : Packet) (pad : ℕ → UInt8) : List UInt8 :=
  structBytes pad 4 [
    .u32 p.type,
    .u32 p.method,
    .u32 p.dstIp,
    .u16 p.dstPort,
    .u32 p.srcIp,
    .u16 p.srcPort,
    .u32 p.duration,
    .u32 p.reqPayloadSize,
    .u32 p.rspPayloadSize,
    .u8s p.status,
    .u8s p.url]

/-- `httpPacket`. -/
structure HttpPacket where
  type : UInt32
  method : UInt32
  dstIp : UInt32
  dstPort : UInt16
  srcIp : UInt32
  srcPort : UInt16
  duration : UInt32
  reqPayloadSize : UInt32
  rspPayloadSize : UInt32
  status : Vector UInt8 3
  url : Vector UInt8 256
  deriving DecidableEq

/-- The fields of `httpPacket` in order; a blank field is skipped. -/
def HttpPacket.reader : Reader HttpPacket := do
  let type ← Reader.u32
  let method ← Reader.u32
  let dstIp ← Reader.u32
  let dstPort ← Reader.u16
  Reader.skip 2
  let srcIp ← Reader.u32
  let srcPort ← Reader.u16
  Reader.skip 2
  let duration ← Reader.u32
  let reqPayloadSize ← Reader.u32
  let rspPayloadSize ← Reader.u32
  let status ← Reader.u8s 3
  let url ← Reader.u8s 256
  Reader.skip 1
  return { type, method, dstIp, dstPort, srcIp, srcPort, duration, reqPayloadSize, rspPayloadSize,
           status, url }

/-- `binary.Read(bytes.NewBuffer(rawSample), binary.LittleEndian, &packet)`. -/
def HttpPacket.read (rawSample : List UInt8) : Option HttpPacket :=
  (HttpPacket.reader rawSample).map Prod.fst

/-- The record, field by field. -/
def Packet.toHttpPacket (p : Packet) : HttpPacket where
  type := p.type
  method := p.method
  dstIp := p.dstIp
  dstPort := p.dstPort
  srcIp := p.srcIp
  srcPort := p.srcPort
  duration := p.duration
  reqPayloadSize := p.reqPayloadSize
  rspPayloadSize := p.rspPayloadSize
  status := p.status
  url := p.url

/-- The layout of `struct packet`, with the padding made explicit. -/
theorem Packet.toBytes_eq (p : Packet) (pad : ℕ → UInt8) :
    p.toBytes pad =
      bytesLE 4 p.type.toNat ++ (bytesLE 4 p.method.toNat ++ (bytesLE 4 p.dstIp.toNat ++
      (bytesLE 2 p.dstPort.toNat ++ ([pad 14, pad 15] ++ (bytesLE 4 p.srcIp.toNat ++
      (bytesLE 2 p.srcPort.toNat ++ ([pad 22, pad 23] ++ (bytesLE 4 p.duration.toNat ++
      (bytesLE 4 p.reqPayloadSize.toNat ++ (bytesLE 4 p.rspPayloadSize.toNat ++
      (p.status.toList ++ (p.url.toList ++ ([pad 295] ++ []))))))))))))) := by
  have hstatus : p.status.toList.length = 3 := p.status.length_toList
  have hurl : p.url.toList.length = 256 := p.url.length_toList
  simp [Packet.toBytes, structBytes, padTo, Member.u8s, Member.u16, Member.u32, hstatus, hurl,
    List.range_succ]

theorem Packet.length_toBytes (p : Packet) (pad : ℕ → UInt8) : (p.toBytes pad).length = 296 := by
  have hstatus : p.status.toList.length = 3 := p.status.length_toList
  have hurl : p.url.toList.length = 256 := p.url.length_toList
  rw [Packet.toBytes_eq]
  simp only [List.length_append, length_bytesLE, List.length_cons, List.length_nil, hstatus, hurl]

/-- **The two layouts agree**, whatever the padding holds. -/
theorem HttpPacket.read_toBytes (p : Packet) (pad : ℕ → UInt8) :
    HttpPacket.read (p.toBytes pad) = some p.toHttpPacket := by
  have hreader : HttpPacket.reader (p.toBytes pad) = some (p.toHttpPacket, []) := by
    rw [Packet.toBytes_eq, HttpPacket.reader]
    have hgap : [pad 14, pad 15].length = 2 := rfl
    have hgap' : [pad 22, pad 23].length = 2 := rfl
    have hend : [pad 295].length = 1 := rfl
    rw [Reader.read_bind (Reader.read_u32 _ _), Reader.read_bind (Reader.read_u32 _ _),
      Reader.read_bind (Reader.read_u32 _ _), Reader.read_bind (Reader.read_u16 _ _),
      Reader.read_bind (Reader.read_skip hgap _), Reader.read_bind (Reader.read_u32 _ _),
      Reader.read_bind (Reader.read_u16 _ _), Reader.read_bind (Reader.read_skip hgap' _),
      Reader.read_bind (Reader.read_u32 _ _), Reader.read_bind (Reader.read_u32 _ _),
      Reader.read_bind (Reader.read_u32 _ _)]
    -- the lengths of the two arrays are the constants of the C file
    refine (Reader.read_bind (Reader.read_u8s (n := 3) p.status _)).trans ?_
    refine (Reader.read_bind (Reader.read_u8s (n := 256) p.url _)).trans ?_
    rw [Reader.read_bind (Reader.read_skip hend _)]
    rfl
  rw [HttpPacket.read, hreader]
  rfl

end Kubebpfbox.Http
