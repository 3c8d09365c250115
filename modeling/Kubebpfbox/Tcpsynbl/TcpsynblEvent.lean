import Kubebpfbox.Lib.Layout
import Kubebpfbox.Tcpsynbl.DoEntry

/-!
# The record on its way to user space

`TcpsynblInfo.toBytes` is `struct event` as `bpf_ringbuf_output` copies it; `TcpsynblEvent` is the
struct bpf2go generated for it, and `TcpsynblEvent.read` is `binary.Read` into it
(`plugins/tcpsynbl/tcpsynbl_bpfel_x86.go`).  The struct has no padding, and the two layouts agree
(`TcpsynblEvent.read_toBytes`).
-/

namespace Kubebpfbox.Tcpsynbl

open Bytes Layout

/-- `struct event` in memory. -/
def TcpsynblInfo.toBytes (p : TcpsynblInfo) (pad : ℕ → UInt8) : List UInt8 :=
  structBytes pad 4 [.u32 p.pid, .u32 p.maxAckBacklog, .u32 p.ackBacklog]

/-- `tcpsynblEvent`. -/
structure TcpsynblEvent where
  pid : UInt32
  maxAckBacklog : UInt32
  ackBacklog : UInt32
  deriving DecidableEq

/-- The fields of `tcpsynblEvent` in order. -/
def TcpsynblEvent.reader : Reader TcpsynblEvent := do
  let pid ← Reader.u32
  let maxAckBacklog ← Reader.u32
  let ackBacklog ← Reader.u32
  return { pid, maxAckBacklog, ackBacklog }

/-- `binary.Read(bytes.NewBuffer(rawSample), binary.LittleEndian, &event)`. -/
def TcpsynblEvent.read (rawSample : List UInt8) : Option TcpsynblEvent :=
  (TcpsynblEvent.reader rawSample).map Prod.fst

/-- The record, field by field. -/
def TcpsynblInfo.toTcpsynblEvent (p : TcpsynblInfo) : TcpsynblEvent where
  pid := p.pid
  maxAckBacklog := p.maxAckBacklog
  ackBacklog := p.ackBacklog

/-- The layout of `struct event`: there is no padding. -/
theorem TcpsynblInfo.toBytes_eq (p : TcpsynblInfo) (pad : ℕ → UInt8) :
    p.toBytes pad =
      bytesLE 4 p.pid.toNat ++ (bytesLE 4 p.maxAckBacklog.toNat ++
        (bytesLE 4 p.ackBacklog.toNat ++ [])) := by
  simp [TcpsynblInfo.toBytes, structBytes, padTo, Member.u32]

/-- **The two layouts agree.** -/
theorem TcpsynblEvent.read_toBytes (p : TcpsynblInfo) (pad : ℕ → UInt8) :
    TcpsynblEvent.read (p.toBytes pad) = some p.toTcpsynblEvent := by
  have hreader : TcpsynblEvent.reader (p.toBytes pad) = some (p.toTcpsynblEvent, []) := by
    rw [TcpsynblInfo.toBytes_eq, TcpsynblEvent.reader]
    rw [Reader.read_bind (Reader.read_u32 _ _), Reader.read_bind (Reader.read_u32 _ _)]
    exact Reader.read_bind (Reader.read_u32 _ _)
  rw [TcpsynblEvent.read, hreader]
  rfl

end Kubebpfbox.Tcpsynbl
