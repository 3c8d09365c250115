import Mathlib.Data.Nat.Notation

/-!
# The kernel programs (`ebpf/tcpsynbl/tcpsynbl.c`)

`doEntry` runs at the entry of `tcp_v4_syn_recv_sock` and `doEntryV6` at that of
`tcp_v6_syn_recv_sock`.  They have one body (`synRecvSock`): when the queue of a listening socket is
full, a record with the owner of the socket's file is submitted.

A read of kernel memory may fail, and is an `Option` here.
-/

namespace Kubebpfbox.Tcpsynbl

/-- `struct event`. -/
structure TcpsynblInfo where
  pid : UInt32
  maxAckBacklog : UInt32
  ackBacklog : UInt32
  deriving DecidableEq

/-- What a read through a `struct pid *` finds. -/
structure PidStruct where
  /-- `numbers[0].nr` -/
  nr : Option Int32

/-- `struct fown_struct`; the pid is a pointer that may be NULL. -/
structure FownStruct where
  pid : Option PidStruct

/-- What a read through a `struct file *` finds. -/
structure File where
  fOwner : Option FownStruct

/-- What a read through a `struct socket *` finds. -/
structure Socket where
  file : Option File

/-- What a read through a `struct sock *` finds. -/
structure Sock where
  skMaxAckBacklog : Option UInt32
  skAckBacklog : Option UInt32
  skSocket : Option Socket

/-- The body of both programs; `none` if nothing is submitted. -/
def synRecvSock (sk : Sock) : Option TcpsynblInfo := do
  let maxAckBacklog ← sk.skMaxAckBacklog
  let ackBacklog ← sk.skAckBacklog
  if maxAckBacklog ≠ 0 ∧ maxAckBacklog ≤ ackBacklog then
    let skSocket ← sk.skSocket
    let file ← skSocket.file
    let owner ← file.fOwner
    -- the pointer is read back from the copy on the stack
    let pidStruct ← owner.pid
    let pidNr ← pidStruct.nr
    return { pid := pidNr.toUInt32, maxAckBacklog, ackBacklog }
  else none

/-- `do_entry`. -/
def doEntry (sk : Sock) : Option TcpsynblInfo := synRecvSock sk

/-- `do_entry_v6`. -/
def doEntryV6 (sk : Sock) : Option TcpsynblInfo := synRecvSock sk

end Kubebpfbox.Tcpsynbl
