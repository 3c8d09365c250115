import Kubebpfbox.Lib.GoString
import Mathlib.Data.Vector.Basic

/-!
# The kernel program (`ebpf/oomkill/oomkill.c`)

`kprobeOomKillProcess` runs at the entry of `oom_kill_process` and submits one record about the
process that is killed and the one that triggered it.

A read of kernel memory may fail, and is an `Option` here.  The two texts that go through a helper
are cut to leave room for a NUL (`bpfGetCurrentComm`, `bpfProbeReadKernelStr`); the name of the
process that is killed is copied as it is.
-/

namespace Kubebpfbox.Oomkill

open Golang

/-- `TASK_COMM_LEN`. -/
abbrev taskCommLen : ℕ := 16

/-- `struct event`. -/
structure OomkillInfo where
  fpid : UInt32
  tpid : UInt32
  pages : UInt64
  fcomm : Vector UInt8 taskCommLen
  tcomm : Vector UInt8 taskCommLen
  message : Vector UInt8 128
  deriving DecidableEq

/-- A text in a zeroed buffer of `n` bytes: at most `n - 1` bytes in front of its NUL. -/
def nulTerminated (n : ℕ) (s : GoString) : Vector UInt8 n :=
  let kept := (s.takeWhile (· ≠ 0)).take (n - 1)
  ⟨(kept ++ List.replicate (n - kept.length) 0).toArray, by
    have hkept : kept.length ≤ n - 1 := List.length_take_le _ _
    rw [List.size_toArray, List.length_append, List.length_replicate]
    omega⟩

/-- `bpf_get_current_comm`, for the name of the current task. -/
def bpfGetCurrentComm (comm : Vector UInt8 taskCommLen) : Vector UInt8 taskCommLen :=
  nulTerminated taskCommLen comm.toList

/-- `bpf_probe_read_kernel_str` into a zeroed buffer, for the bytes at the address. -/
def bpfProbeReadKernelStr (n : ℕ) (s : GoString) : Vector UInt8 n := nulTerminated n s

/-- What a read through a `struct task_struct *` finds. -/
structure TaskStruct where
  tgid : Option UInt32
  comm : Option (Vector UInt8 taskCommLen)

/-- What a read through a `struct oom_control *` finds. -/
structure OomControl where
  chosen : Option TaskStruct
  totalpages : Option UInt64

/-- `kprobe__oom_kill_process`, in the context of the current task; `none` if nothing is
submitted. -/
def kprobeOomKillProcess (currentPidTgid : UInt64) (currentComm : Vector UInt8 taskCommLen)
    (oc : OomControl) (message : Option GoString) : Option OomkillInfo := do
  let p ← oc.chosen
  let fpid := (currentPidTgid >>> 32).toUInt32
  let fcomm := bpfGetCurrentComm currentComm
  let tpid ← p.tgid
  let tcomm ← p.comm
  let pages ← oc.totalpages
  let message ← message.map (bpfProbeReadKernelStr 128)
  return { fpid, tpid, pages, fcomm, tcomm, message }

end Kubebpfbox.Oomkill
