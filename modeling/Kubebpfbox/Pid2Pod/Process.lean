import Kubebpfbox.Lib.Machine
import Kubebpfbox.Pid2Pod.Basic

/-!
# The plugins that find the pod by the pid (`plugins/oomkill`, `plugins/tcpsynbl`)

The two plugins are one program, but for the records: a kernel program at a hook submits records to
the ring buffer `events`, the loop of `Start` makes an event of each record and sends it to a
channel without a buffer, and the loop of `Gather` takes it from there.  A `Probe` is what sets them
apart.

The pod controller hands its notifications to `Pid2Pod` from another goroutine, and the files of
`/proc` change at any time: the loop of `Start` meets the index and the files as they are at the
moment (`Action.read`).  A turn that panics is no step: it ends the agent.  The kernel programs do
not look at what `bpf_ringbuf_output` returns: a record without room is lost.
-/

namespace Kubebpfbox.Pid2Pod

open Golang Kubebpfbox.Core Informer

/-- The files of a process under `/proc`, each an error of `os.Open` or its contents. -/
structure Proc where
  cgroup : UInt32 → Except GoString GoString
  comm : UInt32 → Except GoString GoString

instance : Inhabited Proc := ⟨⟨fun _ => .error [], fun _ => .error []⟩⟩

/-- A plugin: contexts `C` of its hook, records `R` and events `E`. -/
structure Probe (C R E : Type) where
  /-- what the kernel program puts into the ring buffer, if anything -/
  record : C → Option R
  /-- the record in memory, with the bytes of its padding -/
  toBytes : R → (ℕ → UInt8) → List UInt8
  /-- one turn of the loop of `Start`; the state is what goes to the channel -/
  startTurn : Proc → Pid2Pod → List UInt8 → GoM (List E) PUnit

/-- The state of a plugin. -/
structure Pipe (E : Type) where
  /-- the ring buffer `events` -/
  events : List (List UInt8) := []
  /-- what `Start` is sending -/
  sending : List E := []
  /-- what `Gather` has taken -/
  gathered : List E := []

/-- A plugin and the index it reads. -/
structure Process (E : Type) extends Pipe E where
  pid2pod : Pid2Pod := {}

namespace Process

variable {C R E : Type}

/-- A step and what it saw. -/
inductive Action (C E : Type) where
  | notification (e : Event Pod)
  /-- the kernel program runs -/
  | hook (c : C)
  /-- `Start` reads a sample, finds these files and this index, and goes on to send `es` -/
  | read (proc : Proc) (pid2pod : Pid2Pod) (rawSample : List UInt8) (es : List E)
  /-- `Gather` takes an event -/
  | receive (e : E)

variable (probe : Probe C R E) (nodeName : GoString)

/-- One step of one of the parties. -/
inductive Step : Process E → Action C E → Process E → Prop where
  | notification {s : Process E} {e : Event Pod} {p : Pid2Pod}
      (h : (handle nodeName e).Gives s.pid2pod ⟨⟩ p) :
      Step s (.notification e) { s with pid2pod := p }
  | hook {s : Process E} (c : C) (pad : ℕ → UInt8) :
      Step s (.hook c)
        { s with events := s.events ++ ((probe.record c).map (probe.toBytes · pad)).toList }
  | read {s : Process E} {rawSample : List UInt8} {events : List (List UInt8)} {es : List E}
      (proc : Proc) (hsending : s.sending = []) (hevents : s.events = rawSample :: events)
      (h : (probe.startTurn proc s.pid2pod rawSample).Gives [] ⟨⟩ es) :
      Step s (.read proc s.pid2pod rawSample es) { s with events, sending := es }
  | receive {s : Process E} {e : E} {es : List E} (hsending : s.sending = e :: es) :
      Step s (.receive e) { s with sending := es, gathered := s.gathered ++ [e] }

/-- The steps lead from one state to the other. -/
abbrev Runs : Process E → List (Action C E) → Process E → Prop :=
  Machines.Runs (Step probe nodeName)

/-! ### The history of a run -/

namespace Action

/-- The notification, if one is handled. -/
def notification? : Action C E → Option (Event Pod)
  | notification e => some e
  | hook _ => none
  | read _ _ _ _ => none
  | receive _ => none

/-- The context of the hook, if it is hit. -/
def hook? : Action C E → Option C
  | notification _ => none
  | hook c => some c
  | read _ _ _ _ => none
  | receive _ => none

/-- The sample, if one is read. -/
def read? : Action C E → Option (List UInt8)
  | notification _ => none
  | hook _ => none
  | read _ _ rawSample _ => some rawSample
  | receive _ => none

/-- The event, if `Gather` takes one. -/
def receive? : Action C E → Option E
  | notification _ => none
  | hook _ => none
  | read _ _ _ _ => none
  | receive e => some e

end Action

/-- The notifications that were handled, in order. -/
def notifications (acts : List (Action C E)) : List (Event Pod) :=
  acts.filterMap Action.notification?

/-- The records that were submitted, in order. -/
def records (probe : Probe C R E) (acts : List (Action C E)) : List R :=
  (acts.filterMap Action.hook?).filterMap probe.record

/-- The contexts in which a record was submitted, in order. -/
def submitting (probe : Probe C R E) (acts : List (Action C E)) : List C :=
  (acts.filterMap Action.hook?).filter fun c => (probe.record c).isSome

/-- The samples that were read, in order. -/
def reads (acts : List (Action C E)) : List (List UInt8) := acts.filterMap Action.read?

end Process

end Kubebpfbox.Pid2Pod
