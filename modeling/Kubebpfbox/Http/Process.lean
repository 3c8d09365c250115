import Kubebpfbox.Http.Gather
import Kubebpfbox.Http.Startup
import Kubebpfbox.Lib.Machine

/-!
# The HTTP plugin as a whole (`ebpf/http/http.c`, `plugins/http`)

Five parties take turns: the informer and the first part of `Start` (`Step` of an `Agent`), the
kernel program on every frame, the loop of `Start`, which reads the ring buffer, and the `select`
loop of `Gather`.

* The kernel program meets the contents that `filter_ip` has when the frame comes.
* The ring buffer holds raw samples, in order.  The kernel program does not look at what
  `bpf_ringbuf_output` returns: a record without room (`Arrival.ringRoom`) is lost.
* `h.ch` has no buffer: `Start` waits with its `Traffic` in hand (`sending`) until `Gather` takes
  it.

An `Action` names the step and what the step saw, so the history of a run is a function of its
actions.
-/

namespace Kubebpfbox.Http

open Golang Kubebpfbox.Core Informer

/-! ### Frames, each with its own `filter_ip` -/

/-- A frame and the contents of `filter_ip` when it comes. -/
abbrev Frame := FilterIp × Arrival

/-- `request_map` after the program ran on the frames of `tr`, one after another. -/
def requestMapAfter (m : RequestMap) (tr : List Frame) : RequestMap :=
  tr.foldl (fun m x => (socketFilterHttp x.1 x.2 m).requestMap) m

/-- The record submitted at frame `j` of `tr`, if any. -/
def submittedAt (m : RequestMap) (tr : List Frame) (j : ℕ) : Option Packet :=
  tr[j]?.bind fun x => (socketFilterHttp x.1 x.2 (requestMapAfter m (tr.take j))).submitted

/-- The positions of the frames at which a record is submitted, with the records, in order. -/
def submissions (m : RequestMap) (tr : List Frame) : List (ℕ × Packet) :=
  (List.range tr.length).filterMap fun j => (submittedAt m tr j).map (j, ·)

/-! ### The process -/

/-- One turn of the loop of `Start`: what it sends to `h.ch`.  A sample that is too short and a
record that cannot be decoded are logged. -/
def startTurn {σ : Type} (endpoint2pod : Endpoint2Pod σ) (rawSample : List UInt8) :
    Option Traffic :=
  match HttpPacket.read rawSample with
  | none => none
  | some packet =>
    match decodeMapItem endpoint2pod packet with
    | .error _ => none
    | .ok traffic => some traffic

/-- The state of the plugin. -/
structure Process where
  /-- the index, `filter_ip`, and how far `Start` has come -/
  agent : Agent UInt32 := Agent.initial
  requestMap : RequestMap := ∅
  /-- the ring buffer `packets` -/
  packets : List (List UInt8) := []
  /-- the value `Start` is sending to `h.ch` -/
  sending : Option Traffic := none
  gather : Gather := {}

namespace Process

/-- A step and what it saw. -/
inductive Action where
  /-- a notification, `WriteFilterIP` or `Registry` -/
  | agent (act : Http.Action)
  /-- the kernel program runs on a frame -/
  | frame (x : Frame)
  /-- `Start` reads a sample, and finds this index when it decodes it -/
  | read (endpoint2pod : Endpoint2Pod (FilterSet UInt32)) (rawSample : List UInt8)
  /-- `Gather` takes what `Start` is sending -/
  | receive (m : Traffic)
  /-- a tick of `calTicker` -/
  | tick

variable (parseIP : GoString → NetIP) (nodeName : GoString)

/-- One step of one of the parties. -/
inductive Step : Process → Action → Process → Prop where
  | agent {s : Process} {act : Http.Action} {a : Agent UInt32}
      (h : Http.Step (filterKeyOf parseIP) nodeName s.agent act a) :
      Step s (.agent act) { s with agent := a }
  | frame {s : Process} (a : Arrival) (pad : ℕ → UInt8) :
      Step s (.frame (s.agent.world.outer, a))
        { s with
          requestMap := (socketFilterHttp s.agent.world.outer a s.requestMap).requestMap
          packets := s.packets ++
            ((socketFilterHttp s.agent.world.outer a s.requestMap).submitted.map
              (Packet.toBytes · pad)).toList }
  | read {s : Process} {rawSample : List UInt8} {packets : List (List UInt8)}
      (hstart : s.agent.start = .registered) (hsending : s.sending = none)
      (hpackets : s.packets = rawSample :: packets) :
      Step s (.read s.agent.world.endpoint2Pod rawSample)
        { s with packets, sending := startTurn s.agent.world.endpoint2Pod rawSample }
  | receive {s : Process} {m : Traffic} (hsending : s.sending = some m) :
      Step s (.receive m) { s with sending := none, gather := s.gather.receive m }
  | tick {s : Process} {order : List GoString} (horder : s.gather.redMetric.IsRange order) :
      Step s .tick { s with gather := s.gather.tick order }

/-- The steps lead from one state to the other. -/
abbrev Runs : Process → List Action → Process → Prop :=
  Machines.Runs (Step parseIP nodeName)

/-! ### The history of a run -/

namespace Action

/-- The frame, if it is one. -/
def frame? : Action → Option Frame
  | agent _ => none
  | frame x => some x
  | read _ _ => none
  | receive _ => none
  | tick => none

/-- The index and the sample, if a sample is read. -/
def read? : Action → Option (Endpoint2Pod (FilterSet UInt32) × List UInt8)
  | agent _ => none
  | frame _ => none
  | read endpoint2pod rawSample => some (endpoint2pod, rawSample)
  | receive _ => none
  | tick => none

/-- The notification, if one is handled. -/
def notification? : Action → Option (Event Endpoints)
  | agent (.event e) => some e
  | agent (.writeFilterIP _) => none
  | agent .registry => none
  | frame _ => none
  | read _ _ => none
  | receive _ => none
  | tick => none

/-- What the `select` loop of `Gather` gets, if it gets something. -/
def timed? : Action → Option (Timed Traffic)
  | agent _ => none
  | frame _ => none
  | read _ _ => none
  | receive m => some (.value m)
  | tick => some .tick

end Action

/-- The frames that came, in order. -/
def frames (acts : List Action) : List Frame := acts.filterMap Action.frame?

/-- The samples that were read, in order, each with the index it was decoded with. -/
def reads (acts : List Action) : List (Endpoint2Pod (FilterSet UInt32) × List UInt8) :=
  acts.filterMap Action.read?

/-- The notifications that were handled, in order. -/
def notifications (acts : List Action) : List (Event Endpoints) :=
  acts.filterMap Action.notification?

/-- What the loop of `Gather` got, in order. -/
def timeds (acts : List Action) : List (Timed Traffic) := acts.filterMap Action.timed?

end Process

end Kubebpfbox.Http
