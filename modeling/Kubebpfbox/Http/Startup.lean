import Kubebpfbox.Http.Ebpf

/-!
# Start-up (`HttpEbpf.Start` and the informer, `main.go`)

`main` starts the informers before the plugins, so while `HttpEbpf.Start` runs, the informer is
already delivering `Endpoints` notifications from another goroutine.  `Start` copies the addresses
of the index into `filter_ip` (`WriteFilterIP`), returns when that fails, and then registers the two
handlers (`Registry`).

An `Agent` is the index, `filter_ip` and how far `Start` has come; an `Action` is one atomic step of
either party; `Runs` are the interleavings of their steps.
-/

namespace Kubebpfbox.Http

open Golang Kubebpfbox.Core Informer

variable {κ : Type} [DecidableEq κ]

/-- How far `Start` has come. -/
inductive Progress where
  | begun
  | written
  | registered
  /-- `WriteFilterIP` returned an error, and `Start` returned it -/
  | failed
  deriving DecidableEq, Repr

/-- The state the two parties share, and the progress of `Start`. -/
structure Agent (κ : Type) where
  world : World (FilterSet κ)
  start : Progress

/-- The agent before either party has done anything. -/
def Agent.initial : Agent κ := ⟨⟨{}, ∅⟩, .begun⟩

/-- An atomic step. -/
inductive Action where
  /-- a notification is handled -/
  | event (e : Event Endpoints)
  /-- `WriteFilterIP` ranges over `Providers` in some order -/
  | writeFilterIP (order : List Endpoint)
  /-- `Registry` -/
  | registry
  deriving DecidableEq

variable (filterKey : GoString → Except Panic κ) (nodeName : GoString)

/-- One step of one of the parties. -/
inductive Step : Agent κ → Action → Agent κ → Prop where
  | event {a : Agent κ} {e : Event Endpoints} {w : World (FilterSet κ)}
      (h : (Endpoint2Pod.handle nodeName e).Gives a.world ⟨⟩ w) :
      Step a (.event e) ⟨w, a.start⟩
  | writeFilterIP {a : Agent κ} {order : List Endpoint} {r : Option GoString} {m : FilterSet κ}
      (hstart : a.start = .begun) (horder : a.world.providers.IsRange order)
      (h : (writeFilterIP filterKey order).Gives a.world.outer r m) :
      Step a (.writeFilterIP order)
        ⟨{ a.world with outer := m }, if r.isNone then .written else .failed⟩
  | registry {a : Agent κ} (hstart : a.start = .written) :
      Step a .registry
        ⟨{ a.world with endpoint2Pod := registry filterKey a.world.endpoint2Pod }, .registered⟩

/-- The actions lead from the initial state to the agent. -/
inductive Runs : List Action → Agent κ → Prop where
  | nil : Runs [] Agent.initial
  | concat {acts : List Action} {a b : Agent κ} {act : Action} (h : Runs acts a)
      (hstep : Step filterKey nodeName a act b) : Runs (acts ++ [act]) b

end Kubebpfbox.Http
