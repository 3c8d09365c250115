import Kubebpfbox.K8s.Controller
import Kubebpfbox.Lib.GoMap

/-!
# The provider index (`internal/endpoint2pod/endpoint2pod.go`)

`Providers` maps the endpoints of this node to the pods behind them.  The three handlers keep it up
to date with the `Endpoints` objects of the cluster, and tell their own listeners about every
endpoint they add or delete.

The listeners work on a state `σ` of their own, which the index knows nothing about: `World σ` is
the index together with it.  The three handlers range over subsets, addresses and ports in the same
way (`rangeLocal`); what they do for one endpoint is `addEndpoint` and `deleteEndpoint`.
-/

namespace Kubebpfbox

open Golang Kubebpfbox.Core Informer K8s

/-- `endpoint2pod.Endpoint`. -/
structure Endpoint where
  ip : GoString
  port : Int32
  deriving DecidableEq, Repr

/-- `endpoint2pod.Provider`. -/
structure Provider where
  podName : GoString
  nodeName : GoString
  nameSpace : GoString
  serviceName : GoString
  deriving DecidableEq, Repr

/-- A listener; its result is the error it returns, if any. -/
abbrev EventHandler (σ : Type) := Endpoint → Provider → GoM σ (Option GoString)

/-- `endpoint2pod.Endpoint2Pod`. -/
structure Endpoint2Pod (σ : Type) where
  providers : GoMap Endpoint Provider := ∅
  addEventHandlers : List (EventHandler σ) := []
  deleteEventHandlers : List (EventHandler σ) := []

/-- The index and the state its listeners work on. -/
structure World (σ : Type) where
  endpoint2Pod : Endpoint2Pod σ
  outer : σ

namespace World

variable {σ : Type}

/-- `GetEndpoint2Pod().Providers`. -/
def providers (w : World σ) : GoMap Endpoint Provider := w.endpoint2Pod.providers

/-- The index with other providers. -/
def setProviders (w : World σ) (m : GoMap Endpoint Provider) : World σ :=
  { w with endpoint2Pod := { w.endpoint2Pod with providers := m } }

/-- A statement on the listeners' state. -/
def listeners {α : Type} (x : GoM σ α) : GoM (World σ) α :=
  GoM.zoom outer (fun s w => { w with outer := s }) x

end World

namespace Endpoint2Pod

variable {σ : Type}

/-- `GetPodByEndpoint`. -/
def getPodByEndpoint (i : Endpoint2Pod σ) (ip : GoString) (port : Int32) : Option Provider :=
  i.providers.lookup ⟨ip, port⟩

/-- The loops over subsets, addresses and ports, with the test of the node name. -/
def rangeLocal (endpoints : Endpoints) (nodeName : GoString)
    (body : EndpointAddress → EndpointPort → GoM (World σ) PUnit) : GoM (World σ) PUnit :=
  forM endpoints.subsets fun subsets =>
    forM subsets.addresses fun address =>
      forM subsets.ports fun port =>
        if address.nodeName = some nodeName then body address port else pure ⟨⟩

/-- The provider of a local address. -/
def providerOf (endpoints : Endpoints) (nodeName : GoString) (targetRef : ObjectReference) :
    Provider where
  podName := targetRef.name
  nodeName := nodeName
  nameSpace := targetRef.nameSpace
  serviceName := endpoints.name

/-- The body of the loops that add. -/
def addEndpoint (newEndpoints : Endpoints) (nodeName : GoString) (address : EndpointAddress)
    (port : EndpointPort) : GoM (World σ) PUnit := do
  let provider := providerOf newEndpoints nodeName (← GoM.deref address.targetRef)
  modify fun w => w.setProviders (w.providers.insert ⟨address.ip, port.port⟩ provider)
  let handlers := (← get).endpoint2Pod.addEventHandlers
  World.listeners (forM handlers fun handler => do
    -- the error is dropped
    discard (handler ⟨address.ip, port.port⟩ provider))

/-- The body of the loops that delete.  The provider is made for each listener anew, so that an
address without a `TargetRef` panics only when there is one. -/
def deleteEndpoint (oldEndpoints : Endpoints) (nodeName : GoString) (address : EndpointAddress)
    (port : EndpointPort) : GoM (World σ) PUnit := do
  modify fun w => w.setProviders (w.providers.erase ⟨address.ip, port.port⟩)
  let handlers := (← get).endpoint2Pod.deleteEventHandlers
  World.listeners (forM handlers fun handler => do
    let provider := providerOf oldEndpoints nodeName (← GoM.deref address.targetRef)
    discard (handler ⟨address.ip, port.port⟩ provider))

/-- `addEndpoints`. -/
def addEndpoints (newEndpoints : Endpoints) (nodeName : GoString) : GoM (World σ) PUnit :=
  rangeLocal newEndpoints nodeName (addEndpoint newEndpoints nodeName)

/-- `deleteEndpoints`. -/
def deleteEndpoints (oldEndpoints : Endpoints) (nodeName : GoString) : GoM (World σ) PUnit :=
  rangeLocal oldEndpoints nodeName (deleteEndpoint oldEndpoints nodeName)

/-- `updateEndpoints`. -/
def updateEndpoints (oldEndpoints newEndpoints : Endpoints) (nodeName : GoString) :
    GoM (World σ) PUnit := do
  rangeLocal oldEndpoints nodeName (deleteEndpoint oldEndpoints nodeName)
  rangeLocal newEndpoints nodeName (addEndpoint newEndpoints nodeName)

/-- `Registry`. -/
def registry (p : ServiceController (World σ)) : ServiceController (World σ) where
  addEventHandlers := p.addEventHandlers ++ [addEndpoints]
  deleteEventHandlers := p.deleteEventHandlers ++ [deleteEndpoints]
  updateEventHandlers := p.updateEventHandlers ++ [updateEndpoints]

/-- What an `Endpoints` notification does, once the index is registered at a new controller. -/
def handle (nodeName : GoString) (e : Event Endpoints) : GoM (World σ) PUnit :=
  (registry {}).handle nodeName e

end Endpoint2Pod

end Kubebpfbox
