import Kubebpfbox.K8s.Core
import Kubebpfbox.Lib.GoM
import Kubebpfbox.Lib.Informer

/-!
# The controllers (`internal/k8s/service_controller.go`, `internal/k8s/pod_controller.go`)

`ServiceController` and `PodController` are one structure, the first for `Endpoints` and the second
for `Pod`: three lists of handlers, and the three functions `Run` hands to the informer, which pass
an object to every handler in turn.

An informer hands its listener an `interface{}` (`Obj`): the object itself, or, in a delete whose
watch event was missed, a `cache.DeletedFinalStateUnknown` around the last known version.  The
functions assert the object type, and an assertion that fails panics.
-/

namespace Kubebpfbox.K8s

open Golang Informer

/-- What an informer hands to its listener. -/
inductive Obj (α : Type) where
  | object (o : α)
  | deletedFinalStateUnknown (o : α)
  deriving DecidableEq, Repr

/-- `obj.(*T)`. -/
def Obj.assert {α σ : Type} : Obj α → GoM σ α
  | .object o => pure o
  | .deletedFinalStateUnknown _ => throw .interfaceConversion

/-- A controller, on the state `σ` its handlers work on. -/
structure Controller (α σ : Type) where
  addEventHandlers : List (α → GoString → GoM σ PUnit) := []
  deleteEventHandlers : List (α → GoString → GoM σ PUnit) := []
  updateEventHandlers : List (α → α → GoString → GoM σ PUnit) := []

/-- The controller of `service_controller.go`. -/
abbrev ServiceController (σ : Type) := Controller Core.Endpoints σ

/-- The controller of `pod_controller.go`. -/
abbrev PodController (σ : Type) := Controller Core.Pod σ

namespace Controller

variable {α σ : Type} (p : Controller α σ) (nodeName : GoString)

/-- `AddFunc`. -/
def addFunc (obj : Obj α) : GoM σ PUnit := do
  let newObj ← obj.assert
  forM p.addEventHandlers fun handler => handler newObj nodeName

/-- `DeleteFunc`. -/
def deleteFunc (obj : Obj α) : GoM σ PUnit := do
  let oldObj ← obj.assert
  forM p.deleteEventHandlers fun handler => handler oldObj nodeName

/-- `UpdateFunc`. -/
def updateFunc (oldObj newObj : Obj α) : GoM σ PUnit := do
  let oldObj ← oldObj.assert
  let newObj ← newObj.assert
  forM p.updateEventHandlers fun handler => handler oldObj newObj nodeName

/-- The controller's answer to a notification that carries the object itself. -/
def handle : Event α → GoM σ PUnit
  | .add newObj => p.addFunc nodeName (.object newObj)
  | .update oldObj newObj => p.updateFunc nodeName (.object oldObj) (.object newObj)
  | .delete oldObj => p.deleteFunc nodeName (.object oldObj)

end Controller

end Kubebpfbox.K8s
