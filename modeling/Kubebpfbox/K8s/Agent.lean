import Kubebpfbox.Endpoint2Pod.Basic
import Kubebpfbox.Pid2Pod.Basic

/-!
# The indexes of the agent (`main.go`, `setupK8s`)

`setupK8s` registers the provider index at the service controller and the pod index at the pod
controller, and runs both.  The two informers call them in some order (`Delivery`), and a panic in
either ends the whole process, so that `deliver` works on the state of both (`Indexes`).

An informer adds and updates with the objects themselves.  A delete carries what the informer has
(`Obj`).
-/

namespace Kubebpfbox.K8s

open Golang Informer Kubebpfbox.Core

/-- The last known version of an object. -/
def Obj.last {α : Type} : Obj α → α
  | .object o => o
  | .deletedFinalStateUnknown o => o

/-- The informer has seen the delete. -/
def Obj.IsObject {α : Type} : Obj α → Prop
  | .object _ => True
  | .deletedFinalStateUnknown _ => False

instance {α : Type} (obj : Obj α) : Decidable obj.IsObject :=
  match obj with
  | .object _ => inferInstanceAs (Decidable True)
  | .deletedFinalStateUnknown _ => inferInstanceAs (Decidable False)

/-- What a shared informer tells its listener. -/
inductive Notification (α : Type) where
  | add (newObj : α)
  | update (oldObj newObj : α)
  | delete (obj : Obj α)
  deriving DecidableEq, Repr

/-- What happened to the store of the informer. -/
def Notification.event {α : Type} : Notification α → Event α
  | .add newObj => .add newObj
  | .update oldObj newObj => .update oldObj newObj
  | .delete obj => .delete obj.last

/-- The call of the function for the notification. -/
def Controller.notify {α σ : Type} (p : Controller α σ) (nodeName : GoString) :
    Notification α → GoM σ PUnit
  | .add newObj => p.addFunc nodeName (.object newObj)
  | .update oldObj newObj => p.updateFunc nodeName (.object oldObj) (.object newObj)
  | .delete obj => p.deleteFunc nodeName obj

/-- The two indexes, with the state of the listeners. -/
structure Indexes (σ : Type) where
  pid2pod : Pid2Pod := {}
  world : World σ

/-- The service controller of `main`, where the provider index is the only one to append
handlers. -/
def serviceController {σ : Type} : ServiceController (World σ) := Endpoint2Pod.registry {}

/-- A call of one of the two informers. -/
inductive Delivery where
  | pod (n : Notification Pod)
  | service (n : Notification Endpoints)
  deriving DecidableEq, Repr

/-- What the agent does with it. -/
def deliver {σ : Type} (nodeName : GoString) : Delivery → GoM (Indexes σ) PUnit
  | .pod n =>
    GoM.zoom Indexes.pid2pod (fun p a => { a with pid2pod := p })
      (Pid2Pod.podController.notify nodeName n)
  | .service n =>
    GoM.zoom Indexes.world (fun w a => { a with world := w }) (serviceController.notify nodeName n)

end Kubebpfbox.K8s
