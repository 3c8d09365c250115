import Kubebpfbox.Lib.GoString

/-!
# API objects (`k8s.io/api/core/v1`)

The fields of `Endpoints` and of `Pod` that the program reads.  A Go pointer field is an `Option`,
`none` for nil.  The namespace and the name of an object are also the key an informer stores it
under (`Endpoints.key`, `Pod.key`).
-/

namespace Kubebpfbox.Core

open Golang

/-- `core.ObjectReference`. -/
structure ObjectReference where
  nameSpace : GoString
  name : GoString
  deriving DecidableEq, Repr

/-- `core.EndpointAddress`. -/
structure EndpointAddress where
  ip : GoString
  nodeName : Option GoString
  targetRef : Option ObjectReference
  deriving DecidableEq, Repr

/-- `core.EndpointPort`. -/
structure EndpointPort where
  port : Int32
  deriving DecidableEq, Repr

/-- `core.EndpointSubset`. -/
structure EndpointSubset where
  addresses : List EndpointAddress
  ports : List EndpointPort
  deriving DecidableEq, Repr

/-- `core.Endpoints`. -/
structure Endpoints where
  nameSpace : GoString
  name : GoString
  subsets : List EndpointSubset
  deriving DecidableEq, Repr

/-- The key of the object in an informer's store. -/
def Endpoints.key (o : Endpoints) : GoString × GoString := (o.nameSpace, o.name)

/-- `core.ContainerStatus`. -/
structure ContainerStatus where
  name : GoString
  containerID : GoString
  deriving DecidableEq, Repr

/-- `core.Pod`: its metadata, `Spec.NodeName` and `Status.ContainerStatuses`. -/
structure Pod where
  nameSpace : GoString
  name : GoString
  uid : GoString
  labels : List (GoString × GoString)
  nodeName : GoString
  containerStatuses : List ContainerStatus
  deriving DecidableEq, Repr

/-- The key of the object in an informer's store. -/
def Pod.key (o : Pod) : GoString × GoString := (o.nameSpace, o.name)

end Kubebpfbox.Core
