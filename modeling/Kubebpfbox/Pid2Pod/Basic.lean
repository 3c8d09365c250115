import Kubebpfbox.K8s.Controller
import Kubebpfbox.Lib.GoMap
import Kubebpfbox.Lib.Text

/-!
# The index from pids to pods (`internal/pid2pod/pid2pod.go`)

`Pid2Pod` holds the pods of this node under their UIDs.  `addPod`, `deletePod` and `updatePod` are
the handlers `Registry` appends to the pod controller, and `getPodInfoByPid` is the reader.

The file system is a parameter: `cgroup pid` is what reading `/proc/<pid>/cgroup` gives, an error of
`os.Open` or the contents of the file.
-/

namespace Kubebpfbox

open Golang Kubebpfbox.Core K8s

/-- `PodInfo`. -/
structure PodInfo where
  nameSpace : GoString
  nodeName : GoString
  podName : GoString
  podUID : GoString
  podLabel : List (GoString × GoString)
  containerID : GoString
  containerName : GoString
  deriving DecidableEq, Repr

/-- `Pid2Pod`; the controller is a state of its own. -/
structure Pid2Pod where
  pods : GoMap GoString Pod := ∅

namespace Pid2Pod

/-! ### The handlers -/

/-- `addPod`. -/
def addPod (newPod : Pod) (nodename : GoString) : GoM Pid2Pod PUnit :=
  if newPod.nodeName ≠ nodename then pure ⟨⟩
  else modify fun p => { pods := p.pods.insert newPod.uid newPod }

/-- `deletePod`. -/
def deletePod (oldPod : Pod) (nodename : GoString) : GoM Pid2Pod PUnit :=
  if oldPod.nodeName ≠ nodename then pure ⟨⟩
  else modify fun p => { pods := p.pods.erase oldPod.uid }

/-- `updatePod`; the old version is not looked at. -/
def updatePod (_oldPod newPod : Pod) (nodename : GoString) : GoM Pid2Pod PUnit :=
  if newPod.nodeName ≠ nodename then pure ⟨⟩
  else modify fun p => { pods := p.pods.insert newPod.uid newPod }

/-- `Registry`. -/
def registry (c : PodController Pid2Pod) : PodController Pid2Pod where
  addEventHandlers := c.addEventHandlers ++ [addPod]
  deleteEventHandlers := c.deleteEventHandlers ++ [deletePod]
  updateEventHandlers := c.updateEventHandlers ++ [updatePod]

/-- The pod controller of `main`, where `Registry` is the only one to append handlers. -/
def podController : PodController Pid2Pod := registry {}

/-- The program's answer to a notification. -/
def handle (nodeName : GoString) (e : Informer.Event Pod) : GoM Pid2Pod PUnit :=
  podController.handle nodeName e

/-! ### The pattern -/

/-- `\d`. -/
def isDigitRune : GoString → Bool
  | [b] => isDigit b
  | _ => false

/-- `[0-9a-f_]`. -/
def isIdRune : GoString → Bool
  | [b] => isDigit b || (97 ≤ b && b ≤ 102) || b == 95
  | _ => false

/-- `.`, every rune but the newline. -/
def isAnyRune (r : GoString) : Bool := r ≠ [10]

/-- The class that a character of the pattern stands for. -/
def charClass (b : UInt8) : GoString → Bool :=
  if b = 46 then isAnyRune else fun r => r = [b]

/-- A text in a pattern; its dots are not escaped. -/
def dotted (s : GoString) : Regexp GoString := .word (s.map charClass)

/-- `kubeSystemdPattern`. -/
def kubeSystemdPattern : Regexp GoString := .seq [
  .plus isDigitRune,
  dotted (ascii ":"),
  .plus isAnyRune,
  dotted (ascii ":/kubepods.slice/kubepods-burstable.slice/kubepods-burstable-pod"),
  .group (.times isIdRune 36),
  dotted (ascii ".slice/cri-containerd-"),
  .group (.times isIdRune 64),
  dotted (ascii ".scope")]

/-! ### The reader -/

variable (cgroup : UInt32 → Except GoString GoString)

/-- The error of a pid that belongs to no pod. -/
def noPodFound (pid : UInt32) : GoString := ascii "no pod found for pid " ++ itoa pid.toNat

/-- The error of a pid whose container is not among those of its pod. -/
def noContainerFound (pid : UInt32) : GoString :=
  ascii "no container found for pid " ++ itoa pid.toNat

/-- The two groups of a line, if the pattern is found in it. -/
def lineIds (line : GoString) : Option (GoString × GoString) :=
  match findStringSubmatch kubeSystemdPattern line with
  | some [_, podId, containerId] => some (podId, containerId)
  | _ => none

/-- `lookupIdByPid`. -/
def lookupIdByPid (pid : UInt32) : Except GoString (GoString × GoString) :=
  match cgroup pid with
  | .error err => .error err
  | .ok contents =>
    match (scanLines contents).findSome? lineIds with
    | some ids => .ok ids
    | none => .error (noPodFound pid)

/-- The loop over the container statuses: the last one with the ID gives the name. -/
def containerNameOf (containerId : GoString) (statuses : List ContainerStatus) : GoString :=
  statuses.foldl
    (fun name status => if status.containerID = containerId then status.name else name) []

/-- `GetPodInfoByPid`. -/
def getPodInfoByPid (p : Pid2Pod) (pid : UInt32) : Except GoString PodInfo :=
  match lookupIdByPid cgroup pid with
  | .error err => .error err
  | .ok (podId, containerId) =>
    match p.pods.lookup podId with
    | some pod =>
      let containerName := containerNameOf containerId pod.containerStatuses
      if containerName = [] then .error (noContainerFound pid)
      else
        .ok {
          nameSpace := pod.nameSpace
          nodeName := pod.nodeName
          podName := pod.name
          podUID := pod.uid
          podLabel := pod.labels
          containerID := containerId
          containerName := containerName }
    | none => .error (noPodFound pid)

end Pid2Pod

end Kubebpfbox
