import Kubebpfbox.Pid2Pod.Equiv.Pattern

/-!
# Attribution of processes

The handlers store a pod under its UID, which has dashes (`effect`, `keyed_reachesAt`).  The id in a
cgroup path has underscores in their place, and the pattern accepts nothing else, so that the lookup
never asks for the key of such a pod: `not_attributed`.
-/

namespace Kubebpfbox.Pid2Pod

open Golang GoM Kubebpfbox.Core K8s Informer

/-! ### What the handlers do to `Pods` -/

/-- `Pods` after a notification. -/
def effect (nodeName : GoString) (m : GoMap GoString Pod) : Event Pod → GoMap GoString Pod
  | .add newPod => if newPod.nodeName ≠ nodeName then m else m.insert newPod.uid newPod
  | .update _ newPod => if newPod.nodeName ≠ nodeName then m else m.insert newPod.uid newPod
  | .delete oldPod => if oldPod.nodeName ≠ nodeName then m else m.erase oldPod.uid

/-- A handler that is skipped for the pods of other nodes. -/
theorem gives_ite_modify {c : Prop} [Decidable c] {f : GoMap GoString Pod → GoMap GoString Pod}
    {p p' : Pid2Pod} :
    Gives (if c then pure ⟨⟩ else modify fun p : Pid2Pod => { pods := f p.pods }) p ⟨⟩ p' ↔
      p' = ⟨if c then p.pods else f p.pods⟩ := by
  split_ifs
  · rw [gives_pure]
    exact and_iff_right rfl
  · exact gives_modify

/-- A notification always completes. -/
theorem gives_handle {nodeName : GoString} {e : Event Pod} {p p' : Pid2Pod} :
    Gives (handle nodeName e) p ⟨⟩ p' ↔ p' = ⟨effect nodeName p.pods e⟩ := by
  cases e with
  | add newPod =>
    show Gives (forM [addPod] fun handler => handler newPod nodeName) p ⟨⟩ p' ↔ _
    rw [gives_forM_singleton]
    exact gives_ite_modify
  | update oldPod newPod =>
    show Gives (forM [updatePod] fun handler => handler oldPod newPod nodeName) p ⟨⟩ p' ↔ _
    rw [gives_forM_singleton]
    exact gives_ite_modify
  | delete oldPod =>
    show Gives (forM [deletePod] fun handler => handler oldPod nodeName) p ⟨⟩ p' ↔ _
    rw [gives_forM_singleton]
    exact gives_ite_modify

/-- Every pod is stored under its UID. -/
def Keyed (m : GoMap GoString Pod) : Prop := ∀ k pod, m.lookup k = some pod → pod.uid = k

theorem Keyed.insert {m : GoMap GoString Pod} (h : Keyed m) (pod : Pod) :
    Keyed (m.insert pod.uid pod) := by
  intro k pod' hk
  by_cases heq : k = pod.uid
  · rw [heq, Finmap.lookup_insert] at hk
    rw [heq, Option.some.inj hk]
  · rw [Finmap.lookup_insert_of_ne _ heq] at hk
    exact h k pod' hk

theorem Keyed.erase {m : GoMap GoString Pod} (h : Keyed m) (uid : GoString) :
    Keyed (m.erase uid) := by
  intro k pod hk
  by_cases heq : k = uid
  · rw [heq, Finmap.lookup_erase] at hk
    cases hk
  · rw [Finmap.lookup_erase_ne heq] at hk
    exact h k pod hk

/-- A notification keeps the keys right. -/
theorem keyed_effect {nodeName : GoString} {m : GoMap GoString Pod} (h : Keyed m) (e : Event Pod) :
    Keyed (effect nodeName m e) := by
  cases e with
  | add newPod =>
    rw [effect]
    split_ifs
    · exact h
    · exact h.insert newPod
  | update oldPod newPod =>
    rw [effect]
    split_ifs
    · exact h
    · exact h.insert newPod
  | delete oldPod =>
    rw [effect]
    split_ifs
    · exact h
    · exact h.erase oldPod.uid

theorem keyed_reachesAt {nodeName : GoString} {events : List (Event Pod)} {n : ℕ} {p : Pid2Pod}
    (h : ReachesAt (handle nodeName) events {} n p) : Keyed p.pods := by
  apply ReachesAt.invariant (I := fun p => Keyed p.pods) h
  · intro k pod hk
    have hnone : (∅ : GoMap GoString Pod).lookup k = none := Finmap.lookup_empty k
    rw [hnone] at hk
    cases hk
  · intro e _ t t' ht hstep
    rw [gives_handle.mp hstep]
    exact keyed_effect ht e

/-! ### A process of a pod -/

/-- A lower-case hexadecimal digit. -/
def isHexDigit (b : UInt8) : Bool := isDigit b || (97 ≤ b && b ≤ 102)

/-- The canonical form of a UUID: groups of 8, 4, 4, 4 and 12 hexadecimal digits. -/
structure CanonicalUid where
  timeLow : GoString
  timeMid : GoString
  timeHigh : GoString
  clock : GoString
  node : GoString
  lengths : timeLow.length = 8 ∧ timeMid.length = 4 ∧ timeHigh.length = 4 ∧ clock.length = 4 ∧
    node.length = 12
  digits : ∀ b ∈ timeLow ++ timeMid ++ timeHigh ++ clock ++ node, isHexDigit b = true

namespace CanonicalUid

variable (u : CanonicalUid)

/-- The groups with a separator between them. -/
def join (sep : UInt8) : GoString :=
  u.timeLow ++ (sep :: u.timeMid ++ (sep :: u.timeHigh ++ (sep :: u.clock ++ sep :: u.node)))

/-- The UID of the pod in the API. -/
def uid : GoString := u.join 45

/-- The same UID in the name of a systemd slice. -/
def sliceUid : GoString := u.join 95

theorem dash_mem_uid : 45 ∈ u.uid := by simp [uid, join]

theorem isIdByte_of_isHexDigit {b : UInt8} (h : isHexDigit b = true) : isIdByte b = true := by
  show (isHexDigit b || b == 95) = true
  rw [h, Bool.true_or]

theorem length_join (sep : UInt8) : (u.join sep).length = 36 := by
  obtain ⟨h₁, h₂, h₃, h₄, h₅⟩ := u.lengths
  simp only [join, List.length_append, List.length_cons]
  omega

theorem isIdByte_of_mem_sliceUid : ∀ b ∈ u.sliceUid, isIdByte b = true := by
  have hid : ∀ b ∈ u.timeLow ++ u.timeMid ++ u.timeHigh ++ u.clock ++ u.node,
      isIdByte b = true := fun b hb => isIdByte_of_isHexDigit (u.digits b hb)
  have hsep : isIdByte 95 = true := by decide
  simp only [List.forall_mem_append] at hid
  simp only [sliceUid, join, List.forall_mem_append, List.forall_mem_cons, List.cons_append]
  tauto

end CanonicalUid

variable {cgroup : UInt32 → Except GoString GoString}

/-- The process `pid` runs in the container `status` of `pod`: the pod is stored, its UID and the
ID of the container have the forms of the Kubernetes API, and the cgroup file has, as its first line
with `/kubepods`, the path that systemd and containerd make for the two of them. -/
structure Running (p : Pid2Pod) (cgroup : UInt32 → Except GoString GoString) (pid : UInt32)
    (pod : Pod) (status : ContainerStatus) where
  stored : p.pods.lookup pod.uid = some pod
  canonical : CanonicalUid
  uid_eq : pod.uid = canonical.uid
  status_mem : status ∈ pod.containerStatuses
  named : status.name ≠ []
  runtime : GoString
  cid : GoString
  containerID_eq : status.containerID = runtime ++ ascii "://" ++ cid
  cid_hex : cid.length = 64 ∧ ∀ b ∈ cid, isHexDigit b = true
  file : BurstableFile canonical.sliceUid cid
  cgroup_eq : cgroup pid = .ok file.contents

/-- The result names the pod and the container. -/
def Attributed (pod : Pod) (status : ContainerStatus) (r : Except GoString PodInfo) : Prop :=
  ∃ info, r = .ok info ∧ info.nameSpace = pod.nameSpace ∧ info.podName = pod.name ∧
    info.podUID = pod.uid ∧ info.containerName = status.name

/-- The UID in a result is the one that was looked up. -/
theorem dash_not_mem_of_getPodInfoByPid {p : Pid2Pod} (hkeyed : Keyed p.pods) {pid : UInt32}
    {info : PodInfo} (h : getPodInfoByPid cgroup p pid = .ok info) : 45 ∉ info.podUID := by
  unfold getPodInfoByPid at h
  split at h
  · cases h
  · rename_i podId containerId hids
    have hdash := dash_not_mem_of_lookupIdByPid hids
    split at h
    · rename_i pod hpod
      simp only at h
      split_ifs at h
      cases h
      show 45 ∉ pod.uid
      rwa [hkeyed podId pod hpod]
    · cases h

theorem not_attributed_of_dash {p : Pid2Pod} (hkeyed : Keyed p.pods) {pid : UInt32} {pod : Pod}
    {status : ContainerStatus} (huid : 45 ∈ pod.uid) :
    ¬ Attributed pod status (getPodInfoByPid cgroup p pid) := by
  rintro ⟨info, hinfo, -, -, hid, -⟩
  apply dash_not_mem_of_getPodInfoByPid hkeyed hinfo
  rwa [hid]

/-- **No process is attributed**: in no state that any notifications lead to does the reader name
the pod and the container of a process. -/
theorem not_attributed {nodeName : GoString} {events : List (Event Pod)} {n : ℕ} {p : Pid2Pod}
    (h : ReachesAt (handle nodeName) events {} n p) {pid : UInt32} {pod : Pod}
    {status : ContainerStatus} (hrun : Running p cgroup pid pod status) :
    ¬ Attributed pod status (getPodInfoByPid cgroup p pid) := by
  apply not_attributed_of_dash (keyed_reachesAt h)
  rw [hrun.uid_eq]
  exact hrun.canonical.dash_mem_uid

/-- No name is found under an ID that no status has. -/
theorem containerNameOf_eq_nil {containerId : GoString} {statuses : List ContainerStatus}
    (h : ∀ s ∈ statuses, s.containerID ≠ containerId) :
    containerNameOf containerId statuses = [] := by
  unfold containerNameOf
  induction statuses with
  | nil => rfl
  | cons s statuses ih =>
    obtain ⟨hs, h⟩ := List.forall_mem_cons.mp h
    rw [List.foldl_cons, if_neg hs]
    exact ih h

namespace Running

variable {p : Pid2Pod} {pid : UInt32} {pod : Pod} {status : ContainerStatus}
  (h : Running p cgroup pid pod status)

theorem idBytes : BurstableLine.IdBytes h.canonical.sliceUid h.cid where
  podId_length := h.canonical.length_join 95
  podId_bytes := h.canonical.isIdByte_of_mem_sliceUid
  containerId_length := h.cid_hex.1
  containerId_bytes := fun b hb => CanonicalUid.isIdByte_of_isHexDigit (h.cid_hex.2 b hb)

/-- The pattern reads the ids all right; it is the map that does not know the UID. -/
theorem getPodInfoByPid_eq_error (hfits : h.file.Fits) (hpods : h.canonical.sliceUid ∉ p.pods) :
    getPodInfoByPid cgroup p pid = .error (noPodFound pid) := by
  unfold getPodInfoByPid
  rw [h.file.lookupIdByPid_contents h.idBytes hfits h.cgroup_eq]
  simp only [Finmap.lookup_eq_none.mpr hpods]

/-- Nor is the container found in a pod that is stored under the UID of the path: the IDs of the API
have a scheme in front, and the ID of the path has none. -/
theorem getPodInfoByPid_eq_noContainerFound (hfits : h.file.Fits) {pod' : Pod}
    (hpod : p.pods.lookup h.canonical.sliceUid = some pod')
    (hform : ∀ s ∈ pod'.containerStatuses,
      ∃ runtime id, s.containerID = runtime ++ ascii "://" ++ id) :
    getPodInfoByPid cgroup p pid = .error (noContainerFound pid) := by
  have hname : containerNameOf h.cid pod'.containerStatuses = [] := by
    apply containerNameOf_eq_nil
    intro s hs heq
    obtain ⟨runtime, id, hid⟩ := hform s hs
    have hcolon : 58 ∈ h.cid := by
      rw [← heq, hid]
      exact List.mem_append_left _ (List.mem_append_right _ (by decide))
    exact (isIdByte_ascii (h.idBytes.containerId_bytes 58 hcolon)).2.2 rfl
  unfold getPodInfoByPid
  rw [h.file.lookupIdByPid_contents h.idBytes hfits h.cgroup_eq]
  simp only [hpod, hname, if_true]

end Running

/-! ### The process of `docs/oomkill.md` -/

/-- The UID `1d4361ce-e21a-4548-bc40-b1f57db309e0`. -/
def docsUid : CanonicalUid where
  timeLow := ascii "1d4361ce"
  timeMid := ascii "e21a"
  timeHigh := ascii "4548"
  clock := ascii "bc40"
  node := ascii "b1f57db309e0"
  lengths := by decide
  digits := by decide +kernel

/-- The container ID. -/
def docsCid : GoString := ascii "8209b1fcf9524a53cd600c6fd463ff1c50f078ecd426bc7da68de8fda2d6eab8"

/-- The status of the container. -/
def docsStatus : ContainerStatus where
  name := ascii "app"
  containerID := ascii "containerd" ++ ascii "://" ++ docsCid

/-- The pod. -/
def docsPod : Pod where
  nameSpace := ascii "default"
  name := ascii "app-0"
  uid := docsUid.uid
  labels := []
  nodeName := ascii "node1"
  containerStatuses := [docsStatus]

/-- The first line of the file. -/
def docsFile : BurstableFile docsUid.sliceUid docsCid where
  before := []
  line := {
    hierarchy := ascii "12"
    controllers := ascii "blkio"
    hierarchy_digits := by decide +kernel
    controllers_name := by decide +kernel }
  after := []
  before_lines := by simp

/-- The file system. -/
def docsCgroup (_ : UInt32) : Except GoString GoString := .ok docsFile.contents

/-- `Pods` once the pod is stored. -/
def docsPods : Pid2Pod := ⟨(∅ : GoMap GoString Pod).insert docsUid.uid docsPod⟩

theorem reachesAt_docsPods : ReachesAt (handle (ascii "node1")) [.add docsPod] {} 1 docsPods := by
  have hstep : Gives (handle (ascii "node1") (.add docsPod)) {} ⟨⟩ docsPods :=
    gives_handle.mpr rfl
  exact (reachesAt_succ rfl).mpr ⟨{}, reachesAt_zero.mpr rfl, hstep⟩

/-- The process runs in the container. -/
def docsRunning : Running docsPods docsCgroup 14880 docsPod docsStatus where
  stored := Finmap.lookup_insert _
  canonical := docsUid
  uid_eq := rfl
  status_mem := List.mem_singleton.mpr rfl
  named := by decide
  runtime := ascii "containerd"
  cid := docsCid
  containerID_eq := rfl
  cid_hex := by decide +kernel
  file := docsFile
  cgroup_eq := rfl

theorem not_attributed_docs : ∃ p, ReachesAt (handle (ascii "node1")) [.add docsPod] {} 1 p ∧
    ¬ Attributed docsPod docsStatus (getPodInfoByPid docsCgroup p 14880) :=
  ⟨docsPods, reachesAt_docsPods, not_attributed reachesAt_docsPods docsRunning⟩

/-- The lookup of the process fails with the error that its callers only log. -/
theorem getPodInfoByPid_docs :
    ReachesAt (handle (ascii "node1")) [.add docsPod] {} 1 docsPods ∧
    Nonempty (Running docsPods docsCgroup 14880 docsPod docsStatus) ∧
    getPodInfoByPid docsCgroup docsPods 14880 = .error (ascii "no pod found for pid 14880") ∧
    ¬ Attributed docsPod docsStatus (getPodInfoByPid docsCgroup docsPods 14880) := by
  have hne : docsUid.sliceUid ≠ docsUid.uid := by decide
  have hfits : docsRunning.file.Fits := ⟨by simp [docsRunning, docsFile], by decide +kernel⟩
  have hpods : docsRunning.canonical.sliceUid ∉ docsPods.pods := by
    show docsUid.sliceUid ∉ (∅ : GoMap GoString Pod).insert docsUid.uid docsPod
    rw [Finmap.mem_insert, not_or]
    exact ⟨hne, Finmap.notMem_empty⟩
  have herr := docsRunning.getPodInfoByPid_eq_error hfits hpods
  have htext : noPodFound 14880 = ascii "no pod found for pid 14880" := by decide +kernel
  rw [htext] at herr
  refine ⟨reachesAt_docsPods, ⟨docsRunning⟩, herr, ?_⟩
  rw [herr]
  rintro ⟨info, hinfo, -⟩
  cases hinfo

end Kubebpfbox.Pid2Pod
