import Kubebpfbox.Pid2Pod.Equiv.Attribution

/-!
# The cgroup layouts of the QoS classes

The pods of the three QoS classes have their cgroups in different slices, and the pattern spells out
the slices of one of them.  So the line of a guaranteed pod or of a best-effort pod is passed over
(`PodLine.lineIds_text_of_ne`), and the lookup goes on behind it.

`lookupIdByPid_iff` says when a lookup in the file of a container returns the ids of the container.
-/

namespace Kubebpfbox.Pid2Pod

open Golang Regexp

/-- The QoS classes of pods. -/
inductive QoS where
  | guaranteed
  | burstable
  | besteffort
  deriving DecidableEq, Repr

/-- The text behind `/kubepods`, up to the UID. -/
def QoS.slices : QoS → GoString
  | guaranteed => ascii ".slice/kubepods-pod"
  | burstable => burstablePath
  | besteffort => ascii ".slice/kubepods-besteffort.slice/kubepods-besteffort-pod"

theorem QoS.pathBytes_slices (qos : QoS) : PathBytes qos.slices := by
  rcases qos with _ | _ | _ <;> decide +kernel

/-- The slices of the other two classes are none the pattern spells out. -/
theorem QoS.not_matches {qos : QoS} (hqos : qos ≠ .burstable) {rest behind : List GoString}
    {t : GoString} (hrest : (dotted burstablePath).Matches rest []) :
    rest ++ behind ≠ chars (qos.slices ++ t) := by
  have hpath : burstablePath = 46 :: (ascii "slice/kubepods-burstable" ++
      ascii ".slice/kubepods-burstable-pod") := by
    decide +kernel
  rw [hpath] at hrest
  obtain ⟨r, rest', -, hall, rfl⟩ := List.forall₂_cons_left_iff.mp (matches_word.mp hrest).1
  obtain ⟨more, rfl⟩ := prefix_of_matches_dotted (by decide +kernel) (matches_word.mpr ⟨hall, rfl⟩)
  intro heq
  -- the class is spelled out behind `kubepods-`
  rcases qos with _ | _ | _
  · have hbyte : (some [98] : Option GoString) = some [112] := congrArg (fun l => l[16]?) heq
    revert hbyte
    decide
  · exact hqos rfl
  · have hbyte : (some [117] : Option GoString) = some [101] := congrArg (fun l => l[17]?) heq
    revert hbyte
    decide

/-! ### The line of a pod -/

/-- The line that systemd and containerd make for a container of a pod of the class. -/
structure PodLine (qos : QoS) (podId containerId : GoString) where
  hierarchy : GoString
  controllers : GoString
  hierarchy_digits : hierarchy ≠ [] ∧ ∀ b ∈ hierarchy, isDigit b = true
  controllers_name : controllers ≠ [] ∧ 10 ∉ controllers ∧ 47 ∉ controllers

namespace PodLine

variable {qos : QoS} {podId containerId : GoString}

/-- What follows `/kubepods`. -/
def path (qos : QoS) (podId containerId : GoString) : GoString :=
  qos.slices ++ (podId ++ (scopePath ++ (containerId ++ ascii ".scope")))

/-- The line itself. -/
def text (l : PodLine qos podId containerId) : GoString :=
  l.hierarchy ++ ascii ":" ++ (l.controllers ++ 58 :: (ascii "/kubepods" ++
    path qos podId containerId))

/-- The line of a burstable pod is the one that the pattern is made for. -/
theorem lineIds_text_burstable (l : PodLine .burstable podId containerId)
    (h : BurstableLine.IdBytes podId containerId) :
    lineIds l.text = some (podId, containerId) :=
  BurstableLine.lineIds_text
    ⟨l.hierarchy, l.controllers, l.hierarchy_digits, l.controllers_name⟩ h

variable (l : PodLine qos podId containerId)

theorem pathBytes_path (h : BurstableLine.IdBytes podId containerId) :
    PathBytes (ascii "/kubepods" ++ path qos podId containerId) := by
  apply PathBytes.append (by decide +kernel)
  apply PathBytes.append qos.pathBytes_slices
  apply PathBytes.append (pathBytes_of_isIdByte h.podId_bytes)
  apply PathBytes.append (by decide +kernel)
  exact (pathBytes_of_isIdByte h.containerId_bytes).append (by decide +kernel)

theorem runes_text (h : BurstableLine.IdBytes podId containerId) :
    runes l.text = chars (l.hierarchy ++ ascii ":") ++ runes l.controllers ++
      [58] :: chars (ascii "/kubepods" ++ path qos podId containerId) := by
  rw [text, runes_line l.hierarchy_digits.2 (pathBytes_path h), List.append_assoc]

/-- **The line of any other pod is passed over.** -/
theorem lineIds_text_of_ne (h : BurstableLine.IdBytes podId containerId) (hqos : qos ≠ .burstable) :
    lineIds l.text = none := by
  by_contra hids
  obtain ⟨ids, hids⟩ := Option.ne_none_iff_exists'.mp hids
  obtain ⟨pre, post, x, hfit, hline, -⟩ := exists_pieces_of_lineIds hids
  rw [l.runes_text h] at hline
  have hfront := slash_not_mem_front l.hierarchy_digits.2 l.controllers_name.2.2
  obtain ⟨rest, hrest, heq⟩ := hfit.exists_rest hfront
    (fun hmem => (pathBytes_path h 58 (List.mem_append_right _ hmem)).2.1 rfl) hline
  exact QoS.not_matches hqos hrest heq

/-- The scanner has no carriage return to drop. -/
theorem dropCR_text : dropCR l.text = l.text := by
  have htext : l.text = l.hierarchy ++ ascii ":" ++ (l.controllers ++ 58 :: (ascii "/kubepods" ++
      (qos.slices ++ (podId ++ (scopePath ++ containerId))))) ++ ascii ".scope" := by
    simp only [text, path, List.append_assoc, List.cons_append]
  rw [htext]
  exact dropCR_scope _

theorem newline_not_mem_text (h : BurstableLine.IdBytes podId containerId) : 10 ∉ l.text :=
  newline_not_mem_line l.hierarchy_digits.2 (pathBytes_path h) l.controllers_name.2.1

end PodLine

/-! ### The file -/

/-- A cgroup file whose first line with `/kubepods` is that of a container of a pod of the class. -/
structure PodFile (qos : QoS) (podId containerId : GoString) where
  before : List GoString
  line : PodLine qos podId containerId
  after : GoString
  before_lines : ∀ l ∈ before, 10 ∉ l ∧ ¬ ascii "/kubepods" <:+: l

/-- The first of the lines in which the pattern is found has the ids. -/
def Recognises (lines : List GoString) (ids : GoString × GoString) : Prop :=
  ∃ front line rest, lines = front ++ line :: rest ∧ lineIds line = some ids ∧
    ∀ l ∈ front, lineIds l = none

namespace PodFile

variable {qos : QoS} {podId containerId : GoString} (f : PodFile qos podId containerId)

/-- The bytes of the file. -/
def contents : GoString :=
  (f.before.map fun l => l ++ [10]).flatten ++ (f.line.text ++ 10 :: f.after)

/-- The lines up to the one of the pod fit into the buffer of a scanner. -/
def Fits : Prop :=
  (∀ l ∈ f.before, l.length < maxScanTokenSize) ∧ f.line.text.length < maxScanTokenSize

instance : Decidable f.Fits := inferInstanceAs (Decidable ((∀ l ∈ f.before, _) ∧ _))

/-- What the loop of the lookup finds. -/
theorem findSome?_lineIds (h : BurstableLine.IdBytes podId containerId) :
    (scanLines f.contents).findSome? lineIds =
      if f.Fits then
        if qos = .burstable then some (podId, containerId)
        else (scanLines f.after).findSome? lineIds
      else none := by
  rw [contents, findSome?_lineIds_append f.before_lines]
  by_cases hbefore : ∀ l ∈ f.before, l.length < maxScanTokenSize
  · rw [if_pos hbefore]
    by_cases hline : f.line.text.length < maxScanTokenSize
    · rw [if_pos ⟨hbefore, hline⟩, scanLines_append (f.line.newline_not_mem_text h) hline,
        f.line.dropCR_text, List.findSome?_cons]
      by_cases hqos : qos = .burstable
      · subst hqos
        rw [f.line.lineIds_text_burstable h, if_pos rfl]
      · rw [f.line.lineIds_text_of_ne h hqos, if_neg hqos]
    · rw [if_neg fun hfits : f.Fits => hline hfits.2,
        scanLines_append_of_le (f.line.newline_not_mem_text h) (Nat.not_lt.mp hline)]
      rfl
  · rw [if_neg hbefore, if_neg fun hfits : f.Fits => hbefore hfits.1]

/-- **The lookup returns the ids of the container** exactly when the scanner gets to the line of the
container, and the pod is burstable or a later line has the ids. -/
theorem lookupIdByPid_iff (h : BurstableLine.IdBytes podId containerId)
    {cgroup : UInt32 → Except GoString GoString} {pid : UInt32}
    (hcgroup : cgroup pid = .ok f.contents) :
    lookupIdByPid cgroup pid = .ok (podId, containerId) ↔
      f.Fits ∧ (qos = .burstable ∨ Recognises (scanLines f.after) (podId, containerId)) := by
  have hlookup : lookupIdByPid cgroup pid = .ok (podId, containerId) ↔
      (scanLines f.contents).findSome? lineIds = some (podId, containerId) := by
    simp only [lookupIdByPid, hcgroup]
    cases hfind : (scanLines f.contents).findSome? lineIds with
    | none => simp
    | some ids => simp
  have hrec : (scanLines f.after).findSome? lineIds = some (podId, containerId) ↔
      Recognises (scanLines f.after) (podId, containerId) := List.findSome?_eq_some_iff
  rw [hlookup, f.findSome?_lineIds h, ← hrec]
  by_cases hfits : f.Fits
  · rw [if_pos hfits, and_iff_right hfits]
    by_cases hqos : qos = .burstable
    · rw [if_pos hqos]
      exact iff_of_true rfl (Or.inl hqos)
    · rw [if_neg hqos]
      exact (or_iff_right hqos).symm
  · rw [if_neg hfits]
    exact iff_of_false (Option.some_ne_none _).symm fun hboth => hfits hboth.1

end PodFile

/-! ### One container in each class -/

theorem digits_hierarchy : ascii "12" ≠ [] ∧ ∀ b ∈ ascii "12", isDigit b = true := by
  decide +kernel

theorem name_controllers : ascii "blkio" ≠ [] ∧ 10 ∉ ascii "blkio" ∧ 47 ∉ ascii "blkio" := by
  decide +kernel

theorem lines_nil : ∀ l ∈ ([] : List GoString), 10 ∉ l ∧ ¬ ascii "/kubepods" <:+: l :=
  List.forall_mem_nil _

/-- The file of the container of `docs/oomkill.md`, were its pod of the class. -/
def classFile (qos : QoS) : PodFile qos docsUid.sliceUid docsCid where
  before := []
  line := {
    hierarchy := ascii "12"
    controllers := ascii "blkio"
    hierarchy_digits := digits_hierarchy
    controllers_name := name_controllers }
  after := []
  before_lines := lines_nil

theorem fits_classFile (qos : QoS) : (classFile qos).Fits := by
  refine ⟨by simp [classFile], ?_⟩
  rcases qos with _ | _ | _ <;> decide +kernel

theorem lookupIdByPid_iff_of_burstable :
    lookupIdByPid (fun _ => .ok (classFile .burstable).contents) 14880
      = .ok (docsUid.sliceUid, docsCid) :=
  ((classFile .burstable).lookupIdByPid_iff docsRunning.idBytes rfl).mpr
    ⟨fits_classFile .burstable, Or.inl rfl⟩

/-- The lookup fails for the same container of a guaranteed or a best-effort pod. -/
theorem not_recognised_classFile :
    lookupIdByPid (fun _ => .ok (classFile .guaranteed).contents) 14880
      = .error (noPodFound 14880) ∧
    lookupIdByPid (fun _ => .ok (classFile .besteffort).contents) 14880
      = .error (noPodFound 14880) ∧
    (∀ qos, qos ≠ .burstable →
      lookupIdByPid (fun _ => .ok (classFile qos).contents) 14880
        ≠ .ok (docsUid.sliceUid, docsCid)) := by
  have hfail : ∀ qos, qos ≠ .burstable →
      lookupIdByPid (fun _ => .ok (classFile qos).contents) 14880 = .error (noPodFound 14880) := by
    intro qos hqos
    have hend : (scanLines []).findSome? lineIds = none := rfl
    have hfind := (classFile qos).findSome?_lineIds docsRunning.idBytes
    rw [if_pos (fits_classFile qos), if_neg hqos] at hfind
    simp only [lookupIdByPid, hfind.trans hend]
  refine ⟨hfail _ (by decide), hfail _ (by decide), fun qos hqos => ?_⟩
  rw [hfail qos hqos]
  intro heq
  cases heq

end Kubebpfbox.Pid2Pod
