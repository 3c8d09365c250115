import Kubebpfbox.Oomkill.Ebpf

/-!
# Decoding of OOM records

The three texts of a record are cut at their first NUL.  `bytes.IndexByte` is `-1` where there is
none, and the cut panics (`sliceTo_indexByte`).

* `decodes_iff`: which records are decoded.
* `decodes_submitted_iff`: of those the kernel program submits, the ones in which the name of the
  process that is killed has a NUL.
* `gives_start_iff`: how far the loop of `Start` comes, and what it sends.
-/

namespace Kubebpfbox.Oomkill

open Golang GoM

variable {cgroup : UInt32 → Except GoString GoString} {p : Pid2Pod}

/-! ### One record -/

/-- The bytes of a field before its first NUL, or all of them. -/
def text {n : ℕ} (field : Vector UInt8 n) : GoString := field.toList.takeWhile (· ≠ 0)

/-- The same, or a default if there is nothing before the NUL. -/
def textOr {n : ℕ} (empty : String) (field : Vector UInt8 n) : GoString :=
  if text field = [] then ascii empty else text field

/-- The record is decoded, and the event has the three texts. -/
def Decodes (cgroup : UInt32 → Except GoString GoString) (p : Pid2Pod) (event : OomkillEvent) :
    Prop :=
  ∃ e, decodeMapItem cgroup p event = .ok e ∧
    e.triggerComm = textOr "unknown" event.fcomm ∧
    e.comm = textOr "unknown" event.tcomm ∧
    e.message = textOr "Out of memory" event.message

/-- Each of the three fields has a NUL. -/
def HasNuls (event : OomkillEvent) : Prop :=
  0 ∈ event.fcomm.toList ∧ 0 ∈ event.tcomm.toList ∧ 0 ∈ event.message.toList

instance (event : OomkillEvent) : Decidable (HasNuls event) :=
  inferInstanceAs (Decidable (_ ∧ _ ∧ _))

/-- The cut at the first NUL. -/
theorem sliceTo_indexByte {n : ℕ} (field : Vector UInt8 n) :
    sliceTo field (indexByte field.toList 0) =
      if 0 ∈ field.toList then .ok (text field) else .error .indexOutOfRange := by
  unfold sliceTo indexByte
  by_cases hnul : 0 ∈ field.toList
  · have hlt : field.toList.idxOf 0 < n := by
      have hmem := List.idxOf_lt_length_of_mem hnul
      rwa [field.length_toList] at hmem
    rw [if_pos hnul, if_pos hnul, if_pos ⟨by omega, by omega⟩, Int.toNat_natCast, take_idxOf]
    rfl
  · rw [if_neg hnul, if_neg hnul, if_neg (by omega)]

/-- What is known about the pod, put into an event. -/
def withPod (cgroup : UInt32 → Except GoString GoString) (p : Pid2Pod) (e : Event) : Event :=
  match p.getPodInfoByPid cgroup e.pid with
  | .error _ => e
  | .ok podInfo => { e with
      nameSpace := podInfo.nameSpace
      nodeName := podInfo.nodeName
      podName := podInfo.podName
      podUID := podInfo.podUID
      containerID := podInfo.containerID
      containerName := podInfo.containerName }

/-- The event of a record. -/
def eventOf (cgroup : UInt32 → Except GoString GoString) (p : Pid2Pod) (event : OomkillEvent) :
    Event :=
  withPod cgroup p {
    triggerPid := event.fpid
    triggerComm := textOr "unknown" event.fcomm
    pid := event.tpid
    comm := textOr "unknown" event.tcomm
    pages := event.pages
    message := textOr "Out of memory" event.message }

/-- The attribution leaves the rest of the event alone. -/
theorem withPod_texts (e : Event) :
    (withPod cgroup p e).triggerComm = e.triggerComm ∧ (withPod cgroup p e).comm = e.comm ∧
      (withPod cgroup p e).message = e.message := by
  unfold withPod
  split
  · exact ⟨rfl, rfl, rfl⟩
  · exact ⟨rfl, rfl, rfl⟩

theorem decodeMapItem_of_hasNuls {event : OomkillEvent} (h : HasNuls event) :
    decodeMapItem cgroup p event = .ok (eventOf cgroup p event) := by
  obtain ⟨hfcomm, htcomm, hmessage⟩ := h
  unfold decodeMapItem
  rw [sliceTo_indexByte, sliceTo_indexByte, sliceTo_indexByte, if_pos hfcomm, if_pos htcomm,
    if_pos hmessage]
  show (match p.getPodInfoByPid cgroup event.tpid with | .error _ => _ | .ok _ => _) = _
  rcases hinfo : p.getPodInfoByPid cgroup event.tpid with err | podInfo
  · simp only [eventOf, withPod, hinfo]
    rfl
  · simp only [eventOf, withPod, hinfo]
    rfl

/-- The first text without a NUL panics. -/
theorem decodeMapItem_of_not_hasNuls {event : OomkillEvent} (h : ¬ HasNuls event) :
    decodeMapItem cgroup p event = .error .indexOutOfRange := by
  unfold decodeMapItem
  rw [sliceTo_indexByte, sliceTo_indexByte, sliceTo_indexByte]
  by_cases hfcomm : 0 ∈ event.fcomm.toList
  · by_cases htcomm : 0 ∈ event.tcomm.toList
    · have hmessage : 0 ∉ event.message.toList := fun hmem => h ⟨hfcomm, htcomm, hmem⟩
      rw [if_pos hfcomm, if_pos htcomm, if_neg hmessage]
      rfl
    · rw [if_pos hfcomm, if_neg htcomm]
      rfl
  · rw [if_neg hfcomm]
    rfl

theorem decodes_of_hasNuls {event : OomkillEvent} (h : HasNuls event) :
    Decodes cgroup p event := ⟨_, decodeMapItem_of_hasNuls h, withPod_texts _⟩

theorem hasNuls_of_decodes {event : OomkillEvent} (h : Decodes cgroup p event) :
    HasNuls event := by
  obtain ⟨e, he, -⟩ := h
  by_contra hnot
  rw [decodeMapItem_of_not_hasNuls hnot] at he
  cases he

/-- **A record is decoded** exactly when each of its three texts has a NUL. -/
theorem decodes_iff (cgroup : UInt32 → Except GoString GoString) (p : Pid2Pod)
    (event : OomkillEvent) : Decodes cgroup p event ↔ HasNuls event :=
  ⟨hasNuls_of_decodes, decodes_of_hasNuls⟩

/-- A record in which only the name of the process that is killed has no NUL. -/
def fullRecord : OomkillInfo where
  fpid := 1
  tpid := 14880
  pages := 1024
  fcomm := nulTerminated 16 (ascii "kubelet")
  tcomm := ⟨(ascii "sixteen-byte-cmd").toArray, rfl⟩
  message := nulTerminated 128 (ascii "Memory cgroup out of memory")

theorem not_hasNuls_fullRecord : ¬ HasNuls fullRecord.toOomkillEvent := by
  rintro ⟨-, htcomm, -⟩
  revert htcomm
  decide

/-- The record is 176 bytes that `binary.Read` accepts, and `DecodeMapItem` panics on it. -/
theorem not_decodes_fullRecord :
    (fullRecord.toBytes fun _ => 0).length = 176 ∧
    OomkillEvent.read (fullRecord.toBytes fun _ => 0) = some fullRecord.toOomkillEvent ∧
    decodeMapItem (fun _ => .error []) {} fullRecord.toOomkillEvent = .error .indexOutOfRange ∧
    ¬ Decodes (fun _ => .error []) {} fullRecord.toOomkillEvent := by
  refine ⟨fullRecord.length_toBytes _, OomkillEvent.read_toBytes fullRecord _, ?_, ?_⟩
  · exact decodeMapItem_of_not_hasNuls not_hasNuls_fullRecord
  · exact fun h => not_hasNuls_fullRecord (hasNuls_of_decodes h)

/-! ### The records of the kernel program -/

section Submitted

/-- A helper leaves room for the NUL. -/
theorem zero_mem_nulTerminated {n : ℕ} (hn : 0 < n) (s : GoString) :
    0 ∈ (nulTerminated n s).toList := by
  have hkept : ((s.takeWhile (· ≠ 0)).take (n - 1)).length ≤ n - 1 := List.length_take_le _ _
  apply List.mem_append_right
  rw [List.mem_replicate]
  exact ⟨by omega, rfl⟩

/-- What is read back is the text, cut to its first `n - 1` bytes. -/
theorem text_nulTerminated (n : ℕ) (s : GoString) :
    text (nulTerminated n s) = (s.takeWhile (· ≠ 0)).take (n - 1) := by
  have hkept : ∀ b ∈ (s.takeWhile (· ≠ 0)).take (n - 1), decide (b ≠ 0) = true := by
    intro b hb
    have hmem := List.mem_of_mem_take hb
    exact List.mem_takeWhile_imp (p := fun b : UInt8 => decide (b ≠ 0)) hmem
  have hpad : ∀ k : ℕ, (List.replicate k (0 : UInt8)).takeWhile (· ≠ 0) = [] := by
    intro k
    cases k <;> rfl
  show ((s.takeWhile (· ≠ 0)).take (n - 1) ++ List.replicate _ 0).takeWhile (· ≠ 0) = _
  rw [List.takeWhile_append_of_pos hkept, hpad, List.append_nil]

variable {currentPidTgid : UInt64} {currentComm : Vector UInt8 taskCommLen} {oc : OomControl}
  {message : Option GoString} {info : OomkillInfo}

/-- What the kernel program submits: the reads have all succeeded. -/
theorem kprobeOomKillProcess_eq_some_iff :
    kprobeOomKillProcess currentPidTgid currentComm oc message = some info ↔
      ∃ task tgid comm pages s, oc.chosen = some task ∧ task.tgid = some tgid ∧
        task.comm = some comm ∧ oc.totalpages = some pages ∧ message = some s ∧
        info = {
          fpid := (currentPidTgid >>> 32).toUInt32
          tpid := tgid
          pages := pages
          fcomm := bpfGetCurrentComm currentComm
          tcomm := comm
          message := bpfProbeReadKernelStr 128 s } := by
  unfold kprobeOomKillProcess
  simp only [Option.bind_eq_bind, Option.pure_def, Option.bind_eq_some_iff, Option.map_eq_some_iff]
  constructor
  · rintro ⟨task, htask, tgid, htgid, comm, hcomm, pages, hpages, _, ⟨s, hs, rfl⟩, heq⟩
    exact ⟨task, tgid, comm, pages, s, htask, htgid, hcomm, hpages, hs, (Option.some.inj heq).symm⟩
  · rintro ⟨task, tgid, comm, pages, s, htask, htgid, hcomm, hpages, hs, rfl⟩
    exact ⟨task, htask, tgid, htgid, comm, hcomm, pages, hpages, _, ⟨s, hs, rfl⟩, rfl⟩

/-- **The records of the kernel program** are decoded exactly when the name of the process that is
killed, which is copied as it is, has a NUL. -/
theorem decodes_submitted_iff
    (h : kprobeOomKillProcess currentPidTgid currentComm oc message = some info) :
    Decodes cgroup p info.toOomkillEvent ↔ 0 ∈ info.tcomm.toList := by
  obtain ⟨task, tgid, comm, pages, s, -, -, -, -, -, rfl⟩ := kprobeOomKillProcess_eq_some_iff.mp h
  constructor
  · exact fun hdecodes => (hasNuls_of_decodes hdecodes).2.1
  · intro htcomm
    apply decodes_of_hasNuls
    exact ⟨zero_mem_nulTerminated (by decide) _, htcomm, zero_mem_nulTerminated (by decide) _⟩

end Submitted

/-! ### The loop of `Start` -/

section Start

variable {ch ch' : List Event}

theorem gives_startTurn {rawSample : List UInt8} :
    Gives (startTurn cgroup p rawSample) ch ⟨⟩ ch' ↔
      (∀ event, OomkillEvent.read rawSample = some event → HasNuls event) ∧
        ch' = ch ++ ((OomkillEvent.read rawSample).map (eventOf cgroup p)).toList := by
  unfold startTurn
  rcases OomkillEvent.read rawSample with _ | event
  · show Gives (pure ⟨⟩ : GoM (List Event) PUnit) ch ⟨⟩ ch' ↔ _
    rw [gives_pure]
    simp
  · show Gives (eval (decodeMapItem cgroup p event) >>= fun oomkill =>
      modify fun ch => ch ++ [oomkill]) ch ⟨⟩ ch' ↔ _
    simp only [Option.some.injEq, forall_eq', Option.map_some, Option.toList_some]
    by_cases hnuls : HasNuls event
    · rw [decodeMapItem_of_hasNuls hnuls, eval, pure_bind, gives_modify]
      exact (and_iff_right hnuls).symm
    · rw [decodeMapItem_of_not_hasNuls hnuls]
      refine iff_of_false ?_ fun h => hnuls h.1
      intro h
      cases h

/-- **The loop of `Start`** gets through the records exactly when each that is read has its NULs, and
sends one event for each. -/
theorem gives_start_iff {rawSamples : List (List UInt8)} :
    Gives (forM rawSamples (startTurn cgroup p)) ch ⟨⟩ ch' ↔
      (∀ rawSample ∈ rawSamples, ∀ event, OomkillEvent.read rawSample = some event →
        HasNuls event) ∧
      ch' = ch ++ rawSamples.filterMap fun rawSample =>
        (OomkillEvent.read rawSample).map (eventOf cgroup p) := by
  induction rawSamples generalizing ch with
  | nil =>
    rw [gives_forM_nil]
    simp
  | cons rawSample rawSamples ih =>
    rw [gives_forM_cons, List.forall_mem_cons, List.filterMap_cons]
    simp only [gives_startTurn, ih]
    constructor
    · rintro ⟨t, ⟨hfirst, rfl⟩, hrest, rfl⟩
      refine ⟨⟨hfirst, hrest⟩, ?_⟩
      -- a sample that cannot be read is skipped
      rcases (OomkillEvent.read rawSample).map (eventOf cgroup p) with _ | e
      · simp
      · simp
    · rintro ⟨⟨hfirst, hrest⟩, rfl⟩
      refine ⟨_, ⟨hfirst, rfl⟩, hrest, ?_⟩
      rcases (OomkillEvent.read rawSample).map (eventOf cgroup p) with _ | e
      · simp
      · simp

end Start

end Kubebpfbox.Oomkill
