import Kubebpfbox.Oomkill.Equiv.Decode
import Kubebpfbox.Oomkill.Process
import Kubebpfbox.Pid2Pod.Equiv.Process

/-!
# From the hook to the events

`oom_kills_reported`: in every run, each call of `oom_kill_process` whose arguments could be read
and whose record found room gives one event, in order, with the process that is killed, its name,
the pages, the process that triggered it and the text of the message, each as it was at the call.

The one thing that stands in the way is a name without a NUL: the turn of `Start` that meets it
panics, so what waits can be delivered exactly when there is none.
-/

namespace Kubebpfbox.Oomkill

open Golang GoM Pid2Pod Lists

/-! ### One call -/

/-- A text of at most `n` bytes, or a default if there is none. -/
def cut (n : ℕ) (empty : String) (s : GoString) : GoString :=
  if (s.takeWhile (· ≠ 0)).take n = [] then ascii empty else (s.takeWhile (· ≠ 0)).take n

/-- The event is about this call. -/
structure Hook.Reports (c : Hook) (e : Event) : Prop where
  triggerPid : e.triggerPid = (c.currentPidTgid >>> 32).toUInt32
  triggerComm : e.triggerComm = cut 15 "unknown" c.currentComm.toList
  victim : ∃ task comm, c.oc.chosen = some task ∧ task.tgid = some e.pid ∧
    task.comm = some comm ∧ e.comm = textOr "unknown" comm
  pages : c.oc.totalpages = some e.pages
  message : ∃ s, c.message = some s ∧ e.message = cut 127 "Out of memory" s

/-- The reads of the call all succeed. -/
structure Hook.Readable (c : Hook) : Prop where
  victim : ∃ task, c.oc.chosen = some task ∧ task.tgid.isSome ∧ task.comm.isSome
  pages : c.oc.totalpages.isSome
  message : c.message.isSome

/-- The name of the process that is killed has a NUL. -/
def Hook.Terminated (c : Hook) : Prop :=
  ∀ task comm, c.oc.chosen = some task → task.comm = some comm → 0 ∈ comm.toList

theorem textOr_nulTerminated (n : ℕ) (empty : String) (s : GoString) :
    textOr empty (nulTerminated n s) = cut (n - 1) empty s := by
  unfold textOr cut
  rw [text_nulTerminated]

/-- The attribution leaves the numbers of an event alone, too. -/
theorem withPod_numbers (cgroup : UInt32 → Except GoString GoString) (p : Pid2Pod) (e : Event) :
    (withPod cgroup p e).triggerPid = e.triggerPid ∧ (withPod cgroup p e).pid = e.pid ∧
      (withPod cgroup p e).pages = e.pages := by
  unfold withPod
  split
  · exact ⟨rfl, rfl, rfl⟩
  · exact ⟨rfl, rfl, rfl⟩

theorem Hook.record_eq_some_iff {c : Hook} {info : OomkillInfo} :
    c.record = some info ↔ c.ringRoom ∧
      kprobeOomKillProcess c.currentPidTgid c.currentComm c.oc c.message = some info := by
  unfold Hook.record
  rw [Option.ite_none_right_eq_some]

theorem Hook.isSome_record_iff {c : Hook} : c.record.isSome ↔ c.ringRoom ∧ c.Readable := by
  rw [Option.isSome_iff_exists]
  simp only [Hook.record_eq_some_iff, kprobeOomKillProcess_eq_some_iff]
  constructor
  · rintro ⟨info, hroom, task, tgid, comm, pages, s, hchosen, htgid, hcomm, hpages, hmessage, -⟩
    exact ⟨hroom, ⟨task, hchosen, Option.isSome_of_eq_some htgid, Option.isSome_of_eq_some hcomm⟩,
      Option.isSome_of_eq_some hpages, Option.isSome_of_eq_some hmessage⟩
  · rintro ⟨hroom, ⟨task, hchosen, htgid, hcomm⟩, hpages, hmessage⟩
    obtain ⟨tgid, htgid⟩ := Option.isSome_iff_exists.mp htgid
    obtain ⟨comm, hcomm⟩ := Option.isSome_iff_exists.mp hcomm
    obtain ⟨pages, hpages⟩ := Option.isSome_iff_exists.mp hpages
    obtain ⟨s, hmessage⟩ := Option.isSome_iff_exists.mp hmessage
    exact ⟨_, hroom, task, tgid, comm, pages, s, hchosen, htgid, hcomm, hpages, hmessage, rfl⟩

theorem Hook.reports_eventOf {c : Hook} {info : OomkillInfo} (h : c.record = some info)
    (cgroup : UInt32 → Except GoString GoString) (p : Pid2Pod) :
    c.Reports (eventOf cgroup p info.toOomkillEvent) := by
  obtain ⟨task, tgid, comm, pages, s, hchosen, htgid, hcomm, hpages, hmessage, rfl⟩ :=
    kprobeOomKillProcess_eq_some_iff.mp (Hook.record_eq_some_iff.mp h).2
  unfold eventOf
  set e : Event := {
    triggerPid := (c.currentPidTgid >>> 32).toUInt32
    triggerComm := textOr "unknown" (bpfGetCurrentComm c.currentComm)
    pid := tgid
    comm := textOr "unknown" comm
    pages := pages
    message := textOr "Out of memory" (bpfProbeReadKernelStr 128 s) } with he
  show c.Reports (withPod cgroup p e)
  obtain ⟨htriggerComm, hcomm', hmessage'⟩ := @withPod_texts cgroup p e
  obtain ⟨htriggerPid, hpid, hpages'⟩ := withPod_numbers cgroup p e
  refine ⟨htriggerPid, ?_, ⟨task, comm, hchosen, ?_, hcomm, hcomm'⟩, ?_, ⟨s, hmessage, ?_⟩⟩
  · rw [htriggerComm]
    exact textOr_nulTerminated 16 "unknown" c.currentComm.toList
  · rw [hpid, htgid]
  · rw [hpages', hpages]
  · rw [hmessage']
    exact textOr_nulTerminated 128 "Out of memory" s

/-- A record fits exactly when the name has a NUL. -/
theorem Hook.hasNuls_iff {c : Hook} {info : OomkillInfo} (h : c.record = some info) :
    HasNuls info.toOomkillEvent ↔ c.Terminated := by
  replace h := (Hook.record_eq_some_iff.mp h).2
  rw [← decodes_iff (fun _ => .error []) {} info.toOomkillEvent, decodes_submitted_iff h]
  obtain ⟨task, tgid, comm, pages, s, hchosen, htgid, hcomm, hpages, hmessage, rfl⟩ :=
    kprobeOomKillProcess_eq_some_iff.mp h
  constructor
  · intro hnul task' comm' hchosen' hcomm'
    rw [hchosen, Option.some.injEq] at hchosen'
    rw [← hchosen', hcomm, Option.some.injEq] at hcomm'
    rw [← hcomm']
    exact hnul
  · intro hterm
    exact hterm task comm hchosen hcomm

/-! ### Whole runs -/

/-- A turn completes exactly when the three texts have their NULs. -/
theorem decodes_probe : probe.Decodes (fun info => HasNuls info.toOomkillEvent)
    fun proc p info => eventOf proc.cgroup p info.toOomkillEvent := by
  intro proc p info pad es
  simp only [probe]
  rw [gives_startTurn, OomkillEvent.read_toBytes, Option.map_some, Option.toList_some,
    List.nil_append]
  simp only [Option.some.injEq, forall_eq']

section Runs

open Process (submitting)

variable {nodeName : GoString} {acts : List (Process.Action Hook Event)} {s : Process Event}

/-- **Every OOM kill whose record found room is reported once**, in order, and what waits can be
delivered exactly when no name among it lacks its NUL. -/
theorem oom_kills_reported (h : Process.Runs probe nodeName {} acts s) :
    (∀ c, c ∈ submitting probe acts ↔ .hook c ∈ acts ∧ c.ringRoom ∧ c.Readable) ∧
    ∃ done waiting, submitting probe acts = done ++ waiting ∧
      List.Forall₂ Hook.Reports done (s.gathered ++ s.sending) ∧
      (∀ c ∈ done, c.Terminated) ∧
      waiting.length = s.events.length ∧
      ((∃ acts' s', Process.Runs probe nodeName s acts' s' ∧ (∀ act ∈ acts', act.IsDelivery) ∧
        s'.Drained) ↔ ∀ c ∈ waiting, c.Terminated) := by
  refine ⟨fun c => ?_, ?_⟩
  · rw [Process.mem_submitting_iff]
    exact and_congr_right fun _ => Hook.isSome_record_iff
  · exact Process.Runs.reported decodes_probe h
      (fun _ _ hrecord proc p => Hook.reports_eventOf hrecord proc.cgroup p)
      (fun _ _ hrecord => Hook.hasNuls_iff hrecord)

/-- A call for a process with a short name. -/
def shortKill : Hook where
  currentPidTgid := 1
  currentComm := nulTerminated 16 (ascii "kubelet")
  oc := {
    chosen := some { tgid := some 14880, comm := some (nulTerminated 16 (ascii "java")) }
    totalpages := some 1024 }
  message := some (ascii "Memory cgroup out of memory")
  ringRoom := true

theorem submitting_shortKill : submitting probe [.hook shortKill] = [shortKill] := rfl

theorem terminated_shortKill : shortKill.Terminated := by
  rintro task comm hchosen hcomm
  cases hchosen
  cases hcomm
  exact zero_mem_nulTerminated (by decide) _

theorem oom_kills_reported_of_one : ∃ s, Process.Runs probe (ascii "node1") {} [.hook shortKill] s ∧
    ∃ acts' s' e, Process.Runs probe (ascii "node1") s acts' s' ∧ s'.Drained ∧
      s'.gathered = [e] ∧ shortKill.Reports e := by
  have h : Process.Runs probe (ascii "node1") {} [.hook shortKill] _ :=
    Machines.Runs.nil.concat (.hook shortKill fun _ => 0)
  obtain ⟨-, done, waiting, hsub, -, -, -, hdeliver⟩ := oom_kills_reported h
  obtain ⟨acts', s', h', hacts', hdrained⟩ := hdeliver.mpr fun c hc => by
    have hmem : c ∈ submitting probe [.hook shortKill] := by
      rw [hsub]
      exact List.mem_append_right _ hc
    rw [submitting_shortKill, List.mem_singleton] at hmem
    rw [hmem]
    exact terminated_shortKill
  -- at the end nothing waits
  obtain ⟨-, done', waiting', hsub', hmade, -, hlen, -⟩ := oom_kills_reported (h.append h')
  rw [Process.submitting_append_of_delivery _ _ hacts', submitting_shortKill] at hsub'
  rw [hdrained.1, List.length_nil, List.length_eq_zero_iff] at hlen
  rw [hlen, List.append_nil] at hsub'
  rw [← hsub', hdrained.2, List.append_nil] at hmade
  obtain ⟨e, rest, hreports, hnil, hgathered⟩ := List.forall₂_cons_left_iff.mp hmade
  obtain rfl := List.forall₂_nil_left_iff.mp hnil
  exact ⟨_, h, acts', s', e, h', hdrained, hgathered, hreports⟩

end Runs

end Kubebpfbox.Oomkill
