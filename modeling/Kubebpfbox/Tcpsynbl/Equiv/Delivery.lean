import Kubebpfbox.Pid2Pod.Equiv.Process
import Kubebpfbox.Tcpsynbl.Ebpf

/-!
# From the full queue to the events

`overflows_reported`: in every run, each call of one of the two kernel functions on a socket with a
full queue whose record finds room gives one event, in order, with the length of the queue, its
bound and the owner of the socket's file; no other call does, and nothing keeps what waits from
being delivered.
-/

namespace Kubebpfbox.Tcpsynbl

open Golang GoM Pid2Pod Process

/-! ### One call -/

/-- The reads through the socket give these values. -/
structure Sock.Holds (sk : Sock) (maxAckBacklog ackBacklog : UInt32) (nr : Int32) : Prop where
  skMaxAckBacklog : sk.skMaxAckBacklog = some maxAckBacklog
  skAckBacklog : sk.skAckBacklog = some ackBacklog
  owner : ∃ skSocket file owner pidStruct, sk.skSocket = some skSocket ∧
    skSocket.file = some file ∧ file.fOwner = some owner ∧ owner.pid = some pidStruct ∧
    pidStruct.nr = some nr

/-- The queue of a listening socket is full, and its file has an owner. -/
def Sock.Overflows (sk : Sock) : Prop :=
  ∃ maxAckBacklog ackBacklog nr, sk.Holds maxAckBacklog ackBacklog nr ∧ maxAckBacklog ≠ 0 ∧
    maxAckBacklog ≤ ackBacklog

/-- What the two kernel programs submit. -/
theorem synRecvSock_eq_some_iff {sk : Sock} {info : TcpsynblInfo} :
    synRecvSock sk = some info ↔ ∃ nr, sk.Holds info.maxAckBacklog info.ackBacklog nr ∧
      info.maxAckBacklog ≠ 0 ∧ info.maxAckBacklog ≤ info.ackBacklog ∧ info.pid = nr.toUInt32 := by
  unfold synRecvSock
  simp only [Option.bind_eq_bind, Option.pure_def, Option.bind_eq_some_iff]
  constructor
  · rintro ⟨maxAckBacklog, hmax, ackBacklog, hack, h⟩
    split_ifs at h with hfull
    simp only [Option.bind_eq_some_iff] at h
    obtain ⟨skSocket, hsocket, file, hfile, owner, howner, pidStruct, hpid, nr, hnr, heq⟩ := h
    cases heq
    exact ⟨nr, ⟨hmax, hack, skSocket, file, owner, pidStruct, hsocket, hfile, howner, hpid, hnr⟩,
      hfull.1, hfull.2, rfl⟩
  · rintro ⟨nr, ⟨hmax, hack, skSocket, file, owner, pidStruct, hsocket, hfile, howner, hpid, hnr⟩,
      hne, hle, hpidNr⟩
    refine ⟨info.maxAckBacklog, hmax, info.ackBacklog, hack, ?_⟩
    rw [if_pos ⟨hne, hle⟩]
    simp only [Option.bind_eq_some_iff]
    refine ⟨skSocket, hsocket, file, hfile, owner, howner, pidStruct, hpid, nr, hnr, ?_⟩
    rw [← hpidNr]

/-- The two programs are one. -/
theorem Hook.record_eq (c : Hook) :
    c.record = if c.ringRoom then synRecvSock c.sock else none := by
  cases c with
  | tcpV4SynRecvSock sk ringRoom => rfl
  | tcpV6SynRecvSock sk ringRoom => rfl

theorem Hook.record_eq_some_iff {c : Hook} {info : TcpsynblInfo} :
    c.record = some info ↔ c.ringRoom ∧ synRecvSock c.sock = some info := by
  rw [Hook.record_eq, Option.ite_none_right_eq_some]

theorem Hook.isSome_record_iff {c : Hook} :
    c.record.isSome ↔ c.ringRoom ∧ c.sock.Overflows := by
  rw [Option.isSome_iff_exists]
  simp only [Hook.record_eq_some_iff]
  constructor
  · rintro ⟨info, hroom, h⟩
    obtain ⟨nr, hholds, hne, hle, -⟩ := synRecvSock_eq_some_iff.mp h
    exact ⟨hroom, info.maxAckBacklog, info.ackBacklog, nr, hholds, hne, hle⟩
  · rintro ⟨hroom, maxAckBacklog, ackBacklog, nr, hholds, hne, hle⟩
    exact ⟨⟨nr.toUInt32, maxAckBacklog, ackBacklog⟩, hroom,
      synRecvSock_eq_some_iff.mpr ⟨nr, hholds, hne, hle, rfl⟩⟩

/-- The event is about this call: the queue of the socket is full. -/
structure Hook.Reports (c : Hook) (e : Event) : Prop where
  holds : ∃ nr, c.sock.Holds e.maxAckBacklog e.ackBacklog nr ∧ e.pid = nr.toUInt32
  bounded : e.maxAckBacklog ≠ 0
  full : e.maxAckBacklog ≤ e.ackBacklog

/-- The attribution leaves the numbers of the record alone. -/
theorem decodeMapItem_numbers (proc : Proc) (p : Pid2Pod) (event : TcpsynblEvent) :
    (decodeMapItem proc p event).pid = event.pid ∧
      (decodeMapItem proc p event).maxAckBacklog = event.maxAckBacklog ∧
      (decodeMapItem proc p event).ackBacklog = event.ackBacklog := by
  unfold decodeMapItem
  dsimp only
  split
  · exact ⟨rfl, rfl, rfl⟩
  · exact ⟨rfl, rfl, rfl⟩

theorem Hook.reports_decodeMapItem {c : Hook} {info : TcpsynblInfo} (h : c.record = some info)
    (proc : Proc) (p : Pid2Pod) : c.Reports (decodeMapItem proc p info.toTcpsynblEvent) := by
  obtain ⟨nr, hholds, hne, hle, hpid⟩ :=
    synRecvSock_eq_some_iff.mp (Hook.record_eq_some_iff.mp h).2
  obtain ⟨hpid', hmax, hack⟩ := decodeMapItem_numbers proc p info.toTcpsynblEvent
  refine ⟨⟨nr, ?_, ?_⟩, ?_, ?_⟩
  · rw [hmax, hack]
    exact hholds
  · rw [hpid']
    exact hpid
  · rw [hmax]
    exact hne
  · rw [hmax, hack]
    exact hle

/-! ### Whole runs -/

theorem gives_startTurn {proc : Proc} {p : Pid2Pod} {rawSample : List UInt8} {ch ch' : List Event} :
    Gives (startTurn proc p rawSample) ch ⟨⟩ ch' ↔
      ch' = ch ++ ((TcpsynblEvent.read rawSample).map (decodeMapItem proc p)).toList := by
  unfold startTurn
  cases TcpsynblEvent.read rawSample with
  | none =>
    rw [Option.map_none, Option.toList_none, List.append_nil, gives_pure]
    exact and_iff_right rfl
  | some event => exact gives_modify

/-- Every turn completes. -/
theorem decodes_probe : probe.Decodes (fun _ => True)
    fun proc p info => decodeMapItem proc p info.toTcpsynblEvent := by
  intro proc p info pad es
  simp only [probe]
  rw [gives_startTurn, TcpsynblEvent.read_toBytes, Option.map_some, Option.toList_some,
    List.nil_append]
  exact (and_iff_right trivial).symm

section Runs

variable {nodeName : GoString} {acts : List (Action Hook Event)} {s : Process Event}

/-- **Every overflow whose record finds room is reported once**, in order: of the calls, over IPv4
or IPv6, those on a socket with a full queue.  What waits can always be delivered. -/
theorem overflows_reported (h : Runs probe nodeName {} acts s) :
    (∀ c, c ∈ submitting probe acts ↔ .hook c ∈ acts ∧ c.ringRoom ∧ c.sock.Overflows) ∧
    (∃ done waiting, submitting probe acts = done ++ waiting ∧
      List.Forall₂ Hook.Reports done (s.gathered ++ s.sending) ∧
      waiting.length = s.events.length) ∧
    ∃ acts' s', Runs probe nodeName s acts' s' ∧ (∀ act ∈ acts', act.IsDelivery) ∧ s'.Drained := by
  obtain ⟨done, waiting, hsub, hmade, -, hlen, hdeliver⟩ := Runs.reported decodes_probe h
    (fun _ _ hrecord proc p => Hook.reports_decodeMapItem hrecord proc p)
    (fun _ _ _ => (Iff.rfl : True ↔ True))
  refine ⟨fun c => ?_, ⟨done, waiting, hsub, hmade, hlen⟩, hdeliver.mpr fun _ _ => trivial⟩
  rw [mem_submitting_iff]
  exact and_congr_right fun _ => Hook.isSome_record_iff

/-- A listening socket with a full queue. -/
def fullSock : Sock where
  skMaxAckBacklog := some 128
  skAckBacklog := some 129
  skSocket := some { file := some { fOwner := some { pid := some { nr := some 14880 } } } }

theorem overflows_reported_of_one : ∃ acts s e, Runs probe (ascii "node1") {} acts s ∧
    s.gathered = [e] ∧ e.maxAckBacklog = 128 ∧ e.ackBacklog = 129 := by
  have h : Runs probe (ascii "node1") {} [.hook (.tcpV6SynRecvSock fullSock true)] _ :=
    Machines.Runs.nil.concat (.hook (Hook.tcpV6SynRecvSock fullSock true) fun _ => 0)
  obtain ⟨-, -, acts', s', h', hacts', hdrained⟩ := overflows_reported h
  obtain ⟨hmem, ⟨done, waiting, hsub, hmade, hlen⟩, -⟩ := overflows_reported (h.append h')
  rw [hdrained.1, List.length_nil, List.length_eq_zero_iff] at hlen
  rw [hlen, List.append_nil, submitting_append_of_delivery _ _ hacts'] at hsub
  have hone : submitting probe [.hook (.tcpV6SynRecvSock fullSock true)]
      = [.tcpV6SynRecvSock fullSock true] := rfl
  rw [hdrained.2, List.append_nil, ← hsub, hone] at hmade
  obtain ⟨e, rest, hreports, hnil, hgathered⟩ := List.forall₂_cons_left_iff.mp hmade
  obtain rfl := List.forall₂_nil_left_iff.mp hnil
  obtain ⟨nr, hholds, -⟩ := hreports.holds
  refine ⟨_, s', e, h.append h', hgathered, ?_, ?_⟩
  · exact Option.some.inj hholds.skMaxAckBacklog.symm
  · exact Option.some.inj hholds.skAckBacklog.symm

end Runs

end Kubebpfbox.Tcpsynbl
