import Kubebpfbox.Lib.Layout
import Kubebpfbox.Oomkill.OomKillProcess

/-!
# The record on its way to user space

`OomkillInfo.toBytes` is `struct event` as `bpf_ringbuf_output` copies it; `OomkillEvent` is the
struct bpf2go generated for it, and `OomkillEvent.read` is `binary.Read` into it
(`plugins/oomkill/oomkill_bpfel_x86.go`).

The struct has no padding.  So the two layouts agree (`OomkillEvent.read_toBytes`), and every record
of 176 bytes is read (`exists_toBytes_eq`).
-/

namespace Kubebpfbox.Oomkill

open Bytes Layout

/-- `struct event` in memory. -/
def OomkillInfo.toBytes (p : OomkillInfo) (pad : ℕ → UInt8) : List UInt8 :=
  structBytes pad 8 [
    .u32 p.fpid,
    .u32 p.tpid,
    .u64 p.pages,
    .u8s p.fcomm,
    .u8s p.tcomm,
    .u8s p.message]

/-- `oomkillEvent`. -/
structure OomkillEvent where
  fpid : UInt32
  tpid : UInt32
  pages : UInt64
  fcomm : Vector UInt8 16
  tcomm : Vector UInt8 16
  message : Vector UInt8 128
  deriving DecidableEq

/-- The fields of `oomkillEvent` in order. -/
def OomkillEvent.reader : Reader OomkillEvent := do
  let fpid ← Reader.u32
  let tpid ← Reader.u32
  let pages ← Reader.u64
  let fcomm ← Reader.u8s 16
  let tcomm ← Reader.u8s 16
  let message ← Reader.u8s 128
  return { fpid, tpid, pages, fcomm, tcomm, message }

/-- `binary.Read(bytes.NewBuffer(rawSample), binary.LittleEndian, &event)`. -/
def OomkillEvent.read (rawSample : List UInt8) : Option OomkillEvent :=
  (OomkillEvent.reader rawSample).map Prod.fst

/-- The record, field by field. -/
def OomkillInfo.toOomkillEvent (p : OomkillInfo) : OomkillEvent where
  fpid := p.fpid
  tpid := p.tpid
  pages := p.pages
  fcomm := p.fcomm
  tcomm := p.tcomm
  message := p.message

/-- The layout of `struct event`: there is no padding. -/
theorem OomkillInfo.toBytes_eq (p : OomkillInfo) (pad : ℕ → UInt8) :
    p.toBytes pad =
      bytesLE 4 p.fpid.toNat ++ (bytesLE 4 p.tpid.toNat ++ (bytesLE 8 p.pages.toNat ++
      (p.fcomm.toList ++ (p.tcomm.toList ++ (p.message.toList ++ []))))) := by
  have hfcomm : p.fcomm.toList.length = 16 := p.fcomm.length_toList
  have htcomm : p.tcomm.toList.length = 16 := p.tcomm.length_toList
  have hmessage : p.message.toList.length = 128 := p.message.length_toList
  simp [OomkillInfo.toBytes, structBytes, padTo, Member.u8s, Member.u32, Member.u64, hfcomm,
    htcomm, hmessage]

theorem OomkillInfo.length_toBytes (p : OomkillInfo) (pad : ℕ → UInt8) :
    (p.toBytes pad).length = 176 := by
  have hfcomm : p.fcomm.toList.length = 16 := p.fcomm.length_toList
  have htcomm : p.tcomm.toList.length = 16 := p.tcomm.length_toList
  have hmessage : p.message.toList.length = 128 := p.message.length_toList
  rw [OomkillInfo.toBytes_eq]
  simp only [List.length_append, length_bytesLE, List.length_nil, hfcomm, htcomm, hmessage]

/-- **The two layouts agree.** -/
theorem OomkillEvent.read_toBytes (p : OomkillInfo) (pad : ℕ → UInt8) :
    OomkillEvent.read (p.toBytes pad) = some p.toOomkillEvent := by
  have hreader : OomkillEvent.reader (p.toBytes pad) = some (p.toOomkillEvent, []) := by
    rw [OomkillInfo.toBytes_eq, OomkillEvent.reader]
    rw [Reader.read_bind (Reader.read_u32 _ _), Reader.read_bind (Reader.read_u32 _ _),
      Reader.read_bind (Reader.read_u64 _ _)]
    -- the lengths of the arrays are the constants of the C file
    refine (Reader.read_bind (Reader.read_u8s (n := 16) p.fcomm _)).trans ?_
    refine (Reader.read_bind (Reader.read_u8s (n := 16) p.tcomm _)).trans ?_
    exact Reader.read_bind (Reader.read_u8s (n := 128) p.message _)
  rw [OomkillEvent.read, hreader]
  rfl

/-- **Every record of 176 bytes is read**, and is that of a struct. -/
theorem exists_toBytes_eq {rawSample : List UInt8} (h : rawSample.length = 176)
    (pad : ℕ → UInt8) :
    ∃ p : OomkillInfo, p.toBytes pad = rawSample ∧
      OomkillEvent.read rawSample = some p.toOomkillEvent := by
  -- cut the sample where the fields begin
  obtain ⟨a, rest, rfl, ha, hrest⟩ := exists_append_of_length (m := 4) (n := 172) h
  obtain ⟨b, rest, rfl, hb, hrest⟩ := exists_append_of_length (m := 4) (n := 168) hrest
  obtain ⟨c, rest, rfl, hc, hrest⟩ := exists_append_of_length (m := 8) (n := 160) hrest
  obtain ⟨d, rest, rfl, hd, hrest⟩ := exists_append_of_length (m := 16) (n := 144) hrest
  obtain ⟨e, f, rfl, he, hf⟩ := exists_append_of_length (m := 16) (n := 128) hrest
  obtain ⟨fpid, rfl⟩ := exists_bytesLE_uint32 ha
  obtain ⟨tpid, rfl⟩ := exists_bytesLE_uint32 hb
  obtain ⟨pages, rfl⟩ := exists_bytesLE_uint64 hc
  let p : OomkillInfo := {
    fpid := fpid
    tpid := tpid
    pages := pages
    fcomm := ⟨d.toArray, hd⟩
    tcomm := ⟨e.toArray, he⟩
    message := ⟨f.toArray, hf⟩ }
  have hp : p.toBytes pad = bytesLE 4 fpid.toNat ++ (bytesLE 4 tpid.toNat ++
      (bytesLE 8 pages.toNat ++ (d ++ (e ++ f)))) := by
    rw [OomkillInfo.toBytes_eq, List.append_nil]
    rfl
  refine ⟨p, hp, ?_⟩
  rw [← hp]
  exact OomkillEvent.read_toBytes p pad

end Kubebpfbox.Oomkill
