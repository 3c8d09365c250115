import Kubebpfbox.Http.Equiv.LoadUrl
import Kubebpfbox.Http.Equiv.Trace

/-!
# The URL of a request

What the record holds of the URL, in terms of the bytes of the frame.

* `url_confined`: nothing from the end of the URL on reaches the record.
* `url_stable_iff`: when the URL does not depend on how many bytes follow it.
* `url_faithful_iff`: when the record holds the URL of the request line.
-/

namespace Kubebpfbox.Http

open Golang Slots Windows

variable {filterIp : FilterIp}

/-! ### Where the URL is -/

/-- Where the program looks for the URL: behind the method and one more byte. -/
def urlStart (skb : SkBuff) (method : HttpRequestMethod) : ℕ :=
  (parse skb).poffset.toNat + (getHttpRequestMethodLen method).toNat + 1

theorem urlStart_le (skb : SkBuff) (method : HttpRequestMethod) : urlStart skb method ≤ 141 := by
  have hihl : skb.iphdr.ihl.toNat ≤ 15 := ihl_le skb
  have hdoff : (parse skb).tcph.doff.toNat ≤ 15 := doff_le skb _
  have hlen : (getHttpRequestMethodLen method).toNat ≤ 6 := by cases method <;> decide
  rw [urlStart, toNat_poffset, SkBuff.tcpOffset]
  omega

theorem toNat_urlOffset (skb : SkBuff) (method : HttpRequestMethod) :
    ((parse skb).poffset + getHttpRequestMethodLen method + 1).toNat = urlStart skb method := by
  have hle : urlStart skb method ≤ 141 := urlStart_le skb method
  have hone : (1 : UInt32).toNat = 1 := rfl
  rw [UInt32.toNat_add, UInt32.toNat_add, hone]
  rw [urlStart] at *
  omega

/-- The bytes of the URL in the record. -/
theorem url_requestPacket (a : Arrival) (method : HttpRequestMethod) :
    (requestPacket a method).url
      = bufferOf ((urlReading a.skb (urlStart a.skb method)).copied 0 maxUrlLen) := by
  have hstart := toNat_urlOffset a.skb method
  have hle : urlStart a.skb method ≤ 141 := urlStart_le a.skb method
  rw [← hstart]
  exact loadUrlToMap_eq (by rw [hstart]; omega)

variable (filterIp) in
/-- The program stores `p` for the frame, in every `request_map` that has room for it. -/
def Stores (a : Arrival) (p : Packet) : Prop :=
  ∀ m, (socketFilterHttp filterIp a m).requestMap = m.put (parse a.skb).requestKey p

/-- What the program stores for a request. -/
theorem stores_requestPacket {a : Arrival} (h : Reaches filterIp a) {method : HttpRequestMethod}
    (hm : isHttpRequest (parse a.skb).preChar = some method) :
    Stores filterIp a (requestPacket a method) := by
  intro m
  rw [socketFilterHttp_of_reaches filterIp h, classify]
  simp only [hm]

theorem Stores.unique {a : Arrival} {p q : Packet} (hp : Stores filterIp a p)
    (hq : Stores filterIp a q) : p = q := by
  have hroom : (∅ : RequestMap).HasRoom (parse a.skb).requestKey := Or.inr (by decide)
  have hlook := congrArg (Bpf.HashMap.lookup · (parse a.skb).requestKey) ((hp ∅).symm.trans (hq ∅))
  simpa only [Bpf.HashMap.lookup_put hroom, if_true, Option.some.injEq] using hlook

/-- The URL is part of the payload. -/
theorem ne_zero_of_mem_url {skb : SkBuff} {method : HttpRequestMethod}
    (h : ∀ b ∈ skb.data.drop (parse skb).poffset.toNat, b ≠ 0) :
    ∀ b ∈ skb.data.drop (urlStart skb method), b ≠ 0 := by
  intro b hb
  refine h b (List.mem_of_mem_drop (i := (getHttpRequestMethodLen method).toNat + 1) ?_)
  rwa [List.drop_drop]

/-- The URL that starts at `start` ends `d` bytes on, at a blank or a question mark. -/
structure UrlEndsAt (skb : SkBuff) (start d : ℕ) : Prop where
  ends : ∃ b, skb.data[start + d]? = some b ∧ isUrlEnd b = true
  before : ∀ s, s < d → ∀ b, skb.data[start + s]? = some b → isUrlEnd b = false

section Reading

variable {skb : SkBuff} {start : ℕ}

theorem text_urlReading (s : ℕ) : (urlReading skb start).text s = skb.data.getD (start + s) 0 := rfl

theorem stops_urlReading (b : UInt8) : (urlReading skb start).stops b = isUrlEnd b := rfl

theorem stops_text_iff {s : ℕ} :
    (urlReading skb start).stops ((urlReading skb start).text s) = true ↔
      ∃ b, skb.data[start + s]? = some b ∧ isUrlEnd b = true := by
  have hzero : isUrlEnd 0 = false := by decide
  rw [stops_urlReading, text_urlReading, List.getD_eq_getElem?_getD]
  cases skb.data[start + s]? with
  | none => simp [hzero]
  | some b => simp

theorem UrlEndsAt.stops {d : ℕ} (h : UrlEndsAt skb start d) :
    (urlReading skb start).stops ((urlReading skb start).text d) = true := stops_text_iff.mpr h.ends

theorem UrlEndsAt.goesOn {d : ℕ} (h : UrlEndsAt skb start d) : (urlReading skb start).GoesOn d := by
  intro s hs
  by_contra hstop
  obtain ⟨b, hb, hend⟩ := stops_text_iff.mp (Bool.not_eq_false _ ▸ hstop)
  rw [h.before s hs b hb] at hend
  cases hend

/-- A kept byte lies in the frame. -/
theorem getElem?_of_kept {x : ℕ} (h : (urlReading skb start).Kept x) :
    skb.data[start + (urlReading skb start).source x]?
      = some ((urlReading skb start).text ((urlReading skb start).source x)) := by
  have hfits : 12 * (x / 16) + 16 ≤ skb.data.length - start := h.1
  have hsource : (urlReading skb start).source x = 12 * (x / 16) + x % 16 := rfl
  have hlt : start + (urlReading skb start).source x < skb.data.length := by
    rw [hsource]
    omega
  rw [text_urlReading, List.getD_eq_getElem?_getD, List.getElem?_eq_getElem hlt, Option.getD_some]

end Reading

/-! ### Requests with a given payload -/

/-- A frame from `hostA` to port 80 of `hostB`. -/
def requestArrival (payload : GoString) : Arrival where
  skb := tcpFrame hostA hostB (200, 1) (0, 80) payload
  now := 1000
  ringRoom := true

section RequestArrival

variable (payload : GoString)

theorem reaches_requestArrival : Reaches filterB (requestArrival payload) := by
  refine ⟨isTcpIpv4_tcpFrame .., ?_⟩
  rw [requestArrival, iphdr_tcpFrame, checkTargetIp,
    Bpf.HashMap.lookup_eq_none.mpr hostA_not_mem_filterB]
  rfl

theorem toNat_poffset_requestArrival : (parse (requestArrival payload).skb).poffset.toNat = 54 := by
  rw [requestArrival, poffset_parse_eq (plain_tcpFrame ..), payloadOffset_tcpFrame]
  rfl

theorem urlStart_requestArrival : urlStart (requestArrival payload).skb .get = 58 := by
  rw [urlStart, toNat_poffset_requestArrival]
  rfl

theorem isHttpRequest_requestArrival (hlen : 12 ≤ payload.length)
    (hget : ascii "GET" <+: payload) :
    isHttpRequest (parse (requestArrival payload).skb).preChar = some .get := by
  obtain ⟨rest, rfl⟩ := hget
  rw [requestArrival, preChar_parse (plain_tcpFrame ..), payload12_tcpFrame _ _ _ _ _ hlen,
    isHttpRequest, if_pos]
  simp only [Vector.getElem_ofFn]
  exact ⟨rfl, rfl, rfl⟩

theorem length_requestArrival :
    (requestArrival payload).skb.data.length = 54 + payload.length := length_tcpFrame ..

/-- The payload of the frame. -/
theorem getElem?_requestArrival (k : ℕ) :
    (requestArrival payload).skb.data[54 + k]? = payload[k]? := by
  have hhdr : (frameHeaders hostA hostB (200, 1) (0, 80) payload.length).length = 54 := rfl
  show (frameHeaders hostA hostB (200, 1) (0, 80) payload.length ++ payload)[54 + k]? = _
  rw [List.getElem?_append_right (by omega), hhdr, Nat.add_sub_cancel_left]

theorem getElem?_url_requestArrival (s : ℕ) :
    (requestArrival payload).skb.data[urlStart (requestArrival payload).skb .get + s]?
      = payload[4 + s]? := by
  rw [urlStart_requestArrival, show 58 + s = 54 + (4 + s) by omega, getElem?_requestArrival]

theorem drop_requestArrival : (requestArrival payload).skb.data.drop 54 = payload :=
  List.drop_left' rfl

end RequestArrival

/-- A request for the root with some header fields. -/
def rootRequest (fields : String) : GoString := ascii "GET / HTTP/1.0\r\n" ++ ascii fields ++
  ascii "\r\n"

theorem isHttpRequest_rootRequest (fields : String) :
    isHttpRequest (parse (requestArrival (rootRequest fields)).skb).preChar = some .get := by
  have hfront : (ascii "GET / HTTP/1.0\r\n").length = 16 := rfl
  refine isHttpRequest_requestArrival _ ?_ ⟨_, rfl⟩
  rw [rootRequest, List.length_append, List.length_append, hfront]
  omega

/-! ### Nothing behind the URL -/

/-- The record holds nothing from the end of the URL on. -/
structure Confined (skb : SkBuff) (start : ℕ) (url : Vector UInt8 maxUrlLen) : Prop where
  no_end : ∀ x (hx : x < maxUrlLen), url[x] ≠ ' '.toUInt8 ∧ url[x] ≠ '?'.toUInt8
  from_url : ∀ x (hx : x < maxUrlLen), url[x] ≠ 0 →
    ∃ k, start ≤ k ∧ skb.data[k]? = some url[x] ∧ ∀ d, UrlEndsAt skb start d → k < start + d
  /-- byte `x` of the buffer was read from a byte that ends the URL -/
  cleared : ∀ x b, skb.data[start + (12 * (x / 16) + x % 16)]? = some b → isUrlEnd b = true →
    ∀ y (hy : y < maxUrlLen), x ≤ y → url[y] = 0

theorem confined_copied (skb : SkBuff) (start : ℕ) :
    Confined skb start (bufferOf ((urlReading skb start).copied 0 maxUrlLen)) where
  no_end x hx := by
    rw [getElem_bufferOf _ hx]
    have hend : isUrlEnd ((urlReading skb start).copied 0 maxUrlLen x) = false := by
      by_cases hk : (urlReading skb start).Kept x
      · rw [Reading.copied_of_kept hx hk]
        exact hk.2 x le_rfl
      · rw [Reading.copied_of_not_kept hk]
        decide
    rw [isUrlEnd, Bool.or_eq_false_iff] at hend
    exact ⟨ne_of_beq_false hend.1, ne_of_beq_false hend.2⟩
  from_url x hx hne := by
    rw [getElem_bufferOf _ hx] at hne ⊢
    have hk : (urlReading skb start).Kept x := by
      by_contra hk
      exact hne (Reading.copied_of_not_kept hk)
    refine ⟨start + (urlReading skb start).source x, Nat.le_add_right .., ?_, fun d hd => ?_⟩
    · rw [Reading.copied_of_kept hx hk]
      exact getElem?_of_kept hk
    · -- the byte comes from in front of every end of the URL
      have hlt := hk.source_lt (show 0 < 16 by omega) (show 12 ≤ 16 by omega) hd.stops
      omega
  cleared x b hb hend y hy hxy := by
    rw [getElem_bufferOf _ hy]
    apply Reading.copied_of_not_kept
    exact Reading.not_kept_of_stops (stops_text_iff.mpr ⟨b, hb, hend⟩) hxy

/-- **Nothing behind the path leaks into the record**, whatever the frame holds. -/
theorem url_confined {a : Arrival} (h : Reaches filterIp a) {method : HttpRequestMethod}
    (hm : isHttpRequest (parse a.skb).preChar = some method) :
    ∃ p, Stores filterIp a p ∧ Confined a.skb (urlStart a.skb method) p.url := by
  refine ⟨requestPacket a method, stores_requestPacket h hm, ?_⟩
  rw [url_requestPacket]
  exact confined_copied ..

theorem url_confined_of_root : ∃ p, Stores filterB (requestArrival (rootRequest "Host: b\r\n")) p ∧
    Confined (requestArrival (rootRequest "Host: b\r\n")).skb
      (urlStart (requestArrival (rootRequest "Host: b\r\n")).skb .get) p.url :=
  url_confined (reaches_requestArrival _) (isHttpRequest_rootRequest _)

/-! ### What follows the URL -/

section Stable

variable {skb skb' : SkBuff} {start d : ℕ}

/-- Byte `x` of the buffer is read in front of the end of the URL, as is every byte before it. -/
def ReadBefore (d x : ℕ) : Prop := ∀ y, y ≤ x → 12 * (y / 16) + y % 16 < d

instance (d x : ℕ) : Decidable (ReadBefore d x) :=
  inferInstanceAs (Decidable (∀ y, y ≤ x → 12 * (y / 16) + y % 16 < d))

/-- No such byte comes from behind the window in which the end of the URL is first read. -/
theorem window_of_readBefore {x : ℕ} (h : ReadBefore d x) : x / 16 ≤ (d - 4) / 12 := by
  rcases Nat.eq_zero_or_pos (x / 16) with hzero | hpos
  · omega
  · -- the last byte of the window before
    have hlast := h (16 * (x / 16) - 1) (by omega)
    omega

theorem readBefore_of_lt {s : ℕ} (hs : 12 * ((d - 4) / 12) ≤ s) (hd : s < d)
    (hwin : s < 12 * ((d - 4) / 12) + 16) :
    ReadBefore d ((d - 4) / 12 * 16 + (s - 12 * ((d - 4) / 12))) := by
  intro y hy
  rcases Nat.lt_or_ge (y / 16) ((d - 4) / 12) with hlt | hge
  · omega
  · omega

theorem kept_iff_readBefore (hend : UrlEndsAt skb start d) {x : ℕ} :
    (urlReading skb start).Kept x ↔ start + 12 * (x / 16) + 16 ≤ skb.data.length ∧
      ReadBefore d x := by
  rw [Reading.kept_iff (show 0 < 16 by omega) (show 12 ≤ 16 by omega) hend.goesOn hend.stops]
  refine and_congr_left fun _ => ?_
  show 12 * (x / 16) + 16 ≤ skb.data.length - start ↔ _
  omega

/-- The frame holds its whole window `i`. -/
def HoldsWindow (skb : SkBuff) (start i : ℕ) : Prop := start + 12 * i + 16 ≤ skb.data.length

instance (skb : SkBuff) (start i : ℕ) : Decidable (HoldsWindow skb start i) :=
  inferInstanceAs (Decidable (_ ≤ _))

/-- Windows before the one in which the end of the URL is first read lie in front of it. -/
theorem holdsWindow_of_lt (hend : UrlEndsAt skb start d) {i : ℕ} (hi : i < (d - 4) / 12) :
    HoldsWindow skb start i := by
  obtain ⟨b, hb, -⟩ := hend.ends
  have hlt : start + d < skb.data.length := (List.getElem?_eq_some_iff.mp hb).1
  unfold HoldsWindow
  omega

theorem getElem_copied (hend : UrlEndsAt skb start d) {x : ℕ} (hx : x < maxUrlLen) :
    (bufferOf ((urlReading skb start).copied 0 maxUrlLen))[x] =
      if HoldsWindow skb start (x / 16) ∧ ReadBefore d x then
        skb.data.getD (start + (12 * (x / 16) + x % 16)) 0
      else 0 := by
  have hkept : (urlReading skb start).Kept x ↔
      HoldsWindow skb start (x / 16) ∧ ReadBefore d x := kept_iff_readBefore hend
  rw [getElem_bufferOf _ hx]
  by_cases hk : (urlReading skb start).Kept x
  · rw [Reading.copied_of_kept hx hk, if_pos (hkept.mp hk)]
    rfl
  · rw [Reading.copied_of_not_kept hk, if_neg fun h => hk (hkept.mpr h)]

variable (hend : UrlEndsAt skb start d) (hend' : UrlEndsAt skb' start d)
  (hsame : ∀ s, s ≤ d → skb.data[start + s]? = skb'.data[start + s]?)

include hsame in
theorem getD_eq_of_le {s : ℕ} (hs : s ≤ d) :
    skb.data.getD (start + s) 0 = skb'.data.getD (start + s) 0 := by
  rw [List.getD_eq_getElem?_getD, List.getD_eq_getElem?_getD, hsame s hs]

include hend hend' hsame

/-- A byte of the window in which the end of the URL is first read tells whether that window was
read, unless it is a zero. -/
theorem holdsWindow_iff_of_copied_eq (hd : d < 196) {s : ℕ} (hs : 12 * ((d - 4) / 12) ≤ s)
    (hsd : s < d) (hne : skb.data.getD (start + s) 0 ≠ 0)
    (heq : bufferOf ((urlReading skb start).copied 0 maxUrlLen)
      = bufferOf ((urlReading skb' start).copied 0 maxUrlLen)) :
    HoldsWindow skb start ((d - 4) / 12) ↔ HoldsWindow skb' start ((d - 4) / 12) := by
  -- the byte of the buffer that byte `s` of the URL goes to
  have hbefore := readBefore_of_lt hs hsd (by omega)
  have hdiv : ((d - 4) / 12 * 16 + (s - 12 * ((d - 4) / 12))) / 16 = (d - 4) / 12 := by omega
  have hsource : 12 * ((d - 4) / 12) + ((d - 4) / 12 * 16 + (s - 12 * ((d - 4) / 12))) % 16
      = s := by omega
  have hx : (d - 4) / 12 * 16 + (s - 12 * ((d - 4) / 12)) < maxUrlLen := by
    rw [maxUrlLen]
    omega
  have hbyte := congrArg (fun v : Vector UInt8 maxUrlLen =>
    v[(d - 4) / 12 * 16 + (s - 12 * ((d - 4) / 12))]) heq
  simp only [getElem_copied hend hx, getElem_copied hend' hx, hdiv, hsource, hbefore,
    and_true, ← getD_eq_of_le hsame hsd.le] at hbyte
  by_cases hw : HoldsWindow skb start ((d - 4) / 12)
  · refine iff_of_true hw ?_
    by_contra hw'
    rw [if_pos hw, if_neg hw'] at hbyte
    exact hne hbyte
  · refine iff_of_false hw fun hw' => ?_
    rw [if_neg hw, if_pos hw'] at hbyte
    exact hne hbyte.symm

/-- Byte `x` of the two buffers is the same, when the window in which the end of the URL is first
read is of no account. -/
theorem getElem_copied_eq {x : ℕ} (hx : x < maxUrlLen)
    (hwindow : x / 16 = (d - 4) / 12 → 12 * (x / 16) + x % 16 < d →
      (HoldsWindow skb start ((d - 4) / 12) ↔ HoldsWindow skb' start ((d - 4) / 12)) ∨
        skb.data.getD (start + (12 * (x / 16) + x % 16)) 0 = 0) :
    (bufferOf ((urlReading skb start).copied 0 maxUrlLen))[x]
      = (bufferOf ((urlReading skb' start).copied 0 maxUrlLen))[x] := by
  rw [getElem_copied hend hx, getElem_copied hend' hx]
  by_cases hbefore : ReadBefore d x
  · have hsource : 12 * (x / 16) + x % 16 < d := hbefore x le_rfl
    have hbyte := getD_eq_of_le hsame hsource.le
    rcases Nat.lt_or_eq_of_le (window_of_readBefore hbefore) with hlt | hi
    · -- both frames hold the earlier windows
      rw [if_pos ⟨holdsWindow_of_lt hend hlt, hbefore⟩,
        if_pos ⟨holdsWindow_of_lt hend' hlt, hbefore⟩, hbyte]
    · rcases hwindow hi hsource with hboth | hzero
      · rw [hi] at hbyte ⊢
        simp only [hboth, hbefore, and_true, hbyte]
      · rw [← hbyte, hzero, ite_self, ite_self]
  · rw [if_neg fun h => hbefore h.2, if_neg fun h => hbefore h.2]

/-- Two frames that agree up to the end of the URL leave the same in the buffer exactly when the
window in which that end is first read is not reached, lies in both frames or in neither, or holds
nothing but zeros in front of the end. -/
theorem copied_eq_iff :
    bufferOf ((urlReading skb start).copied 0 maxUrlLen)
        = bufferOf ((urlReading skb' start).copied 0 maxUrlLen) ↔
      196 ≤ d ∨ (HoldsWindow skb start ((d - 4) / 12) ↔ HoldsWindow skb' start ((d - 4) / 12)) ∨
        ∀ s, 12 * ((d - 4) / 12) ≤ s → s < d → skb.data[start + s]? = some 0 := by
  constructor
  · intro heq
    by_contra hcond
    simp only [not_or, not_forall, not_le] at hcond
    obtain ⟨hd, hwin, s, hs, hsd, hne⟩ := hcond
    refine hwin (holdsWindow_iff_of_copied_eq hend hend' hsame hd hs hsd (fun hzero => ?_) heq)
    -- the URL lies in the frame
    obtain ⟨b, hb, -⟩ := hend.ends
    have hlen : start + d < skb.data.length := (List.getElem?_eq_some_iff.mp hb).1
    apply hne
    rw [List.getElem?_eq_getElem (by omega), ← hzero, List.getD_eq_getElem?_getD,
      List.getElem?_eq_getElem (by omega), Option.getD_some]
  · intro hcond
    ext x hx : 1
    refine getElem_copied_eq hend hend' hsame hx fun hi hsource => ?_
    rcases hcond with hfar | hboth | hzero
    · rw [maxUrlLen] at hx
      omega
    · exact Or.inl hboth
    · right
      rw [List.getD_eq_getElem?_getD, hzero _ (by omega) hsource, Option.getD_some]

end Stable

/-- **The stored URL does not depend on what follows it** exactly when the end of the URL is out of
reach, or both frames or neither hold the window in which it is first read, or that window holds
nothing but zeros in front of it. -/
theorem url_stable_iff {a b : Arrival} (ha : Reaches filterIp a) (hb : Reaches filterIp b)
    {method : HttpRequestMethod} (hma : isHttpRequest (parse a.skb).preChar = some method)
    (hmb : isHttpRequest (parse b.skb).preChar = some method)
    (hip : (parse a.skb).ipHlen = (parse b.skb).ipHlen)
    (htcp : (parse a.skb).tcpHlen = (parse b.skb).tcpHlen) {d : ℕ}
    (hend : UrlEndsAt a.skb (urlStart a.skb method) d)
    (hsame : ∀ k, (parse a.skb).poffset.toNat ≤ k → k ≤ urlStart a.skb method + d →
      a.skb.data[k]? = b.skb.data[k]?) :
    ∃ p q, Stores filterIp a p ∧ Stores filterIp b q ∧
      (p.url = q.url ↔
        196 ≤ d ∨
        (HoldsWindow a.skb (urlStart a.skb method) ((d - 4) / 12) ↔
          HoldsWindow b.skb (urlStart b.skb method) ((d - 4) / 12)) ∨
        ∀ s, 12 * ((d - 4) / 12) ≤ s → s < d →
          a.skb.data[urlStart a.skb method + s]? = some 0) := by
  have hoffset : (parse b.skb).poffset = (parse a.skb).poffset := by
    show ethHlen + (parse b.skb).ipHlen + (parse b.skb).tcpHlen
      = ethHlen + (parse a.skb).ipHlen + (parse a.skb).tcpHlen
    rw [hip, htcp]
  have hstart : urlStart b.skb method = urlStart a.skb method := by
    rw [urlStart, hoffset, urlStart]
  have hbehind : (parse a.skb).poffset.toNat ≤ urlStart a.skb method := by
    rw [urlStart]
    omega
  have hurl : ∀ s, s ≤ d → a.skb.data[urlStart a.skb method + s]?
      = b.skb.data[urlStart a.skb method + s]? := fun s hs => hsame _ (by omega) (by omega)
  -- the URL of `b` ends where the one of `a` does
  have hend' : UrlEndsAt b.skb (urlStart a.skb method) d := by
    refine ⟨?_, fun s hs => ?_⟩
    · rw [← hurl d le_rfl]
      exact hend.ends
    · rw [← hurl s hs.le]
      exact hend.before s hs
  refine ⟨requestPacket a method, requestPacket b method, stores_requestPacket ha hma,
    stores_requestPacket hb hmb, ?_⟩
  rw [url_requestPacket, url_requestPacket, hstart]
  exact copied_eq_iff hend hend' hurl

theorem urlEndsAt_rootRequest (fields : String) :
    UrlEndsAt (requestArrival (rootRequest fields)).skb
      (urlStart (requestArrival (rootRequest fields)).skb .get) 1 := by
  constructor
  · refine ⟨' '.toUInt8, ?_, by decide⟩
    rw [getElem?_url_requestArrival]
    rfl
  · intro s hs b hb
    obtain rfl : s = 0 := by omega
    rw [getElem?_url_requestArrival] at hb
    obtain rfl : '/'.toUInt8 = b := Option.some.inj hb
    decide

/-- The two requests agree up to the end of the URL. -/
theorem rootRequest_agree (fields fields' : String) {k : ℕ}
    (hk : (parse (requestArrival (rootRequest fields)).skb).poffset.toNat ≤ k)
    (hend : k ≤ urlStart (requestArrival (rootRequest fields)).skb .get + 1) :
    (requestArrival (rootRequest fields)).skb.data[k]?
      = (requestArrival (rootRequest fields')).skb.data[k]? := by
  rw [toNat_poffset_requestArrival] at hk
  rw [urlStart_requestArrival] at hend
  obtain ⟨j, rfl⟩ := Nat.exists_eq_add_of_le hk
  rw [getElem?_requestArrival, getElem?_requestArrival]
  have hj : j < (ascii "GET / HTTP/1.0\r\n").length := by
    rw [show (ascii "GET / HTTP/1.0\r\n").length = 16 from rfl]
    omega
  rw [rootRequest, rootRequest, List.append_assoc, List.append_assoc,
    List.getElem?_append_left hj, List.getElem?_append_left hj]

theorem headerLengths_rootRequest (fields fields' : String) :
    (parse (requestArrival (rootRequest fields)).skb).ipHlen
        = (parse (requestArrival (rootRequest fields')).skb).ipHlen ∧
      (parse (requestArrival (rootRequest fields)).skb).tcpHlen
        = (parse (requestArrival (rootRequest fields')).skb).tcpHlen := by
  have hip : ∀ payload, (parse (requestArrival payload).skb).iph.ihl = 5 := fun payload =>
    plain_tcpFrame ..
  have htcp : ∀ payload, (parse (requestArrival payload).skb).tcph.doff = 5 := by
    intro payload
    rw [requestArrival, tcph_parse (plain_tcpFrame ..), tcpHeader_tcpFrame]
  constructor
  · show (parse _).iph.ihl.toUInt32 <<< 2 = (parse _).iph.ihl.toUInt32 <<< 2
    rw [hip, hip]
  · show (parse _).tcph.doff.toUInt32 <<< 2 = (parse _).tcph.doff.toUInt32 <<< 2
    rw [htcp, htcp]

theorem url_stable_iff_of_hosts : ∃ p q,
    Stores filterB (requestArrival (rootRequest "Host: a\r\n")) p ∧
    Stores filterB (requestArrival (rootRequest "Host: b\r\nAccept: text/html\r\n")) q ∧
    p.url = q.url := by
  obtain ⟨p, q, hp, hq, hiff⟩ := url_stable_iff (reaches_requestArrival (rootRequest "Host: a\r\n"))
    (reaches_requestArrival (rootRequest "Host: b\r\nAccept: text/html\r\n"))
    (isHttpRequest_rootRequest _) (isHttpRequest_rootRequest _)
    (headerLengths_rootRequest ..).1 (headerLengths_rootRequest ..).2 (urlEndsAt_rootRequest _)
    fun k hk hend => rootRequest_agree _ _ hk hend
  refine ⟨p, q, hp, hq, hiff.mpr (Or.inr (Or.inl (iff_of_true ?_ ?_)))⟩ <;>
  · rw [HoldsWindow, urlStart_requestArrival, length_requestArrival]
    decide

/-- A request line that ends the frame loses its URL, which is there when a header field follows. -/
theorem url_not_stable : ∃ p q,
    Stores filterB (requestArrival (rootRequest "")) p ∧
    Stores filterB (requestArrival (rootRequest "Host: b\r\n")) q ∧
    isHttpRequest (parse (requestArrival (rootRequest "")).skb).preChar = some .get ∧
    isHttpRequest (parse (requestArrival (rootRequest "Host: b\r\n")).skb).preChar = some .get ∧
    (parse (requestArrival (rootRequest "")).skb).ipHlen
      = (parse (requestArrival (rootRequest "Host: b\r\n")).skb).ipHlen ∧
    (parse (requestArrival (rootRequest "")).skb).tcpHlen
      = (parse (requestArrival (rootRequest "Host: b\r\n")).skb).tcpHlen ∧
    UrlEndsAt (requestArrival (rootRequest "")).skb
      (urlStart (requestArrival (rootRequest "")).skb .get) 1 ∧
    (∀ k, (parse (requestArrival (rootRequest "")).skb).poffset.toNat ≤ k →
      k ≤ urlStart (requestArrival (rootRequest "")).skb .get + 1 →
      (requestArrival (rootRequest "")).skb.data[k]?
        = (requestArrival (rootRequest "Host: b\r\n")).skb.data[k]?) ∧
    p.url ≠ q.url := by
  refine ⟨_, _, stores_requestPacket (reaches_requestArrival _) (isHttpRequest_rootRequest _),
    stores_requestPacket (reaches_requestArrival _) (isHttpRequest_rootRequest _),
    isHttpRequest_rootRequest _, isHttpRequest_rootRequest _, (headerLengths_rootRequest ..).1,
    (headerLengths_rootRequest ..).2, urlEndsAt_rootRequest _,
    fun k hk hend => rootRequest_agree _ _ hk hend, ?_⟩
  have hstart : urlStart (requestArrival (rootRequest "Host: b\r\n")).skb .get
      = urlStart (requestArrival (rootRequest "")).skb .get := by
    rw [urlStart_requestArrival, urlStart_requestArrival]
  have hend := urlEndsAt_rootRequest "Host: b\r\n"
  rw [hstart] at hend
  have hagree : ∀ s, s ≤ 1 →
      (requestArrival (rootRequest "")).skb.data[urlStart (requestArrival (rootRequest "")).skb .get
        + s]? = (requestArrival (rootRequest "Host: b\r\n")).skb.data[
          urlStart (requestArrival (rootRequest "")).skb .get + s]? := by
    intro s hs
    apply rootRequest_agree
    · rw [toNat_poffset_requestArrival, urlStart_requestArrival]
      omega
    · omega
  rw [url_requestPacket, url_requestPacket, hstart, ne_eq,
    copied_eq_iff (urlEndsAt_rootRequest "") hend hagree]
  rintro (hfar | hboth | hzero)
  · omega
  · rw [HoldsWindow, HoldsWindow, urlStart_requestArrival, length_requestArrival,
      length_requestArrival] at hboth
    exact absurd (hboth.mpr (by decide)) (by decide)
  · have hslash := hzero 0 (by decide) (by decide)
    rw [getElem?_url_requestArrival] at hslash
    exact absurd hslash (by decide)

/-! ### The URL as a whole -/

/-- The URL of the request line: what stands from `start` on in front of the first blank or question
mark, and not more than the buffer holds. -/
def SkBuff.urlAt (skb : SkBuff) (start : ℕ) : GoString :=
  ((skb.data.drop start).takeWhile fun b => !isUrlEnd b).take maxUrlLen

/-- In every four bytes the text says what it said in the four bytes before. -/
def Repeats (text : ℕ → UInt8) (n : ℕ) : Prop := ∀ s, 16 ≤ s → s < n → text s = text (s - 4)

/-- A text that agrees with its windows repeats itself behind the first of them. -/
theorem repeats_iff_source (text : ℕ → UInt8) (n : ℕ) :
    (∀ x, x < n → text (12 * (x / 16) + x % 16) = text x) ↔ Repeats text n := by
  constructor
  · intro h s
    induction s using Nat.strong_induction_on with
    | _ s ih =>
      intro hs hsn
      have hself := h s hsn
      have hprev := h (s - 4) (by omega)
      rcases Nat.lt_or_ge ((s - 4) / 16) (s / 16) with hlt | hge
      · -- the byte before is four bytes further on in the window before
        have hsame : 12 * ((s - 4) / 16) + (s - 4) % 16 = 12 * (s / 16) + s % 16 := by omega
        rw [← hself, ← hprev, hsame]
      · -- both lie in one window, and so do the bytes they come from
        have hdiv : (s - 4) / 16 = s / 16 := by omega
        rcases Nat.lt_or_ge (s / 16) 2 with hone | htwo
        · have hsource : 12 * (s / 16) + s % 16 = s - 4 := by omega
          rw [← hself, hsource]
        · have hback := ih (12 * (s / 16) + s % 16) (by omega) (by omega) (by omega)
          have hsource : 12 * ((s - 4) / 16) + (s - 4) % 16 = 12 * (s / 16) + s % 16 - 4 := by
            omega
          rw [← hself, ← hprev, hsource, hback]
  · intro h x hx
    -- four bytes back for each window in front of `x`
    have hback : ∀ k, k ≤ x / 16 → text (x - 4 * k) = text x := by
      intro k
      induction k with
      | zero => exact fun _ => rfl
      | succ k ih =>
        intro hk
        have hstep := h (x - 4 * k) (by omega) (by omega)
        rw [← ih (by omega), hstep]
        congr 1
    have hsource : 12 * (x / 16) + x % 16 = x - 4 * (x / 16) := by omega
    rw [hsource]
    exact hback _ le_rfl

section Whole

variable {skb : SkBuff} {start : ℕ}

/-- The buffer as a list, when `n` bytes are kept. -/
theorem toList_copied {n : ℕ} (hn : n ≤ maxUrlLen)
    (hkept : ∀ x, x < maxUrlLen → ((urlReading skb start).Kept x ↔ x < n)) :
    (bufferOf ((urlReading skb start).copied 0 maxUrlLen)).toList =
      ((List.range n).map fun x => (urlReading skb start).text ((urlReading skb start).source x)) ++
        List.replicate (maxUrlLen - n) 0 := by
  apply List.ext_getElem
  · rw [Vector.length_toList, List.length_append, List.length_map, List.length_range,
      List.length_replicate]
    omega
  · intro x hx _
    rw [Vector.length_toList] at hx
    rw [Vector.getElem_toList, getElem_bufferOf _ hx]
    rcases Nat.lt_or_ge x n with hlt | hge
    · rw [Reading.copied_of_kept hx ((hkept x hx).mpr hlt), List.getElem_append_left (by simpa),
        List.getElem_map, List.getElem_range]
    · have hk : ¬ (urlReading skb start).Kept x := by
        rw [hkept x hx]
        omega
      rw [Reading.copied_of_not_kept hk, List.getElem_append_right (by simpa),
        List.getElem_replicate]

/-- The URL as a list: `e` bytes, and then either the buffer is full or the URL ends. -/
theorem exists_urlAt_eq (hlen : start + maxUrlLen ≤ skb.data.length) :
    ∃ e, e ≤ maxUrlLen ∧ skb.urlAt start = (List.range e).map (urlReading skb start).text ∧
      (urlReading skb start).GoesOn e ∧
      (e < maxUrlLen → (urlReading skb start).stops ((urlReading skb start).text e) = true) := by
  have hdrop : (skb.data.drop start).length = skb.data.length - start := List.length_drop
  have hbyte : ∀ s (hs : s < (skb.data.drop start).length),
      (skb.data.drop start)[s] = (urlReading skb start).text s := by
    intro s hs
    rw [text_urlReading, List.getElem_drop, List.getD_eq_getElem?_getD,
      List.getElem?_eq_getElem (by omega), Option.getD_some]
  -- the URL goes on to its first end byte or to the size of the buffer
  refine ⟨min maxUrlLen ((skb.data.drop start).findIdx isUrlEnd), Nat.min_le_left .., ?_, ?_, ?_⟩
  · rw [SkBuff.urlAt, List.takeWhile_eq_take_findIdx_not, List.take_take]
    simp only [Bool.not_not]
    show List.take (min maxUrlLen ((skb.data.drop start).findIdx isUrlEnd)) _ = _
    apply List.ext_getElem
    · rw [List.length_take, List.length_map, List.length_range]
      omega
    · intro s hs _
      rw [List.length_take] at hs
      rw [List.getElem_take, List.getElem_map, List.getElem_range, hbyte s (by omega)]
  · intro s hs
    have hidx : s < (skb.data.drop start).findIdx isUrlEnd := by omega
    have hlt : s < (skb.data.drop start).length := lt_of_lt_of_le hidx List.findIdx_le_length
    have hgo := List.not_of_lt_findIdx hidx
    rwa [hbyte s hlt] at hgo
  · intro he
    have hidx : min maxUrlLen ((skb.data.drop start).findIdx isUrlEnd)
        = (skb.data.drop start).findIdx isUrlEnd := by omega
    rw [hidx]
    have hlt : (skb.data.drop start).findIdx isUrlEnd < (skb.data.drop start).length := by omega
    have hstop := List.findIdx_getElem (w := hlt)
    rwa [hbyte _ hlt] at hstop

/-- Two images of ranges are the same when the ranges are, and the functions on them. -/
theorem map_range_eq_iff {f g : ℕ → UInt8} {n e : ℕ} :
    (List.range n).map f = (List.range e).map g ↔ n = e ∧ ∀ x, x < e → f x = g x := by
  constructor
  · intro heq
    have hne : n = e := by
      have hlength := congrArg List.length heq
      rwa [List.length_map, List.length_map, List.length_range, List.length_range] at hlength
    subst hne
    exact ⟨rfl, fun x hx => List.map_inj_left.mp heq x (List.mem_range.mpr hx)⟩
  · rintro ⟨rfl, hbytes⟩
    exact List.map_inj_left.mpr fun x hx => hbytes x (List.mem_range.mp hx)

theorem source_eq (x : ℕ) : (urlReading skb start).source x = 12 * (x / 16) + x % 16 := rfl

/-- A frame with as many bytes as the buffer holds every window. -/
theorem fits_of_le (hlen : start + maxUrlLen ≤ skb.data.length) {x : ℕ} (hx : x < maxUrlLen) :
    (urlReading skb start).Fits (x / 16) := by
  have hmax : maxUrlLen = 256 := rfl
  show 12 * (x / 16) + 16 ≤ skb.data.length - start
  omega

section Kept

variable {n : ℕ} (hn : n ≤ maxUrlLen)
  (hkept : ∀ x, x < maxUrlLen → ((urlReading skb start).Kept x ↔ x < n))
include hkept

include hn in
/-- What is kept of a text without zeros is what trimming leaves. -/
theorem trimRight_copied (hnul : ∀ b ∈ skb.data.drop start, b ≠ 0) :
    trimRight 0 (bufferOf ((urlReading skb start).copied 0 maxUrlLen)).toList
      = (List.range n).map fun x =>
        (urlReading skb start).text ((urlReading skb start).source x) := by
  rw [toList_copied hn hkept]
  refine trimRight_append_replicate (fun c hc => ?_) _
  obtain ⟨x, hx, rfl⟩ := List.mem_map.mp hc
  have hxn : x < n := List.mem_range.mp hx
  have hget := getElem?_of_kept ((hkept x (by omega)).mpr hxn)
  rw [← List.getElem?_drop] at hget
  exact hnul _ (List.mem_of_getElem? hget)

variable (hlen : start + maxUrlLen ≤ skb.data.length) {e : ℕ}
  (hgo : (urlReading skb start).GoesOn e)
include hlen hgo

/-- What is kept when the URL ends at `e`. -/
theorem lt_iff_of_stops (hend : (urlReading skb start).stops ((urlReading skb start).text e) = true)
    {x : ℕ} (hx : x < maxUrlLen) :
    x < n ↔ ∀ y, y ≤ x → (urlReading skb start).source y < e := by
  rw [← hkept x hx, Reading.kept_iff (show 0 < 16 by omega) (show 12 ≤ 16 by omega) hgo hend]
  exact and_iff_right (fits_of_le hlen hx)

/-- A URL that ends in the first window is kept. -/
theorem eq_of_stops_of_lt (he : e < 16)
    (hend : (urlReading skb start).stops ((urlReading skb start).text e) = true) : n = e := by
  have hmax : maxUrlLen = 256 := rfl
  have hsame : ∀ x, x < 16 → (x < n ↔ x < e) := by
    intro x hx
    rw [lt_iff_of_stops hkept hlen hgo hend (by omega)]
    constructor
    · intro h
      rw [← Reading.source_of_lt (r := urlReading skb start) hx]
      exact h x le_rfl
    · intro hxe y hy
      rw [Reading.source_of_lt (show y < 16 by omega)]
      omega
  -- byte `e` is cleared, the one before is kept
  have hcleared := hsame e he
  rcases Nat.eq_zero_or_pos e with hzero | hpos
  · omega
  · have hlast := hsame (e - 1) (by omega)
    omega

/-- Of a URL that ends behind the first window, too many bytes are kept. -/
theorem lt_of_stops_of_le (he : 16 ≤ e) (hemax : e < maxUrlLen)
    (hend : (urlReading skb start).stops ((urlReading skb start).text e) = true) : e < n := by
  rw [lt_iff_of_stops hkept hlen hgo hend hemax]
  intro y hy
  -- byte `y` was read at least four bytes before its place
  rw [source_eq]
  omega

/-- A URL that goes on fills the buffer. -/
theorem le_of_goesOn (he : maxUrlLen ≤ e) : maxUrlLen ≤ n := by
  have hmax : maxUrlLen = 256 := rfl
  have hlast : (urlReading skb start).Kept (maxUrlLen - 1) := by
    refine Reading.kept_of_lt hgo (fits_of_le hlen (by omega)) fun y hy => ?_
    rw [source_eq]
    omega
  have hlt := (hkept (maxUrlLen - 1) (by omega)).mp hlast
  omega

end Kept

/-- The buffer holds the URL of the request line exactly when the URL ends in the first window, or
when it fills the buffer and repeats itself. -/
theorem trimRight_copied_eq_iff (hlen : start + maxUrlLen ≤ skb.data.length)
    (hnul : ∀ b ∈ skb.data.drop start, b ≠ 0) :
    trimRight 0 (bufferOf ((urlReading skb start).copied 0 maxUrlLen)).toList = skb.urlAt start ↔
      (∃ s, s < 16 ∧ (urlReading skb start).stops ((urlReading skb start).text s) = true) ∨
        ((urlReading skb start).GoesOn maxUrlLen ∧
          Repeats (urlReading skb start).text maxUrlLen) := by
  have hmax : maxUrlLen = 256 := rfl
  obtain ⟨n, hn, hkept⟩ := Reading.exists_kept_iff (urlReading skb start) maxUrlLen
  obtain ⟨e, he, hurl, hgo, hstop⟩ := exists_urlAt_eq hlen
  rw [trimRight_copied hn hkept hnul, hurl, map_range_eq_iff]
  -- nothing in front of `e` ends the URL
  have hnone : 16 ≤ e → ¬ ∃ s, s < 16 ∧
      (urlReading skb start).stops ((urlReading skb start).text s) = true := by
    rintro hle ⟨s, hs, hstops⟩
    rw [hgo s (by omega)] at hstops
    cases hstops
  rcases Nat.lt_or_eq_of_le he with hlt | rfl
  · have hend := hstop hlt
    rcases Nat.lt_or_ge e 16 with hshort | hlong
    · -- in the first window every byte stays in its place
      refine iff_of_true ⟨eq_of_stops_of_lt hkept hlen hgo hshort hend, fun x hx => ?_⟩
        (Or.inl ⟨e, hshort, hend⟩)
      rw [Reading.source_of_lt (show x < 16 by omega)]
    · have hmore := lt_of_stops_of_le hkept hlen hgo hlong hlt hend
      refine iff_of_false (fun h => by omega) ?_
      rintro (hfirst | ⟨hgoes, -⟩)
      · exact hnone hlong hfirst
      · rw [hgoes e hlt] at hend
        cases hend
  · -- the buffer is filled
    have hfull := le_of_goesOn hkept hlen hgo le_rfl
    rw [← repeats_iff_source]
    constructor
    · rintro ⟨-, hbytes⟩
      exact Or.inr ⟨hgo, hbytes⟩
    · rintro (hfirst | ⟨-, hbytes⟩)
      · exact absurd hfirst (hnone (by omega))
      · exact ⟨by omega, hbytes⟩

end Whole

/-- **The record holds the URL of the request line** exactly when the URL ends in the first window,
or when it fills the buffer and repeats itself every four bytes. -/
theorem url_faithful_iff {a : Arrival} (h : Reaches filterIp a) {method : HttpRequestMethod}
    (hm : isHttpRequest (parse a.skb).preChar = some method)
    (hnul : ∀ b ∈ a.skb.data.drop (parse a.skb).poffset.toNat, b ≠ 0)
    (hlen : urlStart a.skb method + 256 ≤ a.skb.data.length) :
    ∃ p, Stores filterIp a p ∧
      (trimRight 0 p.url.toList = a.skb.urlAt (urlStart a.skb method) ↔
        (∃ s, s < 16 ∧ isUrlEnd (a.skb.data.getD (urlStart a.skb method + s) 0) = true) ∨
        ((∀ s, s < 256 →
            isUrlEnd (a.skb.data.getD (urlStart a.skb method + s) 0) = false) ∧
          ∀ s, 16 ≤ s → s < 256 → a.skb.data.getD (urlStart a.skb method + s) 0
            = a.skb.data.getD (urlStart a.skb method + (s - 4)) 0)) := by
  refine ⟨requestPacket a method, stores_requestPacket h hm, ?_⟩
  rw [url_requestPacket]
  exact trimRight_copied_eq_iff hlen (ne_zero_of_mem_url hnul)

/-- A request with a long body. -/
def longRequest (url : String) : GoString :=
  ascii "GET " ++ ascii url ++ ascii " HTTP/1.1 " ++ List.replicate 300 'x'.toUInt8

section LongRequest

variable (url : String)

theorem isHttpRequest_longRequest :
    isHttpRequest (parse (requestArrival (longRequest url)).skb).preChar = some .get := by
  have hprefix : ascii "GET" <+: longRequest url :=
    ⟨ascii " " ++ ascii url ++ ascii " HTTP/1.1 " ++ List.replicate 300 'x'.toUInt8, rfl⟩
  refine isHttpRequest_requestArrival _ ?_ hprefix
  rw [longRequest, List.length_append, List.length_replicate]
  omega

theorem length_longRequest : urlStart (requestArrival (longRequest url)).skb .get + 256
    ≤ (requestArrival (longRequest url)).skb.data.length := by
  rw [urlStart_requestArrival, length_requestArrival, longRequest, List.length_append,
    List.length_replicate]
  omega

theorem ne_zero_of_mem_longRequest (hurl : 0 ∉ ascii url) :
    ∀ b ∈ (requestArrival (longRequest url)).skb.data.drop
      (parse (requestArrival (longRequest url)).skb).poffset.toNat, b ≠ 0 := by
  have hfront : (0 : UInt8) ∉ ascii "GET " := by decide
  have hversion : (0 : UInt8) ∉ ascii " HTTP/1.1 " := by decide
  have hbody : (0 : UInt8) ∉ List.replicate 300 'x'.toUInt8 := by
    intro hmem
    exact absurd (List.eq_of_mem_replicate hmem) (by decide)
  rintro b hb rfl
  rw [toNat_poffset_requestArrival, drop_requestArrival, longRequest] at hb
  rcases List.mem_append.mp hb with hb | hb
  · rcases List.mem_append.mp hb with hb | hb
    · rcases List.mem_append.mp hb with hb | hb
      · exact hfront hb
      · exact hurl hb
    · exact hversion hb
  · exact hbody hb

/-- A byte of the URL. -/
theorem getD_url_longRequest {s : ℕ} {b : UInt8}
    (hb : (ascii url ++ ascii " HTTP/1.1 ")[s]? = some b) :
    (requestArrival (longRequest url)).skb.data.getD
      (urlStart (requestArrival (longRequest url)).skb .get + s) 0 = b := by
  have hfour : (ascii "GET ").length = 4 := rfl
  have hlt : s < (ascii url ++ ascii " HTTP/1.1 ").length := (List.getElem?_eq_some_iff.mp hb).1
  rw [List.getD_eq_getElem?_getD, getElem?_url_requestArrival, longRequest, List.append_assoc,
    List.append_assoc, List.getElem?_append_right (by omega), hfour, Nat.add_sub_cancel_left,
    ← List.append_assoc, List.getElem?_append_left hlt, hb, Option.getD_some]

end LongRequest

theorem url_faithful_iff_of_root : ∃ p, Stores filterB (requestArrival (longRequest "/")) p ∧
    trimRight 0 p.url.toList = (requestArrival (longRequest "/")).skb.urlAt
      (urlStart (requestArrival (longRequest "/")).skb .get) := by
  obtain ⟨p, hp, hiff⟩ := url_faithful_iff (reaches_requestArrival (longRequest "/"))
    (isHttpRequest_longRequest "/") (ne_zero_of_mem_longRequest "/" (by decide))
    (length_longRequest "/")
  have hblank : isUrlEnd ((requestArrival (longRequest "/")).skb.data.getD
      (urlStart (requestArrival (longRequest "/")).skb .get + 1) 0) = true := by
    rw [getD_url_longRequest "/" (show _ = some ' '.toUInt8 from rfl)]
    decide
  exact ⟨p, hp, hiff.mpr (Or.inl ⟨1, by decide, hblank⟩)⟩

/-- The URL `/static/index.html` is longer than one window. -/
theorem url_not_faithful : ∃ p,
    Stores filterB (requestArrival (longRequest "/static/index.html")) p ∧
    isHttpRequest (parse (requestArrival (longRequest "/static/index.html")).skb).preChar
      = some .get ∧
    (∀ b ∈ (requestArrival (longRequest "/static/index.html")).skb.data.drop
      (parse (requestArrival (longRequest "/static/index.html")).skb).poffset.toNat, b ≠ 0) ∧
    urlStart (requestArrival (longRequest "/static/index.html")).skb .get + 256
      ≤ (requestArrival (longRequest "/static/index.html")).skb.data.length ∧
    trimRight 0 p.url.toList ≠ (requestArrival (longRequest "/static/index.html")).skb.urlAt
      (urlStart (requestArrival (longRequest "/static/index.html")).skb .get) := by
  have hnul := ne_zero_of_mem_longRequest "/static/index.html" (by decide)
  refine ⟨_, stores_requestPacket (reaches_requestArrival _) (isHttpRequest_longRequest _),
    isHttpRequest_longRequest _, hnul, length_longRequest _, ?_⟩
  rw [url_requestPacket, ne_eq,
    trimRight_copied_eq_iff (length_longRequest _) (ne_zero_of_mem_url hnul)]
  have hbyte : ∀ s b, (ascii "/static/index.html" ++ ascii " HTTP/1.1 ")[s]? = some b →
      (urlReading (requestArrival (longRequest "/static/index.html")).skb
        (urlStart (requestArrival (longRequest "/static/index.html")).skb .get)).text s = b := by
    intro s b hb
    rw [text_urlReading]
    exact getD_url_longRequest "/static/index.html" hb
  rintro (⟨s, hs, hend⟩ | ⟨hgo, -⟩)
  · -- no byte of the first window ends the URL
    have hwindow : ∀ s, s < 16 → ∃ b, (ascii "/static/index.html" ++ ascii " HTTP/1.1 ")[s]?
        = some b ∧ isUrlEnd b = false := by decide
    obtain ⟨b, hb, hnot⟩ := hwindow s hs
    rw [hbyte s b hb, stops_urlReading, hnot] at hend
    cases hend
  · have hend : isUrlEnd ' '.toUInt8 = true := by decide
    rw [Reading.GoesOn] at hgo
    have hblank := hgo 18 (by decide)
    rw [hbyte 18 ' '.toUInt8 rfl, stops_urlReading, hend] at hblank
    cases hblank

end Kubebpfbox.Http
