import Kubebpfbox.Pid2Pod.Basic

/-!
# What the cgroup pattern recognises

`matches_idPattern` splits a match of the pattern into its pieces.  From it follow the two
facts the lookup rests on: a line without `/kubepods` has no match (`lineIds_eq_none`), and the line
of a burstable pod has its two ids as groups (`lineIds_burstableLine`).  `lookupIdByPid_contents` is
the lookup in a whole file.
-/

namespace Kubebpfbox.Pid2Pod

open Golang Regexp

/-! ### Texts of the pattern -/

theorem charClass_eq_true_iff {b : UInt8} (hb : b ≠ 46) {r : GoString} :
    charClass b r = true ↔ r = [b] := by
  rw [charClass, if_neg hb, decide_eq_true_iff]

theorem charClass_self {b : UInt8} (hb : b ≠ 10) : charClass b [b] = true := by
  unfold charClass
  split_ifs
  · simpa [isAnyRune] using hb
  · exact decide_eq_true rfl

/-- A text matches as many runes as it has characters. -/
theorem length_of_matches_dotted {s : GoString} {m : List GoString} {gs : List (List GoString)}
    (h : (dotted s).Matches m gs) : m.length = s.length := by
  rw [← (matches_word.mp h).1.length_eq, List.length_map]

/-- A text matches itself. -/
theorem matches_dotted_chars {s : GoString} (hs : 10 ∉ s) : (dotted s).Matches (chars s) [] := by
  refine matches_word.mpr ⟨?_, rfl⟩
  induction s with
  | nil => exact List.Forall₂.nil
  | cons b s ih =>
    rw [List.mem_cons, not_or] at hs
    exact List.Forall₂.cons (charClass_self (Ne.symm hs.1)) (ih hs.2)

/-- The part of a text before its first dot matches itself alone. -/
theorem prefix_of_matches_dotted {s t : GoString} (hs : 46 ∉ s) {m : List GoString}
    {gs : List (List GoString)} (h : (dotted (s ++ t)).Matches m gs) : chars s <+: m := by
  have hall := (matches_word.mp h).1
  clear h
  induction s generalizing m with
  | nil => exact List.nil_prefix
  | cons b s ih =>
    rw [List.mem_cons, not_or] at hs
    obtain ⟨r, m', hr, hrest, rfl⟩ := List.forall₂_cons_left_iff.mp hall
    rw [(charClass_eq_true_iff (Ne.symm hs.1)).mp hr]
    exact List.cons_prefix_cons.mpr ⟨rfl, ih hs.2 hrest⟩

/-! ### Matches of the pattern -/

/-- A pattern of the shape of `kubeSystemdPattern`, with its four texts. -/
def idPattern (colon slice mid scope : GoString) : Regexp GoString := .seq [
  .plus isDigitRune, dotted colon, .plus isAnyRune, dotted slice, .group (.times isIdRune 36),
  dotted mid, .group (.times isIdRune 64), dotted scope]

/-- The text of the pattern before the UID. -/
def slicePath : GoString :=
  ascii ":/kubepods.slice/kubepods-burstable.slice/kubepods-burstable-pod"

/-- The text behind `/kubepods`, up to the UID. -/
def burstablePath : GoString := ascii ".slice/kubepods-burstable.slice/kubepods-burstable-pod"

theorem slicePath_eq : slicePath = ascii ":" ++ ascii "/kubepods" ++ burstablePath := by
  decide +kernel

/-- The text of the pattern between the two ids. -/
def scopePath : GoString := ascii ".slice/cri-containerd-"

theorem kubeSystemdPattern_eq :
    kubeSystemdPattern = idPattern (ascii ":") slicePath scopePath (ascii ".scope") := rfl

/-- The pieces of a match. -/
structure Pieces where
  hierarchy : List GoString
  colon : List GoString
  controllers : List GoString
  slice : List GoString
  podId : List GoString
  mid : List GoString
  containerId : List GoString
  scope : List GoString

/-- The pieces one after another. -/
def Pieces.join (x : Pieces) : List GoString :=
  x.hierarchy ++ (x.colon ++ (x.controllers ++ (x.slice ++ (x.podId ++ (x.mid ++
    (x.containerId ++ x.scope))))))

/-- What a pattern asks of the pieces. -/
structure Pieces.Fit (colon slice mid scope : GoString) (x : Pieces) : Prop where
  hierarchy : x.hierarchy ≠ [] ∧ ∀ r ∈ x.hierarchy, isDigitRune r = true
  colon : (dotted colon).Matches x.colon []
  controllers : x.controllers ≠ [] ∧ ∀ r ∈ x.controllers, isAnyRune r = true
  slice : (dotted slice).Matches x.slice []
  podId : x.podId.length = 36 ∧ ∀ r ∈ x.podId, isIdRune r = true
  mid : (dotted mid).Matches x.mid []
  containerId : x.containerId.length = 64 ∧ ∀ r ∈ x.containerId, isIdRune r = true
  scope : (dotted scope).Matches x.scope []

theorem groups_of_matches_dotted {s : GoString} {m : List GoString} {gs : List (List GoString)}
    (h : (dotted s).Matches m gs) : gs = [] := (matches_word.mp h).2

/-- A match falls into pieces, and its groups are the two ids. -/
theorem matches_idPattern {colon slice mid scope : GoString} {m : List GoString}
    {gs : List (List GoString)} :
    (idPattern colon slice mid scope).Matches m gs ↔
      ∃ x : Pieces, x.Fit colon slice mid scope ∧ m = x.join ∧ gs = [x.podId, x.containerId] := by
  constructor
  · intro h
    -- the expression is a chain of eight, and the groups of all but two of them are empty
    obtain ⟨d, _, m₁, gs₁, hd, h, hm, hgs⟩ := matches_cat.mp h
    obtain ⟨l, _, m₂, gs₂, hl, h, hm₁, hgs₁⟩ := matches_cat.mp h
    obtain ⟨c, _, m₃, gs₃, hc, h, hm₂, hgs₂⟩ := matches_cat.mp h
    obtain ⟨p, _, m₄, gs₄, hp, h, hm₃, hgs₃⟩ := matches_cat.mp h
    obtain ⟨u, _, m₅, gs₅, hu, h, hm₄, hgs₄⟩ := matches_cat.mp h
    obtain ⟨q, _, m₆, gs₆, hq, h, hm₅, hgs₅⟩ := matches_cat.mp h
    obtain ⟨e, _, m₇, gs₇, he, h, hm₆, hgs₆⟩ := matches_cat.mp h
    obtain ⟨s, _, m₈, gs₈, hs, h, hm₇, hgs₇⟩ := matches_cat.mp h
    obtain ⟨hm₈, hgs₈⟩ := matches_empty.mp h
    obtain ⟨_, hu, hug⟩ := matches_group.mp hu
    obtain ⟨_, he, heg⟩ := matches_group.mp he
    obtain rfl := groups_of_matches_dotted hl
    obtain rfl := groups_of_matches_dotted hp
    obtain rfl := groups_of_matches_dotted hq
    obtain rfl := groups_of_matches_dotted hs
    refine ⟨⟨d, l, c, p, u, q, e, s⟩, ⟨hd.1, hl, hc.1, hp, (matches_times.mp hu).1, hq,
      (matches_times.mp he).1, hs⟩, ?_, ?_⟩
    · rw [hm, hm₁, hm₂, hm₃, hm₄, hm₅, hm₆, hm₇, hm₈, List.append_nil, Pieces.join]
    · rw [hgs, hgs₁, hgs₂, hgs₃, hgs₄, hgs₅, hgs₆, hgs₇, hgs₈, hd.2, hc.2, hug, heg,
        (matches_times.mp hu).2, (matches_times.mp he).2]
      rfl
  · rintro ⟨x, h, rfl, rfl⟩
    refine ⟨_, [], _, _, ⟨h.hierarchy, rfl⟩, ?_, rfl, rfl⟩
    refine ⟨_, [], _, _, h.colon, ?_, rfl, rfl⟩
    refine ⟨_, [], _, _, ⟨h.controllers, rfl⟩, ?_, rfl, rfl⟩
    refine ⟨_, [], _, _, h.slice, ?_, rfl, rfl⟩
    refine ⟨_, [x.podId], _, [x.containerId], ⟨[], matches_times.mpr ⟨h.podId, rfl⟩, rfl⟩, ?_, rfl,
      rfl⟩
    refine ⟨_, [], _, _, h.mid, ?_, rfl, rfl⟩
    refine ⟨_, [x.containerId], _, [], ⟨[], matches_times.mpr ⟨h.containerId, rfl⟩, rfl⟩, ?_, rfl,
      rfl⟩
    exact ⟨_, [], [], [], h.scope, ⟨rfl, rfl⟩, (List.append_nil _).symm, rfl⟩

/-- The pieces fit `kubeSystemdPattern`. -/
abbrev Pieces.FitSystemd : Pieces → Prop :=
  Pieces.Fit (ascii ":") slicePath scopePath (ascii ".scope")

/-- The text before the UID begins with `:/kubepods`. -/
theorem Pieces.FitSystemd.slice_prefix {x : Pieces} (h : x.FitSystemd) :
    chars (ascii ":") ++ chars (ascii "/kubepods") <+: x.slice := by
  rw [← chars_append]
  have hslice := h.slice
  rw [slicePath_eq] at hslice
  exact prefix_of_matches_dotted (by decide) hslice

/-! ### Lines without a match -/

/-- The groups of a line that has a match. -/
theorem exists_pieces_of_lineIds {line : GoString} {ids : GoString × GoString}
    (h : lineIds line = some ids) :
    ∃ (pre post : List GoString) (x : Pieces), x.FitSystemd ∧ runes line = pre ++ x.join ++ post ∧
      ids = (x.podId.flatten, x.containerId.flatten) := by
  unfold lineIds findStringSubmatch at h
  cases hfind : kubeSystemdPattern.findSubmatch (runes line) with
  | none =>
    rw [hfind] at h
    cases h
  | some l =>
    obtain ⟨pre, m, gs, post, hline, hm, rfl⟩ := exists_of_findSubmatch hfind
    rw [kubeSystemdPattern_eq] at hm
    obtain ⟨x, hfit, rfl, rfl⟩ := matches_idPattern.mp hm
    rw [hfind] at h
    cases h
    exact ⟨pre, post, x, hfit, hline, rfl⟩

/-- No ids are found in a line without `/kubepods`. -/
theorem lineIds_eq_none {line : GoString} (h : ¬ ascii "/kubepods" <:+: line) :
    lineIds line = none := by
  by_contra hids
  obtain ⟨ids, hids⟩ := Option.ne_none_iff_exists'.mp hids
  obtain ⟨pre, post, x, hfit, hline, -⟩ := exists_pieces_of_lineIds hids
  obtain ⟨rest, hslice⟩ := hfit.slice_prefix
  apply h
  have hsub : chars (ascii "/kubepods") <:+: runes line := by
    refine ⟨pre ++ (x.hierarchy ++ (x.colon ++ (x.controllers ++ chars (ascii ":")))),
      rest ++ (x.podId ++ (x.mid ++ (x.containerId ++ x.scope))) ++ post, ?_⟩
    rw [hline, Pieces.join, ← hslice]
    simp only [List.append_assoc]
  obtain ⟨a, b, hab⟩ := hsub
  refine ⟨a.flatten, b.flatten, ?_⟩
  rw [← flatten_runes line, ← hab, List.flatten_append, List.flatten_append, flatten_chars]

/-- Whatever the file, the UID that a lookup returns has no dash. -/
theorem dash_not_mem_of_lookupIdByPid {cgroup : UInt32 → Except GoString GoString} {pid : UInt32}
    {podId containerId : GoString} (h : lookupIdByPid cgroup pid = .ok (podId, containerId)) :
    45 ∉ podId := by
  unfold lookupIdByPid at h
  split at h
  · cases h
  · split at h
    · rename_i contents _ ids hfind
      cases h
      obtain ⟨line, -, hline⟩ := List.exists_of_findSome?_eq_some hfind
      obtain ⟨pre, post, x, hfit, -, heq⟩ := exists_pieces_of_lineIds hline
      rw [(Prod.mk.inj heq).1, List.mem_flatten]
      rintro ⟨r, hr, hdash⟩
      have hid := hfit.podId.2 r hr
      -- a rune of an id is one byte
      unfold isIdRune at hid
      split at hid
      · rename_i b
        rw [← List.mem_singleton.mp hdash] at hid
        revert hid
        decide
      · cases hid
    · cases h

/-! ### Where the pattern is found -/

/-- A separator pair is found at one place only, if its second half does not stand before that
place, nor its first half behind it. -/
theorem tail_eq_of_append {α : Type*} {a b t r : List α} {x y : α}
    (h : a ++ x :: y :: t = b ++ x :: r) (hr : x ∉ r) (hb : y ∉ b) (hxy : y ≠ x) : y :: t = r := by
  rcases List.append_eq_append_iff.mp h with ⟨c, hbc, hc⟩ | ⟨c, -, hc⟩
  · cases c with
    | nil => exact (List.cons.inj hc).2
    | cons z c =>
      have hc' := (List.cons.inj hc).2
      cases c with
      | nil => exact absurd (List.cons.inj hc').1 hxy
      | cons z' c =>
        rw [hbc, ← (List.cons.inj hc').1] at hb
        exact absurd (by simp) hb
  · cases c with
    | nil => exact (List.cons.inj hc).2.symm
    | cons z c =>
      rw [(List.cons.inj hc).2] at hr
      exact absurd (by simp) hr

/-- In a line whose last colon stands before `/kubepods`, what the pattern finds behind `/kubepods` is
what stands there. -/
theorem Pieces.FitSystemd.exists_rest {x : Pieces} (hx : x.FitSystemd) {front : List GoString}
    {path : GoString} {pre post : List GoString} (hfront : [47] ∉ front) (hpath : 58 ∉ path)
    (hline : front ++ [58] :: chars (ascii "/kubepods" ++ path) = pre ++ x.join ++ post) :
    ∃ rest, (dotted burstablePath).Matches rest [] ∧
      rest ++ (x.podId ++ (x.mid ++ (x.containerId ++ (x.scope ++ post)))) = chars path := by
  obtain ⟨rest, hslice⟩ := hx.slice_prefix
  have hkube : chars (ascii "/kubepods") = [47] :: chars (ascii "kubepods") := rfl
  have hcolon : chars (ascii ":") = [[58]] := rfl
  refine ⟨rest, ?_, ?_⟩
  · have hall := List.forall₂_drop 10 (matches_word.mp hx.slice).1
    have hten : (chars (ascii ":") ++ chars (ascii "/kubepods")).length = 10 := rfl
    have htext : (slicePath.map charClass).drop 10 = burstablePath.map charClass := by
      rw [← List.map_drop]
      exact congrArg _ (by decide +kernel)
    rw [← hslice, List.drop_left' hten, htext] at hall
    exact matches_word.mpr ⟨hall, rfl⟩
  · -- the colon before `/kubepods` is the last one of the line
    have htail : [47] :: (chars (ascii "kubepods") ++ (rest ++ (x.podId ++ (x.mid ++
        (x.containerId ++ (x.scope ++ post)))))) = chars (ascii "/kubepods" ++ path) := by
      apply tail_eq_of_append (x := [58])
        (a := pre ++ (x.hierarchy ++ (x.colon ++ x.controllers))) (b := front)
      · rw [hline, Pieces.join, ← hslice, hkube, hcolon]
        simp only [List.append_assoc, List.cons_append, List.nil_append]
      · rw [singleton_mem_chars, List.mem_append, not_or]
        exact ⟨by decide, hpath⟩
      · exact hfront
      · decide
    rw [chars_append, hkube, List.cons_append, List.cons.injEq] at htail
    exact List.append_cancel_left htail.2

/-! ### A line of a cgroup file -/

/-- The bytes of `[0-9a-f_]`. -/
def isIdByte (b : UInt8) : Bool := isIdRune [b]

theorem toNat_of_isIdByte {b : UInt8} (h : isIdByte b = true) :
    48 ≤ b.toNat ∧ b.toNat ≤ 57 ∨ 95 ≤ b.toNat ∧ b.toNat ≤ 102 := by
  simp only [isIdByte, isIdRune, isDigit, Bool.or_eq_true, Bool.and_eq_true, decide_eq_true_eq,
    beq_iff_eq, UInt8.le_iff_toNat_le] at h
  rcases h with (h | h) | rfl
  · exact Or.inl h
  · exact Or.inr ⟨le_trans (by decide) h.1, h.2⟩
  · decide

/-- An id holds neither a dash nor a colon. -/
theorem isIdByte_ascii {b : UInt8} (h : isIdByte b = true) : b < 0x80 ∧ b ≠ 45 ∧ b ≠ 58 := by
  have hb := toNat_of_isIdByte h
  refine ⟨?_, ?_, ?_⟩
  · show b.toNat < 128
    omega
  · rintro rfl
    revert hb
    decide
  · rintro rfl
    revert hb
    decide

/-- A number holds no slash. -/
theorem isDigit_ascii {b : UInt8} (h : isDigit b = true) : b < 0x80 ∧ b ≠ 47 := by
  simp only [isDigit, Bool.and_eq_true, decide_eq_true_eq] at h
  constructor
  · show b.toNat < 128
    omega
  · rintro rfl
    revert h
    decide

/-- The bytes that may stand in a path: the colon and the newline have a meaning of their own. -/
def PathBytes (s : GoString) : Prop := ∀ b ∈ s, b < 0x80 ∧ b ≠ 58 ∧ b ≠ 10

instance (s : GoString) : Decidable (PathBytes s) := inferInstanceAs (Decidable (∀ b ∈ s, _))

theorem PathBytes.append {s t : GoString} (hs : PathBytes s) (ht : PathBytes t) :
    PathBytes (s ++ t) := List.forall_mem_append.mpr ⟨hs, ht⟩

theorem pathBytes_of_isIdByte {s : GoString} (h : ∀ b ∈ s, isIdByte b = true) : PathBytes s := by
  intro b hb
  refine ⟨(isIdByte_ascii (h b hb)).1, (isIdByte_ascii (h b hb)).2.2, ?_⟩
  rintro rfl
  have hid := h 10 hb
  revert hid
  decide

section CgroupLine

variable {hierarchy controllers path : GoString}
  (hdigits : ∀ b ∈ hierarchy, isDigit b = true) (hpath : PathBytes path)

include hdigits in
/-- What stands before the controllers and their colon. -/
theorem front_ascii : ∀ b ∈ hierarchy ++ ascii ":", b < 0x80 ∧ b ≠ 47 ∧ b ≠ 10 := by
  intro b hb
  rcases List.mem_append.mp hb with hb | hb
  · have hdigit := hdigits b hb
    refine ⟨(isDigit_ascii hdigit).1, (isDigit_ascii hdigit).2, ?_⟩
    rintro rfl
    revert hdigit
    decide
  · rw [List.mem_singleton.mp hb]
    decide

include hdigits hpath in
/-- Only the controllers may have runes of more than one byte. -/
theorem runes_line : runes (hierarchy ++ ascii ":" ++ (controllers ++ 58 :: path)) =
    chars (hierarchy ++ ascii ":") ++ (runes controllers ++ [58] :: chars path) := by
  have hhead : ∀ b ∈ hierarchy ++ ascii ":", b < 0x80 := fun b hb => (front_ascii hdigits b hb).1
  rw [runes_ascii_append hhead, runes_append (by decide), runes_ascii_cons (by decide),
    runes_ascii fun b hb => (hpath b hb).1]

include hdigits in
/-- There is no slash in front of the path. -/
theorem slash_not_mem_front (hname : 47 ∉ controllers) :
    [47] ∉ chars (hierarchy ++ ascii ":") ++ runes controllers := by
  rw [List.mem_append, singleton_mem_chars]
  rintro (hmem | hmem)
  · exact (front_ascii hdigits 47 hmem).2.1 rfl
  · exact hname (singleton_mem_of_mem_runes hmem)

include hdigits hpath in
theorem newline_not_mem_line (hname : 10 ∉ controllers) :
    10 ∉ hierarchy ++ ascii ":" ++ (controllers ++ 58 :: path) := by
  rw [List.mem_append, List.mem_append (s := controllers), List.mem_cons]
  rintro (hmem | hmem | hmem | hmem)
  · exact (front_ascii hdigits 10 hmem).2.2 rfl
  · exact hname hmem
  · revert hmem
    decide
  · exact (hpath 10 hmem).2.2 rfl

/-- The scanner has no carriage return to drop. -/
theorem dropCR_scope (s : GoString) : dropCR (s ++ ascii ".scope") = s ++ ascii ".scope" := by
  have hlast : (s ++ ascii ".scope").getLast? = some 101 := by
    have hscope : ascii ".scope" = ascii ".scop" ++ [101] := rfl
    rw [hscope, ← List.append_assoc, List.getLast?_concat]
  rw [dropCR, hlast, if_neg (by decide)]

end CgroupLine

/-- The lookup passes the lines in front of the first one with `/kubepods`, as long as the scanner
does. -/
theorem findSome?_lineIds_append {before : List GoString}
    (hbefore : ∀ l ∈ before, 10 ∉ l ∧ ¬ ascii "/kubepods" <:+: l) (rest : GoString) :
    (scanLines ((before.map fun l => l ++ [10]).flatten ++ rest)).findSome? lineIds =
      if ∀ l ∈ before, l.length < maxScanTokenSize then (scanLines rest).findSome? lineIds
      else none := by
  induction before with
  | nil =>
    rw [List.map_nil, List.flatten_nil, List.nil_append, if_pos (List.forall_mem_nil _)]
  | cons l before ih =>
    obtain ⟨⟨hnewline, hkube⟩, hbefore⟩ := List.forall_mem_cons.mp hbefore
    have hnone : lineIds (dropCR l) = none := by
      apply lineIds_eq_none
      exact fun hsub => hkube (hsub.trans (isPrefix_dropCR l).isInfix)
    rw [List.map_cons, List.flatten_cons, List.append_assoc, List.append_assoc,
      List.singleton_append]
    by_cases hlen : l.length < maxScanTokenSize
    · rw [scanLines_append hnewline hlen, List.findSome?_cons, hnone]
      simp only [List.forall_mem_cons, hlen, true_and]
      exact ih hbefore
    · have hlong : ¬ ∀ l' ∈ l :: before, l'.length < maxScanTokenSize :=
        fun hshort => hlen (hshort l (List.mem_cons_self ..))
      rw [if_neg hlong, scanLines_append_of_le hnewline (Nat.not_lt.mp hlen)]
      rfl

/-! ### The line of a burstable pod -/

/-- The line that systemd and containerd make for a container of a burstable pod. -/
structure BurstableLine (podId containerId : GoString) where
  hierarchy : GoString
  controllers : GoString
  hierarchy_digits : hierarchy ≠ [] ∧ ∀ b ∈ hierarchy, isDigit b = true
  controllers_name : controllers ≠ [] ∧ 10 ∉ controllers ∧ 47 ∉ controllers

namespace BurstableLine

variable {podId containerId : GoString} (l : BurstableLine podId containerId)

/-- What follows the controllers and their colon. -/
def path (podId containerId : GoString) : GoString :=
  ascii "/kubepods" ++ (burstablePath ++ (podId ++ (scopePath ++ (containerId ++ ascii ".scope"))))

/-- The line itself. -/
def text : GoString :=
  l.hierarchy ++ ascii ":" ++ (l.controllers ++ 58 :: path podId containerId)

/-- The ids the pattern can recognise. -/
structure IdBytes (podId containerId : GoString) : Prop where
  podId_length : podId.length = 36
  podId_bytes : ∀ b ∈ podId, isIdByte b = true
  containerId_length : containerId.length = 64
  containerId_bytes : ∀ b ∈ containerId, isIdByte b = true

theorem pathBytes_path (h : IdBytes podId containerId) : PathBytes (path podId containerId) := by
  unfold path
  apply PathBytes.append (by decide +kernel)
  apply PathBytes.append (by decide +kernel)
  apply PathBytes.append (pathBytes_of_isIdByte h.podId_bytes)
  apply PathBytes.append (by decide +kernel)
  exact (pathBytes_of_isIdByte h.containerId_bytes).append (by decide +kernel)

theorem runes_text (h : IdBytes podId containerId) :
    runes l.text = chars (l.hierarchy ++ ascii ":") ++
      (runes l.controllers ++ [58] :: chars (path podId containerId)) :=
  runes_line l.hierarchy_digits.2 (pathBytes_path h)

/-- The pieces of the line. -/
def pieces : Pieces where
  hierarchy := chars l.hierarchy
  colon := chars (ascii ":")
  controllers := runes l.controllers
  slice := chars slicePath
  podId := chars podId
  mid := chars scopePath
  containerId := chars containerId
  scope := chars (ascii ".scope")

theorem isIdRune_of_mem_chars {s : GoString} (h : ∀ b ∈ s, isIdByte b = true) :
    ∀ r ∈ chars s, isIdRune r = true := by
  intro r hr
  obtain ⟨b, hb, rfl⟩ := List.mem_map.mp hr
  exact h b hb

theorem fit_pieces (h : IdBytes podId containerId) : l.pieces.FitSystemd where
  hierarchy := by
    refine ⟨?_, ?_⟩
    · intro hnil
      exact l.hierarchy_digits.1 (List.map_eq_nil_iff.mp hnil)
    · intro r hr
      obtain ⟨b, hb, rfl⟩ := List.mem_map.mp hr
      exact l.hierarchy_digits.2 b hb
  colon := matches_dotted_chars (by decide)
  controllers := by
    obtain ⟨hne, hnewline, -⟩ := l.controllers_name
    refine ⟨?_, ?_⟩
    · intro hnil
      apply hne
      rw [← flatten_runes l.controllers]
      exact congrArg List.flatten hnil
    · intro r hr
      rw [isAnyRune, decide_eq_true_iff]
      rintro rfl
      exact hnewline (singleton_mem_of_mem_runes hr)
  slice := matches_dotted_chars (by decide +kernel)
  podId := ⟨(length_chars _).trans h.podId_length, isIdRune_of_mem_chars h.podId_bytes⟩
  mid := matches_dotted_chars (by decide)
  containerId :=
    ⟨(length_chars _).trans h.containerId_length, isIdRune_of_mem_chars h.containerId_bytes⟩
  scope := matches_dotted_chars (by decide)

theorem runes_text_eq_join (h : IdBytes podId containerId) : runes l.text = l.pieces.join := by
  have hcolon : ([58] :: chars (path podId containerId)) =
      chars (ascii ":") ++ chars (path podId containerId) := rfl
  rw [l.runes_text h, hcolon]
  simp only [path, pieces, Pieces.join, slicePath_eq, chars_append, List.append_assoc]

/-- Wherever the pattern is found in the line, its groups are the ids of the line. -/
theorem groups_eq (h : IdBytes podId containerId) {pre post : List GoString} {x : Pieces}
    (hx : x.FitSystemd) (hline : runes l.text = pre ++ x.join ++ post) :
    x.podId = chars podId ∧ x.containerId = chars containerId := by
  have hfront := slash_not_mem_front l.hierarchy_digits.2 l.controllers_name.2.2
  rw [l.runes_text h, ← List.append_assoc] at hline
  obtain ⟨rest, hmatch, hrest⟩ := hx.exists_rest hfront
    (fun hmem => (pathBytes_path h 58 (List.mem_append_right _ hmem)).2.1 rfl) hline
  have hlen : rest.length = (chars burstablePath).length := by
    rw [length_of_matches_dotted hmatch, length_chars]
  rw [chars_append] at hrest
  obtain ⟨-, hrest⟩ := List.append_inj hrest hlen
  rw [chars_append] at hrest
  obtain ⟨hpod, hrest⟩ := List.append_inj hrest
    (by rw [hx.podId.1, length_chars, h.podId_length])
  rw [chars_append] at hrest
  obtain ⟨-, hrest⟩ := List.append_inj hrest
    (by rw [length_of_matches_dotted hx.mid, length_chars])
  rw [chars_append] at hrest
  obtain ⟨hcontainer, -⟩ := List.append_inj hrest
    (by rw [hx.containerId.1, length_chars, h.containerId_length])
  exact ⟨hpod, hcontainer⟩

/-- The ids are found in the line of a burstable pod. -/
theorem lineIds_text (h : IdBytes podId containerId) :
    lineIds l.text = some (podId, containerId) := by
  obtain ⟨m, hm⟩ : ∃ m, kubeSystemdPattern.findSubmatch (runes l.text) =
      some [m, chars podId, chars containerId] := by
    rw [kubeSystemdPattern_eq]
    apply findSubmatch_of_forall
    · refine ⟨[], l.pieces.join, [], ?_, ?_⟩
      · rw [l.runes_text_eq_join h, List.nil_append, List.append_nil]
      · exact matches_idPattern.mpr ⟨l.pieces, l.fit_pieces h, rfl, rfl⟩
    · intro pre m gs' post hline hm
      obtain ⟨x, hfit, rfl, rfl⟩ := matches_idPattern.mp hm
      obtain ⟨hpod, hcontainer⟩ := l.groups_eq h hfit hline
      rw [hpod, hcontainer]
  unfold lineIds findStringSubmatch
  rw [hm]
  simp only [Option.map_some, List.map_cons, List.map_nil, flatten_chars]

/-- The scanner has no carriage return to drop. -/
theorem dropCR_text : dropCR l.text = l.text := by
  have htext : l.text = l.hierarchy ++ ascii ":" ++ (l.controllers ++ 58 :: (ascii "/kubepods" ++
      (burstablePath ++ (podId ++ (scopePath ++ containerId))))) ++ ascii ".scope" := by
    simp only [text, path, List.append_assoc, List.cons_append]
  rw [htext]
  exact dropCR_scope _

theorem newline_not_mem_text (h : IdBytes podId containerId) : 10 ∉ l.text :=
  newline_not_mem_line l.hierarchy_digits.2 (pathBytes_path h) l.controllers_name.2.1

end BurstableLine

/-! ### The file -/

/-- A cgroup file whose first line with `/kubepods` is that of a container of a burstable pod. -/
structure BurstableFile (podId containerId : GoString) where
  before : List GoString
  line : BurstableLine podId containerId
  after : GoString
  before_lines : ∀ l ∈ before, 10 ∉ l ∧ ¬ ascii "/kubepods" <:+: l

namespace BurstableFile

variable {podId containerId : GoString} (f : BurstableFile podId containerId)

/-- The bytes of the file. -/
def contents : GoString :=
  (f.before.map fun l => l ++ [10]).flatten ++ (f.line.text ++ 10 :: f.after)

/-- The lines up to the one of the pod fit into the buffer of a scanner. -/
def Fits : Prop :=
  (∀ l ∈ f.before, l.length < maxScanTokenSize) ∧ f.line.text.length < maxScanTokenSize

theorem findSome?_lineIds (h : BurstableLine.IdBytes podId containerId) (hfits : f.Fits) :
    (scanLines f.contents).findSome? lineIds = some (podId, containerId) := by
  rw [contents, findSome?_lineIds_append f.before_lines, if_pos hfits.1,
    scanLines_append (f.line.newline_not_mem_text h) hfits.2, f.line.dropCR_text,
    List.findSome?_cons, f.line.lineIds_text h]

/-- The lookup returns the ids in the file. -/
theorem lookupIdByPid_contents (h : BurstableLine.IdBytes podId containerId) (hfits : f.Fits)
    {cgroup : UInt32 → Except GoString GoString} {pid : UInt32}
    (hcgroup : cgroup pid = .ok f.contents) :
    lookupIdByPid cgroup pid = .ok (podId, containerId) := by
  simp only [lookupIdByPid, hcgroup, f.findSome?_lineIds h hfits]

end BurstableFile

end Kubebpfbox.Pid2Pod
