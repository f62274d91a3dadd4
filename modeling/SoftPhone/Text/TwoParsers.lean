import SoftPhone.Text.HeaderSection

/-!
# The two parsers of a message

A message is set from a string by `setMessage(String)`, which reads the first line and the headers
of all the string and takes the body from where it has come to, and from bytes by
`setMessage(byte[],int,int)`, which cuts the header section off first.

Where the string is a header section and a body, and the Content-Length is the length of the body,
the bytes give a message; the string gives the same message if and only if the headers have been
read down to the blank line and the body does not look like the rest of a folded line, or they have
not and this makes no difference to the body (`agree_iff`).
-/

namespace SoftPhone

open SipParser

namespace BasicSipMessage

/-! ## `setMessage(String)` -/

/-- The body, and what is left; the outer `none` is an index out of range or a number format
exception. -/
def stringBody (charset : Charset) (m : BasicSipMessage) (s : Text) :
    Option (Option (List UInt8) × Text) :=
  match m.getHeader SipHeaders.contentLength with
  | some clh =>
    (getInt clh.value).bind fun n =>
      if 0 ≤ n ∧ n ≤ s.length then
        some (some (charset.encode (s.take n.toNat)), s.drop n.toNat)
      else none
  | none =>
    if m.hasHeader SipHeaders.contentType then
      some (if s = [] then none else some (charset.encode s), s)
    else some (none, s)

/-- `setMessage(str)`, of a new message, and how many characters are used. -/
def setMessageString (charset : Charset) (s : Text) : Option (BasicSipMessage × ℤ) := do
  let p ← getFirstLine s
  let q := readHeaders p.2.length p.2
  let body ← stringBody charset { startLine := p.1, headers := q.1 } q.2
  some ({ startLine := p.1, headers := q.1, body := body.1 }, s.length - body.2.length)

end BasicSipMessage

namespace SipParser

/-! ## The end of a header section -/

/-- The text ends with an empty line behind another line. -/
def EndsBlank (s : Text) : Prop := ['\n', '\n'] <:+ s ∨ ['\n', '\r', '\n'] <:+ s

/-- Nothing but an empty line. -/
def IsBlank (s : Text) : Prop := s = ['\n'] ∨ s = ['\r', '\n']

theorem IsBlank.ne_nil {s : Text} (hs : IsBlank s) : s ≠ [] := by
  rcases hs with rfl | rfl <;> exact List.cons_ne_nil _ _

theorem IsBlank.spanEOH {s : Text} (hs : IsBlank s) : spanEOH s = ([], s) := by
  rcases hs with rfl | rfl <;> decide

theorem IsBlank.nextLine {s : Text} (hs : IsBlank s) : nextLine s = [] := by
  rcases hs with rfl | rfl <;> decide

theorem EndsBlank.ne_nil {s : Text} (hs : EndsBlank s) : s ≠ [] := by
  rintro rfl
  rcases hs with h | h <;> exact absurd (List.suffix_nil.mp h) (List.cons_ne_nil _ _)

/-- A line ends where the blank line is, or before. -/
theorem EndsBlank.spanEOH {s : Text} (hs : EndsBlank s) : EndsBlank (spanEOH s).2 := by
  have hend {d : Text} (hd : (SipParser.spanEOH d).2 = d) {s : Text} (h : d <:+ s) :
      d <:+ (SipParser.spanEOH s).2 := by
    induction s with
    | nil =>
      rw [List.suffix_nil.mp h]
      exact List.suffix_rfl
    | cons c s ih =>
      rcases List.suffix_cons_iff.mp h with rfl | h'
      · rw [hd]
      · rw [SipParser.spanEOH]
        split
        · exact h
        · exact ih h'
  rcases hs with h | h
  · exact .inl (hend (by decide) h)
  · exact .inr (hend (by decide) h)

/-- What is left of the section behind the end of a line. -/
theorem EndsBlank.skipEOL {c : Char} {s : Text} (hs : EndsBlank (c :: s)) :
    EndsBlank (skipEOL (c :: s)) ∨ IsBlank (skipEOL (c :: s)) := by
  by_cases hcrlf : c = '\r' ∧ ∃ t, s = '\n' :: t
  · obtain ⟨rfl, t, rfl⟩ := hcrlf
    show EndsBlank t ∨ IsBlank t
    rcases hs with h | h
    · rcases List.suffix_cons_iff.mp h with h | h
      · exact absurd (List.cons.inj h).1 (by decide)
      · rcases List.suffix_cons_iff.mp h with h | h
        · exact .inr (.inl (List.cons.inj h).2.symm)
        · exact .inl (.inl h)
    · rcases List.suffix_cons_iff.mp h with h | h
      · exact absurd (List.cons.inj h).1 (by decide)
      · rcases List.suffix_cons_iff.mp h with h | h
        · exact .inr (.inr (List.cons.inj h).2.symm)
        · exact .inl (.inr h)
  · have hskip : SipParser.skipEOL (c :: s) = s := by
      unfold SipParser.skipEOL
      split
      · rename_i t heq
        exact absurd ⟨(List.cons.inj heq).1, t, (List.cons.inj heq).2⟩ hcrlf
      · rename_i heq
        exact (List.cons.inj heq).2.symm
      · rename_i heq
        exact absurd heq (List.cons_ne_nil _ _)
    rw [hskip]
    rcases hs with h | h
    · rcases List.suffix_cons_iff.mp h with h | h
      · exact .inr (.inl (List.cons.inj h).2.symm)
      · exact .inl (.inl h)
    · rcases List.suffix_cons_iff.mp h with h | h
      · exact .inr (.inr (List.cons.inj h).2.symm)
      · exact .inl (.inr h)

/-- **Behind a line, the section goes on down to the blank line.** -/
theorem EndsBlank.nextLine {s : Text} (hs : EndsBlank s) :
    EndsBlank (nextLine s) ∨ IsBlank (nextLine s) := by
  rw [nextLine_eq]
  have hspan := hs.spanEOH
  cases hrest : (SipParser.spanEOH s).2 with
  | nil =>
    rw [hrest] at hspan
    exact absurd rfl hspan.ne_nil
  | cons c rest =>
    rw [hrest] at hspan
    exact hspan.skipEOL

/-- From anywhere in the section. -/
theorem EndsBlank.nextLine_suffix {s y : Text} (hs : EndsBlank s) (hy : y <:+ s) :
    SipParser.nextLine y = [] ∨ EndsBlank (SipParser.nextLine y) ∨ IsBlank (SipParser.nextLine y) := by
  have hshort {d : Text} (hd : d <:+ s) (hends : ∀ x, d <:+ x → EndsBlank x)
      (hparts : ∀ z ∈ d.tails, z = d ∨ SipParser.nextLine z = []) :
      SipParser.nextLine y = [] ∨ EndsBlank (SipParser.nextLine y) ∨
        IsBlank (SipParser.nextLine y) := by
    rcases List.suffix_or_suffix_of_suffix hd hy with h | h
    · exact .inr (hends y h).nextLine
    · rcases hparts y ((List.mem_tails _ _).mpr h) with rfl | hnil
      · exact .inr (hends y List.suffix_rfl).nextLine
      · exact .inl hnil
  rcases hs with h | h
  · exact hshort h (fun x hx => .inl hx) (by decide)
  · exact hshort h (fun x hx => .inr hx) (by decide)

/-! ## What follows the section -/

/-- The end of a line that is not the last one is found whatever follows. -/
theorem skipEOL_append {s rest : Text} (hs : skipEOL s ≠ []) :
    skipEOL (s ++ rest) = skipEOL s ++ rest := by
  match s with
  | [] => exact absurd rfl hs
  | [c] =>
    exact absurd (skipEOL_singleton c) hs
  | c :: d :: s =>
    by_cases hcrlf : c = '\r' ∧ d = '\n'
    · obtain ⟨rfl, rfl⟩ := hcrlf
      rfl
    · have hskip (z : Text) : skipEOL (c :: d :: z) = d :: z :=
        skipEOL_cons fun ⟨hc, _, heq⟩ => hcrlf ⟨hc, (List.cons.inj heq).1⟩
      rw [List.cons_append, List.cons_append, hskip, hskip, List.cons_append]

/-- **A line that is not the last one is read whatever follows.** -/
theorem spanEOH_append {s rest : Text} (hs : nextLine s ≠ []) :
    spanEOH (s ++ rest) = ((spanEOH s).1, (spanEOH s).2 ++ rest) := by
  induction s with
  | nil => exact absurd rfl hs
  | cons c s ih =>
    by_cases hend : isCRLF c = true ∧ folds (c :: s) = false
    · rw [nextLine_cons_of_end hend.1 hend.2] at hs
      have hfolds : folds (c :: s ++ rest) = false := by
        have hskip := @skipEOL_append _ rest hs
        have hnot := hend.2
        unfold folds at hnot ⊢
        rw [hskip]
        cases hline : skipEOL (c :: s) with
        | nil => exact absurd hline hs
        | cons d line =>
          rw [hline] at hnot
          exact hnot
      rw [List.cons_append, spanEOH, if_pos ⟨hend.1, hfolds⟩, spanEOH, if_pos hend]
      rfl
    · rw [nextLine_cons_of_within hend] at hs
      have hend' : ¬(isCRLF c = true ∧ folds (c :: s ++ rest) = false) := by
        rintro ⟨hc, hfolds⟩
        refine hend ⟨hc, ?_⟩
        by_contra hfold
        rw [Bool.not_eq_false] at hfold
        have hfold' := folds_append hfold rest
        rw [hfold'] at hfolds
        exact Bool.noConfusion hfolds
      rw [List.cons_append] at hend' ⊢
      rw [spanEOH, if_neg hend', spanEOH, if_neg hend, ih hs]

theorem nextLine_append_right {s rest : Text} (hs : nextLine s ≠ []) :
    nextLine (s ++ rest) = nextLine s ++ rest := by
  rw [nextLine_eq, spanEOH_append hs, nextLine_eq, skipEOL_append]
  rw [← nextLine_eq]
  exact hs

/-- A token that is not the last one is read whatever follows. -/
theorem getString_append_right {s rest : Text} (hs : (getString s).2 ≠ []) :
    getString (s ++ rest) = ((getString s).1, (getString s).2 ++ rest) := by
  have hdrop {p : Char → Bool} {x : Text} (hx : x.dropWhile p ≠ []) :
      (x ++ rest).dropWhile p = x.dropWhile p ++ rest ∧
        (x ++ rest).takeWhile p = x.takeWhile p := by
    induction x with
    | nil => exact absurd rfl hx
    | cons c x ih =>
      by_cases hc : p c = true
      · rw [List.dropWhile_cons_of_pos hc] at hx
        obtain ⟨h1, h2⟩ := ih hx
        rw [List.cons_append, List.dropWhile_cons_of_pos hc, List.dropWhile_cons_of_pos hc,
          List.takeWhile_cons_of_pos hc, List.takeWhile_cons_of_pos hc, h1, h2]
        exact ⟨rfl, rfl⟩
      · rw [List.cons_append, List.dropWhile_cons_of_neg hc, List.dropWhile_cons_of_neg hc,
          List.takeWhile_cons_of_neg hc, List.takeWhile_cons_of_neg hc]
        exact ⟨rfl, rfl⟩
  have hs' : (s.dropWhile (!isChar ·)).dropWhile isChar ≠ [] := hs
  have hfirst : s.dropWhile (!isChar ·) ≠ [] := by
    intro hnil
    rw [hnil] at hs'
    exact hs' rfl
  show (((s ++ rest).dropWhile (!isChar ·)).takeWhile isChar,
    ((s ++ rest).dropWhile (!isChar ·)).dropWhile isChar) = _
  rw [(hdrop hfirst).1, (hdrop hs').1, (hdrop hs').2]
  rfl

/-- **The headers of a section, with something behind it**: if a line without a colon stands in
front of the blank line, they are read down to this line, and otherwise the loop goes on with the
blank line. -/
theorem readable_append {s : Text} (hs : EndsBlank s ∨ IsBlank s) (rest : Text) :
    (unread s ≠ [] → readable (s ++ rest) = readable s ∧ unread (s ++ rest) = unread s ++ rest) ∧
      (unread s = [] → fields ((lines s).dropWhile hasColon) = [] ∧ ∃ b, IsBlank b ∧
        readable (s ++ rest) = readable s ++ readable (b ++ rest) ∧
        unread (s ++ rest) = unread (b ++ rest)) := by
  induction hlen : s.length using Nat.strong_induction_on generalizing s with
  | _ k ih =>
    rcases hs with hs | hs
    · have hne := hs.ne_nil
      have hnext := hs.nextLine
      have hnext_ne : nextLine s ≠ [] := hnext.elim EndsBlank.ne_nil IsBlank.ne_nil
      have happend_ne : s ++ rest ≠ [] := List.append_ne_nil_of_left_ne_nil hne rest
      have hlt := length_nextLine_lt hne
      rw [readable_eq hne, unread_eq hne, readable_eq happend_ne, unread_eq happend_ne, lines_eq hne,
        spanEOH_append hnext_ne, nextLine_append_right hnext_ne]
      by_cases hcolon : hasColon (spanEOH s).1 = true
      · obtain ⟨hstopped, hwhole⟩ := ih _ (by omega) hnext rfl
        simp only [if_pos hcolon]
        refine ⟨fun hleft => ?_, fun hleft => ?_⟩
        · obtain ⟨hread, hunread⟩ := hstopped hleft
          exact ⟨by rw [hread], hunread⟩
        · obtain ⟨hfields, b, hb, hread, hunread⟩ := hwhole hleft
          rw [List.dropWhile_cons_of_pos hcolon]
          exact ⟨hfields, b, hb, by rw [hread]; rfl, hunread⟩
      · simp only [if_neg hcolon]
        exact ⟨fun _ => ⟨trivial, trivial⟩, fun hleft => absurd hleft hnext_ne⟩
    · have hne := hs.ne_nil
      have hnot : ¬hasColon (spanEOH s).1 = true := by
        rw [hs.spanEOH]
        exact Bool.false_ne_true
      have hunread : unread s = [] := by
        rw [unread_eq hne, if_neg hnot, hs.nextLine]
      have hread : readable s = [] := by
        rw [readable_eq hne, if_neg hnot]
      refine ⟨fun hleft => absurd hunread hleft, fun _ => ⟨?_, s, hs, ?_, rfl⟩⟩
      · rw [lines_eq hne, hs.nextLine, hs.spanEOH]
        rfl
      · rw [hread, List.nil_append]

/-- Behind the blank line nothing is read, unless white space follows. -/
theorem readable_blank {b rest : Text} (hb : IsBlank b) (hrest : ∀ c ∈ rest.head?, isWSP c = false) :
    readable (b ++ rest) = [] ∧ unread (b ++ rest) = rest := by
  have hne : b ++ rest ≠ [] := List.append_ne_nil_of_left_ne_nil hb.ne_nil rest
  obtain ⟨c, hc, hcrlf, hskip⟩ : ∃ c, (b ++ rest).head? = some c ∧ isCRLF c = true ∧
      skipEOL (b ++ rest) = rest := by
    rcases hb with rfl | rfl
    · exact ⟨'\n', rfl, rfl, rfl⟩
    · exact ⟨'\r', rfl, rfl, rfl⟩
  cases hall : b ++ rest with
  | nil => exact absurd hall hne
  | cons d s =>
    rw [hall] at hc hskip
    obtain rfl : d = c := Option.some.inj hc
    have hfolds : folds (d :: s) = false := by
      unfold folds
      rw [hskip]
      cases rest with
      | nil => rfl
      | cons e rest => exact hrest e rfl
    have hspan : spanEOH (d :: s) = ([], d :: s) := by
      rw [spanEOH, if_pos ⟨hcrlf, hfolds⟩]
    have hnot : ¬hasColon (spanEOH (d :: s)).1 = true := by
      rw [hspan]
      exact Bool.false_ne_true
    rw [readable_eq (List.cons_ne_nil _ _), unread_eq (List.cons_ne_nil _ _), if_neg hnot,
      if_neg hnot, nextLine_eq, hspan]
    exact ⟨rfl, hskip⟩

/-- If white space follows the blank line, there is a header more, or less is left. -/
theorem readable_blank_folded {b rest : Text} (hb : IsBlank b) {c : Char}
    (hc : c ∈ rest.head?) (hspace : isWSP c = true) :
    readable (b ++ rest) ≠ [] ∨ (unread (b ++ rest)).length < rest.length := by
  have hne : b ++ rest ≠ [] := List.append_ne_nil_of_left_ne_nil hb.ne_nil rest
  cases rest with
  | nil => exact absurd hc (by simp)
  | cons d rest =>
    obtain rfl : d = c := Option.some.inj hc
    rw [readable_eq hne, unread_eq hne]
    by_cases hcolon : hasColon (spanEOH (b ++ d :: rest)).1 = true
    · rw [if_pos hcolon]
      exact .inl (List.cons_ne_nil _ _)
    · rw [if_neg hcolon, if_neg hcolon]
      right
      have hd : isCRLF d = false := by
        unfold isWSP at hspace
        rw [Bool.or_eq_true, beq_iff_eq, beq_iff_eq] at hspace
        rcases hspace with rfl | rfl <;> rfl
      -- the line goes on behind the blank line, and then behind the white space
      have hspaced : nextLine (d :: rest) = nextLine rest := by
        refine nextLine_cons_of_within fun h => ?_
        rw [hd] at h
        exact Bool.noConfusion h.1
      have hlf : nextLine ('\n' :: d :: rest) = nextLine rest := by
        rw [nextLine_cons_of_within, hspaced]
        rintro ⟨-, h⟩
        have hfold : folds ('\n' :: d :: rest) = isWSP d := rfl
        rw [hfold, hspace] at h
        exact Bool.noConfusion h
      have hwhole : nextLine (b ++ d :: rest) = nextLine rest := by
        rcases hb with rfl | rfl
        · exact hlf
        · show nextLine ('\r' :: '\n' :: d :: rest) = nextLine rest
          rw [nextLine_cons_of_within, hlf]
          rintro ⟨-, h⟩
          have hfold : folds ('\r' :: '\n' :: d :: rest) = isWSP d := rfl
          rw [hfold, hspace] at h
          exact Bool.noConfusion h
      rw [hwhole, List.length_cons]
      have hle := (nextLine_suffix rest).length_le
      omega

end SipParser

namespace BasicSipMessage

/-! ## The first line -/

/-- **A first line that something follows is read whatever follows the section.** -/
theorem getFirstLine_append {s r : Text} {l : Option StartLine} (h : getFirstLine s = some (l, r))
    (hr : r ≠ []) (rest : Text) : getFirstLine (s ++ rest) = some (l, r ++ rest) := by
  unfold getFirstLine at h
  split at h
  · exact absurd h (by simp)
  rename_i hlen
  have hfour : sipVersion.length = 4 := rfl
  rw [hfour] at h hlen
  have htake : (s ++ rest).take 4 = s.take 4 := by
    rw [List.take_append_of_le_length (by omega)]
  have hlen' : ¬(s ++ rest).length < 4 := by
    rw [List.length_append]
    omega
  unfold getFirstLine
  rw [hfour, htake, if_neg hlen']
  split at h
  · rename_i hsip
    rw [if_pos hsip]
    have hsip' : ¬equalsIgnoreCase (s.take 4) "SIP/".toList = false := by
      show ¬equalsIgnoreCase (s.take 4) sipVersion = false
      rw [hsip]
      exact Bool.noConfusion
    unfold getStatusLine at h ⊢
    rw [if_neg hlen, if_neg hsip'] at h
    rw [if_neg hlen', htake, if_neg hsip', List.drop_append_of_le_length (by omega)]
    dsimp only at h ⊢
    rw [getString_skipWSP] at h ⊢
    obtain ⟨code, hcode, heq⟩ := Option.map_eq_some_iff.mp h
    have hnext : nextLine (getString (getString (s.drop 4)).2).2 ≠ [] := by
      show goToNextLine (spanEOH (getString (getString (s.drop 4)).2).2).2 ≠ []
      rw [(Prod.mk.inj heq).2]
      exact hr
    have hsecond : (getString (getString (s.drop 4)).2).2 ≠ [] := fun hnil =>
      hnext (by rw [hnil]; rfl)
    have hfirst : (getString (s.drop 4)).2 ≠ [] := fun hnil => hsecond (by rw [hnil]; rfl)
    rw [getString_append_right hfirst, getString_append_right hsecond, hcode, Option.map_some,
      spanEOH_append hnext, ← (Prod.mk.inj heq).1, ← (Prod.mk.inj heq).2]
    dsimp only
    have happend := @nextLine_append_right _ rest hnext
    unfold nextLine at happend
    rw [spanEOH_append hnext] at happend
    rw [happend]
  · rename_i hsip
    rw [if_neg hsip]
    unfold getRequestLine at h ⊢
    dsimp only at h ⊢
    obtain ⟨hl, hrest⟩ := Prod.mk.inj (Option.some.inj h)
    have hnext : nextLine (skipWSP (getString s).2) ≠ [] := by
      show goToNextLine (spanEOH (skipWSP (getString s).2)).2 ≠ []
      rw [hrest]
      exact hr
    have hspaces : skipWSP (getString s).2 ≠ [] := fun hnil => hnext (by rw [hnil]; rfl)
    have htoken : (getString s).2 ≠ [] := fun hnil => hspaces (by rw [hnil]; rfl)
    have hskip : skipWSP ((getString s).2 ++ rest) = skipWSP (getString s).2 ++ rest := by
      generalize (getString s).2 = x at hspaces
      unfold skipWSP at hspaces ⊢
      induction x with
      | nil => exact absurd rfl hspaces
      | cons c x ih =>
        by_cases hc : c = ' '
        · rw [hc, List.cons_append, List.dropWhile_cons_of_pos (by decide),
            List.dropWhile_cons_of_pos (by decide)]
          refine ih ?_
          rwa [hc, List.dropWhile_cons_of_pos (by decide)] at hspaces
        · rw [List.cons_append, List.dropWhile_cons_of_neg (by simpa using hc),
            List.dropWhile_cons_of_neg (by simpa using hc), List.cons_append]
    rw [getString_append_right htoken, hskip, spanEOH_append hnext, ← hl, ← hrest]
    dsimp only
    have happend := @nextLine_append_right _ rest hnext
    unfold nextLine at happend
    rw [spanEOH_append hnext] at happend
    rw [happend]

/-! ## The two parsers -/

/-- The characters of some bytes in ASCII. -/
theorem eq_of_toBytes {s t : Text} (hs : ∀ c ∈ s, c.toNat < 128) (ht : ∀ c ∈ t, c.toNat < 128)
    (h : toBytes s = toBytes t) : s = t := by
  induction s generalizing t with
  | nil =>
    cases t with
    | nil => rfl
    | cons d t => exact absurd h.symm (List.cons_ne_nil _ _)
  | cons c s ih =>
    cases t with
    | nil => exact absurd h (List.cons_ne_nil _ _)
    | cons d t =>
      obtain ⟨hc, hs⟩ := List.forall_mem_cons.mp hs
      obtain ⟨hd, ht⟩ := List.forall_mem_cons.mp ht
      obtain ⟨hcd, hst⟩ := List.cons.inj h
      rw [toByte_eq hc hd hcd, ih hs ht hst]

/-- **A header section ends with a blank line.** -/
theorem endsBlank_of_headerLength {head body : Text} (hascii : ∀ c ∈ head ++ body, c.toNat < 128)
    (h : headerLength (toBytes (head ++ body)) = some head.length) : EndsBlank head := by
  have hlength : (toBytes head).length = head.length := List.length_map ..
  have hend {d : Text} (hd : ∀ c ∈ d, c.toNat < 128) {i : ℕ}
      (hi : ByteUtils.indexOf (toBytes d) (toBytes (head ++ body)) = some i)
      (hn : i + d.length = head.length) : d <:+ head := by
    obtain ⟨a, c, hdata, ha⟩ := indexOf_some hi
    have hdlen : (toBytes d).length = d.length := List.length_map ..
    have hbytes : toBytes head = a ++ toBytes d := by
      have htake := congrArg (List.take head.length) hdata
      rw [toBytes_append, ← hlength, List.take_left, hlength, ← List.append_assoc, ← hn, ← ha,
        ← hdlen, ← List.length_append, List.take_left] at htake
      exact htake
    obtain ⟨x, y, rfl, -, hy⟩ := List.map_eq_append_iff.mp hbytes
    have hmem : ∀ c ∈ y, c.toNat < 128 := fun c hc =>
      hascii c (List.mem_append_left _ (List.mem_append_right _ hc))
    rw [← eq_of_toBytes hmem hd hy]
    exact List.suffix_append x y
  unfold headerLength at h
  split at h
  · rename_i i hi
    have hcrlf := hend (d := ['\r', '\n', '\r', '\n']) (by decide) hi (Option.some.inj h)
    exact .inr (List.IsSuffix.trans ⟨['\r'], rfl⟩ hcrlf)
  · obtain ⟨i, hi, hn⟩ := Option.map_eq_some_iff.mp h
    exact .inl (hend (d := ['\n', '\n']) (by decide) hi hn)

/-- The string and its bytes give the same message, where no body is the same as an empty one. -/
def Agree (charset : Charset) (s : Text) : Prop :=
  ∃ m k m' k', setMessageString charset s = some (m, k) ∧
    setMessage charset (charset.encode s) = some (m', k') ∧
    m.startLine = m'.startLine ∧ m.headers = m'.headers ∧ m.body.getD [] = m'.body.getD []

/-- The header fields of some lines that have this name. -/
def named (hname : Text) (hs : List Header) : Option Header := hs.find? (Named hname)

/-- Where the headers of the section are read to.  Either this is the blank line, and no white
space follows; or it is a line without a colon, and either the Content-Length is in front of it
and the body is the beginning of what follows it, or neither Content-Length nor Content-Type is in
front of it. -/
def ReadThrough (headers body : Text) : Prop :=
  (unread headers = [] ∧ ∀ c ∈ body.head?, isWSP c = false) ∨
    unread headers ≠ [] ∧
      ((named SipHeaders.contentLength (readable headers) ≠ none ∧
          body <+: unread headers ++ body) ∨
        (named SipHeaders.contentLength (readable headers) = none ∧
          named SipHeaders.contentType (readable headers) = none))

section Agree

variable {charset : Charset} {head body r : Text} {l : Option StartLine}

/-- The string is read down to where the loop stops. -/
theorem setMessageString_eq (h : getFirstLine (head ++ body) = some (l, r)) :
    setMessageString charset (head ++ body) =
      (stringBody charset { startLine := l, headers := readable r } (unread r)).map fun b =>
        ({ startLine := l, headers := readable r, body := b.1 },
          ((head ++ body).length : ℤ) - b.2.length) := by
  unfold setMessageString
  simp only [Option.bind_eq_bind, h, Option.bind_some, readHeaders_eq le_rfl]
  cases stringBody charset { startLine := l, headers := readable r } (unread r) <;> rfl

/-- The bytes are read down to the blank line. -/
theorem setMessage_encode (hascii : ∀ c ∈ head ++ body, c.toNat < 128)
    (hblank : headerLength (toBytes (head ++ body)) = some head.length)
    (hline : getFirstLine head = some (l, r)) :
    setMessage charset (charset.encode (head ++ body)) =
      (bodyLength { startLine := l, headers := readable r } body.length).bind fun n =>
        (copyBody (toBytes body) n).map fun b =>
          ({ startLine := l, headers := readable r, body := b }, (head.length : ℤ) + n) := by
  have hencode : charset.encode (head ++ body) = toBytes (head ++ body) :=
    charset.encode_ascii _ hascii
  have hlength : (toBytes head).length = head.length := List.length_map ..
  have hbody : (toBytes body).length = body.length := List.length_map ..
  have htake : (toBytes (head ++ body)).take head.length = toBytes head := by
    rw [toBytes_append, ← hlength, List.take_left]
  have hdrop : (toBytes (head ++ body)).drop head.length = toBytes body := by
    rw [toBytes_append, ← hlength, List.drop_left]
  have hall : (toBytes (head ++ body)).length - head.length = body.length := by
    rw [toBytes_append, List.length_append, hlength, hbody, Nat.add_sub_cancel_left]
  have hdecode : charset.decode (toBytes head) = head :=
    decode_toBytes fun c hc => hascii c (List.mem_append_left _ hc)
  unfold setMessage parseHeaders
  simp only [Option.bind_eq_bind, hencode, hblank, Option.bind_some, htake, hdecode, hline, hdrop,
    hall, getHeaders_eq]
  cases bodyLength { startLine := l, headers := readable r } body.length with
  | none => rfl
  | some n =>
    rw [Option.bind_some, Option.bind_some]
    cases copyBody (toBytes body) n <;> rfl

/-- A Content-Length that is read is the first one of the section. -/
theorem named_readable {clh : Header}
    (hclh : named SipHeaders.contentLength (fields (lines r)) = some clh) :
    named SipHeaders.contentLength (readable r) = some clh ∨
      named SipHeaders.contentLength (readable r) = none ∧
        fields ((lines r).dropWhile hasColon) ≠ [] := by
  have hfilter := @filter_headerOf ((lines r).takeWhile hasColon)
    fun l hl => List.mem_takeWhile_imp hl
  have hsame : named SipHeaders.contentLength (fields ((lines r).takeWhile hasColon)) =
      named SipHeaders.contentLength (readable r) := by
    rw [← hfilter]
    unfold named
    rw [List.find?_filter]
    congr 1
    funext h
    by_cases hname : h.name = []
    · have hnot : Named SipHeaders.contentLength h = false := by
        unfold Named
        rw [hname]
        decide
      simp [hname, hnot]
    · simp [hname]
  rw [fields_split] at hclh
  unfold named at hclh hsame ⊢
  rw [List.find?_append] at hclh
  rw [← hsame]
  cases hfirst : (fields ((lines r).takeWhile hasColon)).find? (Named SipHeaders.contentLength) with
  | some h =>
    rw [hfirst] at hclh
    exact .inl hclh
  | none =>
    rw [hfirst] at hclh
    refine .inr ⟨rfl, fun hnil => ?_⟩
    rw [hnil] at hclh
    exact absurd hclh (by simp)

theorem agree_iff_of_eq {s : Text} {m m' : BasicSipMessage} {k k' : ℤ}
    (h : setMessageString charset s = some (m, k))
    (h' : setMessage charset (charset.encode s) = some (m', k')) :
    Agree charset s ↔ m.startLine = m'.startLine ∧ m.headers = m'.headers ∧
      m.body.getD [] = m'.body.getD [] := by
  constructor
  · rintro ⟨m₁, k₁, m₂, k₂, h₁, h₂, hsame⟩
    obtain ⟨rfl, -⟩ := Prod.mk.inj (Option.some.inj (h.symm.trans h₁))
    obtain ⟨rfl, -⟩ := Prod.mk.inj (Option.some.inj (h'.symm.trans h₂))
    exact hsame
  · exact fun hsame => ⟨m, k, m', k', h, h', hsame⟩

/-- All the bytes are copied. -/
theorem copyBody_all (z : List UInt8) : ∃ b, copyBody z z.length = some b ∧ b.getD [] = z := by
  unfold copyBody
  by_cases hpos : (0 : ℤ) < z.length
  · rw [if_pos hpos, if_pos (Int.le_refl _), Int.toNat_natCast, List.take_length]
    exact ⟨some z, rfl, rfl⟩
  · rw [if_neg hpos]
    exact ⟨none, rfl, (List.length_eq_zero_iff.mp (by omega)).symm⟩

/-- The header lines begin with the next line from somewhere. -/
theorem exists_nextLine (s : Text) : ∃ y, y <:+ s ∧ afterStartLine s = nextLine y := by
  unfold afterStartLine
  split
  · have htoken (x : Text) : (getString x).2 <:+ x :=
      (getString_suffix x).trans (List.dropWhile_suffix _)
    exact ⟨_, ((htoken _).trans (htoken _)).trans (List.drop_suffix 4 s), rfl⟩
  · exact ⟨_, List.dropWhile_suffix _, rfl⟩

theorem afterStartLine_suffix (s : Text) : afterStartLine s <:+ s := by
  obtain ⟨y, hy, hnext⟩ := exists_nextLine s
  rw [hnext]
  exact (nextLine_suffix y).trans hy

theorem skipHeaders_suffix (n : ℕ) (s : Text) : skipHeaders n s <:+ s := by
  induction n generalizing s with
  | zero => exact List.suffix_rfl
  | succ n ih =>
    rw [skipHeaders]
    split
    · exact List.nil_suffix
    · split
      · exact (ih _).trans (nextLine_suffix s)
      · exact nextLine_suffix s

/-- What follows the first line is the rest of the section. -/
theorem section_of_getFirstLine (hends : EndsBlank head) (hline : getFirstLine head = some (l, r))
    (hr : r ≠ []) : EndsBlank r ∨ IsBlank r := by
  obtain ⟨y, hy, hnext⟩ := exists_nextLine head
  rw [getFirstLine_rest hline, hnext] at hr ⊢
  exact (hends.nextLine_suffix hy).resolve_left hr

theorem bodyLength_of_getHeader {m : BasicSipMessage} {clh : Header} {n : ℤ} (left : ℕ)
    (h : m.getHeader SipHeaders.contentLength = some clh) (hn : getInt clh.value = some n) :
    m.bodyLength left = some n := by
  unfold bodyLength
  rw [h]
  exact hn

theorem stringBody_of_getHeader {m : BasicSipMessage} {clh : Header} {n : ℕ} (s : Text)
    (h : m.getHeader SipHeaders.contentLength = some clh) (hn : getInt clh.value = some (n : ℤ)) :
    stringBody charset m s =
      if n ≤ s.length then some (some (charset.encode (s.take n)), s.drop n) else none := by
  unfold stringBody
  rw [h]
  dsimp only
  rw [hn, Option.bind_some, Int.toNat_natCast]
  by_cases hle : n ≤ s.length
  · rw [if_pos ⟨by omega, by omega⟩, if_pos hle]
  · rw [if_neg (by omega), if_neg hle]

section Section

variable (hascii : ∀ c ∈ head ++ body, c.toNat < 128)
  (hblank : headerLength (toBytes (head ++ body)) = some head.length)
  (hline : getFirstLine head = some (l, r))

include hascii hblank hline

/-- The bytes, if the body is all that follows the blank line. -/
theorem setMessage_encode_body
    (hn : bodyLength { startLine := l, headers := readable r } body.length =
      some (body.length : ℤ)) :
    ∃ b k, setMessage charset (charset.encode (head ++ body)) =
        some ({ startLine := l, headers := readable r, body := b }, k) ∧
      b.getD [] = toBytes body := by
  obtain ⟨b, hb, hbody⟩ := copyBody_all (toBytes body)
  have hlen : (toBytes body).length = body.length := List.length_map ..
  rw [hlen] at hb
  refine ⟨b, (head.length : ℤ) + body.length, ?_, hbody⟩
  rw [setMessage_encode hascii hblank hline, hn, Option.bind_some, hb, Option.map_some]

/-- If every line in front of the blank line has a colon, the parsers agree unless white space
follows. -/
theorem agree_iff_of_whole (hr : r ≠ []) (hunread : unread r = []) {clh : Header}
    (hclh : named SipHeaders.contentLength (fields (lines r)) = some clh)
    (hlength : getInt clh.value = some (body.length : ℤ)) :
    Agree charset (head ++ body) ↔ ∀ c ∈ body.head?, isWSP c = false := by
  have hends := section_of_getFirstLine (endsBlank_of_headerLength hascii hblank) hline hr
  have hstring := @setMessageString_eq charset _ _ _ _ (getFirstLine_append hline hr body)
  obtain ⟨hnone, blank, hblank', hread, hleft⟩ := (readable_append hends body).2 hunread
  have hcl (b : Option (List UInt8)) : getHeader SipHeaders.contentLength
      { startLine := l, headers := readable r, body := b } = some clh :=
    (named_readable hclh).resolve_right fun h => h.2 hnone
  obtain ⟨b, k, hbytes, hbody⟩ := @setMessage_encode_body charset _ _ _ _ hascii hblank hline
    (bodyLength_of_getHeader _ (hcl none) hlength)
  constructor
  · rintro ⟨m, k, m', k', h, h', -, hheaders, -⟩
    rw [hstring] at h
    obtain ⟨q, hq, heq⟩ := Option.map_eq_some_iff.mp h
    obtain ⟨rfl, -⟩ := Prod.mk.inj heq
    obtain ⟨rfl, -⟩ := Prod.mk.inj (Option.some.inj (hbytes.symm.trans h'))
    have hsame : readable (r ++ body) = readable r := hheaders
    by_contra hspace
    obtain ⟨c, hc, hwsp⟩ : ∃ c ∈ body.head?, isWSP c = true := by simpa using hspace
    rcases readable_blank_folded hblank' hc hwsp with hmore | hless
    · rw [hread] at hsame
      exact hmore (List.append_right_eq_self.mp hsame)
    · -- less is left than the Content-Length
      rw [hsame, hleft, stringBody_of_getHeader _ (hcl none) hlength, if_neg (by omega)] at hq
      exact absurd hq (by simp)
  · intro hspace
    obtain ⟨hread', hleft'⟩ := readable_blank hblank' hspace
    rw [hread, hleft, hread', hleft', List.append_nil,
      stringBody_of_getHeader _ (hcl none) hlength, if_pos le_rfl, List.take_length,
      List.drop_length, Option.map_some] at hstring
    rw [agree_iff_of_eq hstring hbytes]
    refine ⟨rfl, rfl, ?_⟩
    show charset.encode body = b.getD []
    rw [hbody]
    exact charset.encode_ascii _ fun c hc => hascii c (List.mem_append_right _ hc)

/-- If a line has no colon, the parsers agree unless the Content-Length or the Content-Type in
front of it makes another body of what follows the line. -/
theorem agree_iff_of_stopped (hunread : unread r ≠ []) {clh : Header}
    (hclh : named SipHeaders.contentLength (fields (lines r)) = some clh)
    (hlength : getInt clh.value = some (body.length : ℤ))
    (hleftAscii : ∀ c ∈ unread r, c.toNat < 128) :
    Agree charset (head ++ body) ↔
      (named SipHeaders.contentLength (readable r) ≠ none ∧ body <+: unread r ++ body) ∨
        (named SipHeaders.contentLength (readable r) = none ∧
          named SipHeaders.contentType (readable r) = none) := by
  have hr : r ≠ [] := by
    rintro rfl
    exact hunread rfl
  have hends := section_of_getFirstLine (endsBlank_of_headerLength hascii hblank) hline hr
  have hstring := @setMessageString_eq charset _ _ _ _ (getFirstLine_append hline hr body)
  obtain ⟨hread, hleft⟩ := (readable_append hends body).1 hunread
  rw [hread, hleft] at hstring
  have hbodyAscii : ∀ c ∈ body, c.toNat < 128 := fun c hc => hascii c (List.mem_append_right _ hc)
  have hallAscii : ∀ c ∈ unread r ++ body, c.toNat < 128 := fun c hc =>
    (List.mem_append.mp hc).elim (hleftAscii c) (hbodyAscii c)
  cases hfirst : named SipHeaders.contentLength (readable r) with
  | some clh' =>
    obtain rfl : clh' = clh := by
      rcases named_readable hclh with h | h
      · exact Option.some.inj (hfirst.symm.trans h)
      · rw [h.1] at hfirst
        exact absurd hfirst (by simp)
    have hcl : getHeader SipHeaders.contentLength { startLine := l, headers := readable r } =
        some clh' := hfirst
    obtain ⟨b, k, hbytes, hbody⟩ := @setMessage_encode_body charset _ _ _ _ hascii hblank hline
      (bodyLength_of_getHeader _ hcl hlength)
    rw [stringBody_of_getHeader _ hcl hlength,
      if_pos (by rw [List.length_append]; omega), Option.map_some] at hstring
    have htaken : ∀ c ∈ (unread r ++ body).take body.length, c.toNat < 128 := fun c hc =>
      hallAscii c (List.mem_of_mem_take hc)
    rw [agree_iff_of_eq hstring hbytes]
    constructor
    · rintro ⟨-, -, hsame⟩
      have hsame' : charset.encode ((unread r ++ body).take body.length) = b.getD [] := hsame
      rw [hbody, charset.encode_ascii _ htaken] at hsame'
      refine .inl ⟨by simp, ?_⟩
      rw [List.prefix_iff_eq_take]
      exact (eq_of_toBytes htaken hbodyAscii hsame').symm
    · rintro (⟨-, hpre⟩ | ⟨hnot, -⟩)
      · refine ⟨rfl, rfl, ?_⟩
        show charset.encode ((unread r ++ body).take body.length) = b.getD []
        rw [hbody, ← List.prefix_iff_eq_take.mp hpre]
        exact charset.encode_ascii _ hbodyAscii
      · exact absurd hnot (by simp)
  | none =>
    have hcl : getHeader SipHeaders.contentLength { startLine := l, headers := readable r } = none :=
      hfirst
    cases hct : named SipHeaders.contentType (readable r) with
    | some cth =>
      -- the body of the string has the lines that are left in front
      have hhas : hasHeader SipHeaders.contentType { startLine := l, headers := readable r } = true := by
        show (named SipHeaders.contentType (readable r)).isSome = true
        rw [hct]
        rfl
      have hn : bodyLength { startLine := l, headers := readable r } body.length =
          some (body.length : ℤ) := by
        unfold bodyLength
        rw [hcl]
        exact if_pos hhas
      obtain ⟨b, k, hbytes, hbody⟩ := @setMessage_encode_body charset _ _ _ _ hascii hblank
        hline hn
      have hall : stringBody charset { startLine := l, headers := readable r } (unread r ++ body) =
          some (some (charset.encode (unread r ++ body)), unread r ++ body) := by
        unfold stringBody
        rw [hcl]
        dsimp only
        rw [if_pos hhas, if_neg (List.append_ne_nil_of_left_ne_nil hunread body)]
      rw [hall, Option.map_some] at hstring
      rw [agree_iff_of_eq hstring hbytes]
      refine iff_of_false ?_ (by simp)
      rintro ⟨-, -, hsame⟩
      have hsame' : charset.encode (unread r ++ body) = b.getD [] := hsame
      rw [hbody, charset.encode_ascii _ hallAscii] at hsame'
      have heq := eq_of_toBytes hallAscii hbodyAscii hsame'
      exact hunread (List.append_left_eq_self.mp heq)
    | none =>
      have hhas : ¬hasHeader SipHeaders.contentType { startLine := l, headers := readable r } = true := by
        show ¬(named SipHeaders.contentType (readable r)).isSome = true
        rw [hct]
        exact Bool.false_ne_true
      have hn : bodyLength { startLine := l, headers := readable r } body.length = some 0 := by
        unfold bodyLength
        rw [hcl]
        exact if_neg hhas
      have hbytes := @setMessage_encode charset _ _ _ _ hascii hblank hline
      rw [hn, Option.bind_some] at hbytes
      have hnull : stringBody charset { startLine := l, headers := readable r } (unread r ++ body) =
          some (none, unread r ++ body) := by
        unfold stringBody
        rw [hcl]
        exact if_neg hhas
      rw [hnull, Option.map_some] at hstring
      exact iff_of_true ((agree_iff_of_eq hstring hbytes).mpr ⟨rfl, rfl, rfl⟩) (.inr ⟨rfl, rfl⟩)

/-- **The two parsers agree if and only if** the headers are read down to the blank line and no
white space follows it, or else it makes no difference where they are read to. -/
theorem agree_iff {clh : Header}
    (hclh : named SipHeaders.contentLength (fields (lines r)) = some clh)
    (hlength : getInt clh.value = some (body.length : ℤ)) :
    Agree charset (head ++ body) ↔ ReadThrough r body := by
  have hr : r ≠ [] := by
    rintro rfl
    exact absurd hclh (by simp [named, fields])
  by_cases hunread : unread r = []
  · rw [agree_iff_of_whole hascii hblank hline hr hunread hclh hlength]
    unfold ReadThrough
    simp [hunread]
  · have hsuffix : unread r <:+ r := skipHeaders_suffix _ _
    have hhead : r <:+ head := by
      rw [getFirstLine_rest hline]
      exact afterStartLine_suffix head
    rw [agree_iff_of_stopped hascii hblank hline hunread hclh hlength fun c hc =>
      hascii c (List.mem_append_left _ (hhead.subset (hsuffix.subset hc)))]
    unfold ReadThrough
    simp [hunread]

end Section

/-- A request with a Content-Type, a line without a colon and the length of the body. -/
def typedHead : Text :=
  "INFO sip:a@h SIP/2.0\r\nx\r\nContent-Length: 1\r\n\r\n".toList

/-- With neither Content-Length nor Content-Type in front of the line without a colon, there is no
body. -/
theorem agree_iff_stopped : Agree .latin1 (typedHead ++ "y".toList) :=
  (@agree_iff .latin1 typedHead "y".toList "x\r\nContent-Length: 1\r\n\r\n".toList
    (some (.request "INFO".toList (some "sip:a@h".toList))) (by decide) (by decide +kernel)
    (by decide +kernel) ⟨SipHeaders.contentLength, "1".toList⟩ (by decide +kernel) (by decide)).mpr
      (by unfold ReadThrough; decide +kernel)

/-- **A body that begins with a space**: from the bytes the message has it, and the string is not a
message; for the line behind the blank line belongs to the headers. -/
theorem not_agree_space :
    let s := "INFO sip:a@h SIP/2.0\r\nContent-Length: 2\r\n\r\n y".toList
    (setMessage .latin1 (Charset.latin1.encode s)).map (fun p => p.1.body) = some (some [32, 121]) ∧
      setMessageString .latin1 s = none := by
  decide +kernel

end Agree

end BasicSipMessage

end SoftPhone
