import SoftPhone.Text.Framing

/-!
# Messages of tokens and trimmed values

The messages that are written and read again (`WellFormed`) are described by what `setMessage`
has to find.  Here they are described by the grammar: the method and the names of the headers are
tokens, the values and the reason phrase are trimmed and stand on one line, the Request-URI has a
known scheme and no separator, and the Content-Length is the length of the body (`Printable`).
-/

namespace SoftPhone

open SipParser

namespace SipParser

/-- A character of a token. -/
def isTokenChar (c : Char) : Bool := c.isAlphanum || "-.!%*_+`'~".toList.contains c

/-- A token. -/
def IsToken (s : Text) : Prop := s ≠ [] ∧ ∀ c ∈ s, isTokenChar c = true

/-- A text on one line, in ASCII. -/
def OnOneLine (s : Text) : Prop := ∀ c ∈ s, isCRLF c = false ∧ c.toNat < 128

instance (s : Text) : Decidable (IsToken s) := inferInstanceAs (Decidable (_ ∧ _))

instance (s : Text) : Decidable (OnOneLine s) := inferInstanceAs (Decidable (∀ c ∈ s, _))

instance (s : Text) : Decidable (Trimmed s) := inferInstanceAs (Decidable (trim s = s))

/-- A letter or a digit is neither a slash nor a colon. -/
theorem isAlphanum_range {c : Char} (h : c.isAlphanum = true) :
    48 ≤ c.toNat ∧ c.toNat ≤ 122 ∧ c.toNat ≠ 58 := by
  unfold Char.isAlphanum Char.isAlpha Char.isUpper Char.isLower Char.isDigit at h
  simp only [Bool.or_eq_true, Bool.and_eq_true, decide_eq_true_eq, ge_iff_le,
    UInt32.le_iff_toNat_le] at h
  have h0 : ('0' : Char).val.toNat = 48 := rfl
  have h9 : ('9' : Char).val.toNat = 57 := rfl
  have hA : ('A' : Char).val.toNat = 65 := rfl
  have hZ : ('Z' : Char).val.toNat = 90 := rfl
  have ha : ('a' : Char).val.toNat = 97 := rfl
  have hz : ('z' : Char).val.toNat = 122 := rfl
  rw [h0, h9, hA, hZ, ha, hz] at h
  show 48 ≤ c.val.toNat ∧ c.val.toNat ≤ 122 ∧ c.val.toNat ≠ 58
  omega

/-- A character of a token is visible, and neither a slash nor a colon. -/
theorem isTokenChar_spec {c : Char} (h : isTokenChar c = true) :
    isChar c = true ∧ c ≠ '/' ∧ c ≠ ':' := by
  unfold isTokenChar at h
  rw [Bool.or_eq_true] at h
  rcases h with h | h
  · obtain ⟨h48, h122, h58⟩ := isAlphanum_range h
    refine ⟨ViaHeader.isChar_iff.mpr ⟨by omega, by omega⟩, ?_, ?_⟩
    · rintro rfl
      exact absurd h48 (by decide)
    · rintro rfl
      exact h58 rfl
  · have hall : ∀ c ∈ "-.!%*_+`'~".toList, isChar c = true ∧ c ≠ '/' ∧ c ≠ ':' := by decide
    exact hall c (List.contains_iff_mem.mp h)

/-- A token has no white space. -/
theorem IsToken.onOneLine {s : Text} (hs : IsToken s) : OnOneLine s := by
  intro c hc
  obtain ⟨hchar, -, -⟩ := isTokenChar_spec (hs.2 c hc)
  obtain ⟨h1, h2⟩ := ViaHeader.isChar_iff.mp hchar
  exact ⟨(not_space_of_lt (Char.lt_def.mpr (UInt32.lt_iff_toNat_lt.mpr h1))).2, by omega⟩

/-- A token is trimmed. -/
theorem IsToken.trimmed {s : Text} (hs : IsToken s) : Trimmed s := by
  have hlarge (l : Text) (hl : ∀ c ∈ l, c ∈ s) : l.dropWhile (· ≤ ' ') = l := by
    cases l with
    | nil => rfl
    | cons c l =>
      obtain ⟨hchar, -, -⟩ := isTokenChar_spec (hs.2 c (hl c (List.mem_cons_self ..)))
      unfold isChar at hchar
      rw [Bool.and_eq_true, decide_eq_true_eq] at hchar
      exact List.dropWhile_cons_of_neg (by simpa using hchar.1)
  show ((s.dropWhile (· ≤ ' ')).reverse.dropWhile (· ≤ ' ')).reverse = s
  rw [hlarge s fun c hc => hc, hlarge s.reverse fun c hc => List.mem_reverse.mp hc,
    List.reverse_reverse]

end SipParser

namespace BasicSipMessage

/-- A request line or a status line of the grammar. -/
def IsPrintableLine : Option StartLine → Prop
  | some (.request method (some uri)) =>
    IsToken method ∧ (∃ scheme ∈ uriSchemes, scheme <+: uri) ∧
      ∀ c ∈ uri, isUriSeparator c = false ∧ c.toNat < 128
  | some (.status code reason) => (100 ≤ code ∧ code ≤ 999) ∧ Trimmed reason ∧ OnOneLine reason
  | _ => False

/-- A message of the grammar, with the length of its body. -/
structure Printable (m : BasicSipMessage) : Prop where
  startLine : IsPrintableLine m.startLine
  headers : ∀ h ∈ m.headers, IsToken h.name ∧ Trimmed h.value ∧ OnOneLine h.value
  contentLength : ∃ clh, m.getHeader SipHeaders.contentLength = some clh ∧
    getInt clh.value = some ((m.body.getD []).length : ℤ)

/-- An empty body is null. -/
def withoutEmptyBody (m : BasicSipMessage) : BasicSipMessage :=
  { m with body := m.body.filter fun body => !body.isEmpty }

theorem getD_withoutEmptyBody (m : BasicSipMessage) :
    m.withoutEmptyBody.body.getD [] = m.body.getD [] := by
  unfold withoutEmptyBody
  cases m.body with
  | none => rfl
  | some body =>
    cases body with
    | nil => rfl
    | cons b body => rfl

theorem IsPrintableLine.isFirstLine {l : Option StartLine} (h : IsPrintableLine l) :
    IsFirstLine l := by
  cases l with
  | none => exact h.elim
  | some l =>
    cases l with
    | request method uri =>
      cases uri with
      | none => exact h.elim
      | some uri =>
        obtain ⟨hmethod, hscheme, huri⟩ := h
        refine ⟨hmethod.1, fun c hc => ?_, hscheme, huri⟩
        obtain ⟨hchar, hslash, -⟩ := isTokenChar_spec (hmethod.2 c hc)
        exact ⟨hchar, hslash⟩
    | status code reason =>
      obtain ⟨hcode, htrimmed, hreason⟩ := h
      exact ⟨⟨by omega, by omega⟩, htrimmed, hreason⟩

/-- A header of the grammar is read as it was written. -/
theorem isField_of_token {h : Header} (hname : IsToken h.name) (htrimmed : Trimmed h.value)
    (hvalue : OnOneLine h.value) : IsField h where
  name_ne_nil := hname.1
  name c hc := ⟨(hname.onOneLine c hc).1, (isTokenChar_spec (hname.2 c hc)).2.2⟩
  name_trimmed := hname.trimmed
  value_folded := folded_of_plain fun c hc => (hvalue c hc).1
  value_trimmed := htrimmed
  ascii c hc := by
    rcases List.mem_append.mp hc with hc | hc
    · exact (hname.onOneLine c hc).2
    · exact (hvalue c hc).2

/-- **A message of the grammar is well formed**, but for an empty body that is not null. -/
theorem Printable.wellFormed {m : BasicSipMessage} (hm : Printable m) :
    WellFormed m.withoutEmptyBody where
  startLine := hm.startLine.isFirstLine
  headers h hh := by
    obtain ⟨hname, htrimmed, hvalue⟩ := hm.headers h hh
    exact isField_of_token hname htrimmed hvalue
  contentLength := by
    rw [getD_withoutEmptyBody]
    exact hm.contentLength
  body hbody := by
    have hfilter := (Option.filter_eq_some_iff.mp hbody).2
    exact absurd hfilter (by decide)

/-- What is written does not tell an empty body from none. -/
theorem getBytes_withoutEmptyBody (charset : Charset) (m : BasicSipMessage) :
    getBytes charset m.withoutEmptyBody = getBytes charset m := by
  show charset.encode m.getMessageHeader ++ m.withoutEmptyBody.body.getD [] = _
  rw [getD_withoutEmptyBody]
  rfl

/-- **A message that is written is read again**: all the bytes are used, and the first line, the
headers and the body are the same, where no body is the same as an empty one. -/
theorem printed_then_parsed (charset : Charset) {m : BasicSipMessage} (hm : Printable m) :
    ∃ m', setMessage charset (getBytes charset m) = some (m', ((getBytes charset m).length : ℤ)) ∧
      m'.startLine = m.startLine ∧ m'.headers = m.headers ∧
      m'.body.getD [] = m.body.getD [] ∧ (m.body ≠ some [] → m' = m) := by
  have hread := @setMessage_getBytes charset _ hm.wellFormed []
  rw [getBytes_withoutEmptyBody, List.append_nil] at hread
  refine ⟨m.withoutEmptyBody, hread, rfl, rfl, getD_withoutEmptyBody m, fun hbody => ?_⟩
  unfold withoutEmptyBody
  cases hb : m.body with
  | none =>
    rw [Option.filter_none, ← hb]
  | some body =>
    have hne : body ≠ [] := by
      rintro rfl
      exact hbody hb
    rw [Option.filter_some, if_pos (by simpa using hne), ← hb]

/-- A request with two headers and a body of three bytes, none of which is a character. -/
theorem printed_then_parsed_info :
    let m : BasicSipMessage :=
      { startLine := some (.request "INFO".toList (some "sip:bob@h;lr".toList))
        headers := [⟨"Subject".toList, "a: b".toList⟩, ⟨SipHeaders.contentLength, "3".toList⟩]
        body := some [13, 10, 200] }
    setMessage .latin1 (getBytes .latin1 m) = some (m, 66) := by
  intro m
  have hm : Printable m :=
    ⟨⟨by decide, ⟨"sip:".toList, by decide, by decide⟩, by decide⟩, by decide,
      ⟨⟨SipHeaders.contentLength, "3".toList⟩, by decide, by decide⟩⟩
  obtain ⟨m', hread, -, -, -, hsame⟩ := printed_then_parsed .latin1 hm
  rw [hread, hsame (by decide)]
  decide +kernel

end BasicSipMessage

end SoftPhone
