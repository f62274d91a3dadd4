import Mathlib.Data.List.Chain
import SoftPhone.Text.EndPoints
import SoftPhone.Text.Received
import SoftPhone.Text.SipMessage

/-!
# A message that is written is read again

The header section of a message is one line after the other, and an empty one.  A line may be
folded, but no line within it is empty (`Folded`); so the end of a header is found where it was
written (`spanEOH_line`), and the empty line is the first one (`headerLength_section`).

`setMessage_getBytes` is the round trip, whatever follows the message.  As long as the message is
not complete, nothing is read (`setMessage_incomplete`).
-/

namespace SoftPhone

open SipParser

namespace SipParser

/-! ## Lines -/

/-- Every CR and LF in the text is followed by white space. -/
def Folded (s : Text) : Prop := ∀ y, y <:+ s → ∀ c ∈ y.head?, isCRLF c = true → folds y = true

theorem Folded.of_cons {c : Char} {s : Text} (h : Folded (c :: s)) : Folded s :=
  fun y hy => h y (hy.trans (List.suffix_cons c s))

/-- A text without CR and LF. -/
theorem folded_of_plain {s : Text} (hs : ∀ c ∈ s, isCRLF c = false) : Folded s := by
  intro y hy c hc hcrlf
  have hmem : c ∈ s := hy.subset (List.mem_of_mem_head? hc)
  rw [hs c hmem] at hcrlf
  exact Bool.noConfusion hcrlf

theorem Folded.plain_append {a s : Text} (ha : ∀ c ∈ a, isCRLF c = false) (hs : Folded s) :
    Folded (a ++ s) := by
  induction a with
  | nil => exact hs
  | cons d a ih =>
    obtain ⟨hd, ha⟩ := List.forall_mem_cons.mp ha
    intro y hy c hc hcrlf
    rcases List.suffix_cons_iff.mp hy with rfl | hy
    · rw [← Option.some.inj hc, hd] at hcrlf
      exact Bool.noConfusion hcrlf
    · exact ih ha y hy c hc hcrlf

/-- What follows a folded line does not matter. -/
theorem folds_append {y : Text} (h : folds y = true) (rest : Text) : folds (y ++ rest) = true := by
  unfold folds at h ⊢
  cases y with
  | nil => exact absurd h (by decide)
  | cons a y =>
    cases y with
    | nil =>
      rw [skipEOL_singleton] at h
      exact Bool.noConfusion h
    | cons b y =>
      by_cases hab : a = '\r' ∧ b = '\n'
      · obtain ⟨rfl, rfl⟩ := hab
        have hskip (z : Text) : skipEOL ('\r' :: '\n' :: z) = z := rfl
        rw [hskip] at h
        rw [List.cons_append, List.cons_append, hskip]
        cases y with
        | nil => exact absurd h (by decide)
        | cons c y => exact h
      · have hskip (z : Text) : skipEOL (a :: b :: z) = b :: z :=
          skipEOL_cons fun ⟨ha, _, heq⟩ => hab ⟨ha, (List.cons.inj heq).1⟩
        rw [hskip] at h
        rw [List.cons_append, List.cons_append, hskip]
        exact h

/-- **The end of a line is where it was written.** -/
theorem spanEOH_line {s rest : Text} (hs : Folded s)
    (hrest : ∀ c ∈ rest.head?, isWSP c = false) :
    spanEOH (s ++ '\r' :: '\n' :: rest) = (s, '\r' :: '\n' :: rest) := by
  induction s with
  | nil =>
    have hfolds : folds ('\r' :: '\n' :: rest) = false := by
      have hskip : skipEOL ('\r' :: '\n' :: rest) = rest := rfl
      unfold folds
      rw [hskip]
      cases rest with
      | nil => rfl
      | cons c rest => exact hrest c rfl
    rw [List.nil_append, spanEOH, if_pos ⟨rfl, hfolds⟩]
  | cons c s ih =>
    have hnot : ¬(isCRLF c = true ∧ folds (c :: (s ++ '\r' :: '\n' :: rest)) = false) := by
      rintro ⟨hcrlf, hfolds⟩
      have hfolded := folds_append (hs (c :: s) List.suffix_rfl c rfl hcrlf) ('\r' :: '\n' :: rest)
      rw [List.cons_append, hfolds] at hfolded
      exact Bool.noConfusion hfolded
    rw [List.cons_append, spanEOH, if_neg hnot, ih hs.of_cons]

theorem goToNextLine_crlf (rest : Text) : goToNextLine ('\r' :: '\n' :: rest) = rest := rfl

/-! ## Trimming -/

/-- A text that begins and ends with no white space. -/
def Trimmed (s : Text) : Prop := trim s = s

/-- White space in front is cut off. -/
theorem trim_space {s : Text} (hs : Trimmed s) : trim (' ' :: s) = s := by
  have hcons : trim (' ' :: s) = trim s := by
    unfold trim
    rw [List.dropWhile_cons_of_pos (by decide)]
  rw [hcons]
  exact hs

theorem Trimmed.head {s : Text} (hs : Trimmed s) : ∀ c ∈ s.head?, ' ' < c := by
  intro c hc
  cases s with
  | nil => exact absurd hc (by simp)
  | cons d s =>
    obtain rfl : d = c := Option.some.inj hc
    by_contra hle
    have hle' : d ≤ ' ' := Char.not_lt.mp hle
    unfold Trimmed trim at hs
    rw [List.dropWhile_cons_of_pos (by simpa using hle')] at hs
    have hlength := congrArg List.length hs
    have h1 : ((s.dropWhile (· ≤ ' ')).reverse.dropWhile (· ≤ ' ')).length ≤
        (s.dropWhile (· ≤ ' ')).reverse.length := List.length_dropWhile_le _ _
    have h2 : (s.dropWhile (· ≤ ' ')).length ≤ s.length := List.length_dropWhile_le _ _
    rw [List.length_reverse, List.length_cons] at hlength
    rw [List.length_reverse] at h1
    omega

theorem not_space_of_lt {c : Char} (h : ' ' < c) : isWSP c = false ∧ isCRLF c = false := by
  have hne : c ≠ ' ' ∧ c ≠ '\t' ∧ c ≠ '\r' ∧ c ≠ '\n' := by
    refine ⟨?_, ?_, ?_, ?_⟩ <;> rintro rfl <;> exact absurd h (by decide)
  unfold isWSP isCRLF
  simp [hne]

end SipParser

namespace BasicSipMessage

/-! ## Headers -/

/-- A header field as it may stand in a message. -/
structure IsField (h : Header) : Prop where
  name_ne_nil : h.name ≠ []
  name : ∀ c ∈ h.name, isCRLF c = false ∧ c ≠ ':'
  name_trimmed : Trimmed h.name
  value_folded : Folded h.value
  value_trimmed : Trimmed h.value
  ascii : ∀ c ∈ h.name ++ h.value, c.toNat < 128

/-- The line of a header. -/
def fieldLine (h : Header) : Text := h.name ++ (':' :: ' ' :: h.value)

theorem headerText_eq (h : Header) : headerText h = fieldLine h ++ ['\r', '\n'] := by
  unfold headerText fieldLine
  simp

theorem IsField.folded {h : Header} (hh : IsField h) : Folded (fieldLine h) := by
  have hsplit : fieldLine h = (h.name ++ [':', ' ']) ++ h.value := by
    unfold fieldLine
    simp
  rw [hsplit]
  refine hh.value_folded.plain_append fun c hc => ?_
  rcases List.mem_append.mp hc with hc | hc
  · exact (hh.name c hc).1
  · have hall : ∀ c ∈ [':', ' '], isCRLF c = false := by decide
    exact hall c hc

/-- The first character of a line begins no white space, and is not the end of a line. -/
theorem IsField.head {h : Header} (hh : IsField h) :
    ∀ c ∈ (fieldLine h).head?, isWSP c = false ∧ isCRLF c = false := by
  intro c hc
  unfold fieldLine at hc
  cases hname : h.name with
  | nil => exact absurd hname hh.name_ne_nil
  | cons d name =>
    rw [hname] at hc
    exact not_space_of_lt (hh.name_trimmed.head c (by rw [hname]; exact hc))

/-- **A header is read as it was written.** -/
theorem getHeader_headerText {h : Header} (hh : IsField h) {rest : Text}
    (hrest : ∀ c ∈ rest.head?, isWSP c = false) :
    SipParser.getHeader (headerText h ++ rest) = (some h, rest) := by
  have hline : headerText h ++ rest = fieldLine h ++ '\r' :: '\n' :: rest := by
    rw [headerText_eq, List.append_assoc]
    rfl
  have hne : fieldLine h ++ '\r' :: '\n' :: rest ≠ [] := by simp
  have hmem : ':' ∈ fieldLine h := List.mem_append_right _ (List.mem_cons_self ..)
  obtain ⟨hname, hvalue⟩ := takeWhile_run (p := (· != ':')) (a := h.name) (b := ':' :: ' ' :: h.value)
    (fun c hc => by simpa using (hh.name c hc).2) (fun c hc => by rw [← Option.some.inj hc]; rfl)
  have hvalue' : (goTo ':' (fieldLine h)).tail = ' ' :: h.value := congrArg List.tail hvalue
  unfold SipParser.getHeader
  rw [hline, if_neg hne, spanEOH_line hh.folded hrest]
  dsimp only
  rw [if_pos hmem, goToNextLine_crlf, hvalue', trim_space hh.value_trimmed]
  unfold fieldLine
  rw [hname, hh.name_trimmed]

/-- What follows a header begins with no white space. -/
theorem head_headers {hs : List Header} (hhs : ∀ h ∈ hs, IsField h) (rest : Text) :
    ∀ c ∈ (hs.flatMap headerText ++ '\r' :: rest).head?, isWSP c = false := by
  intro c hc
  cases hs with
  | nil =>
    obtain rfl : '\r' = c := Option.some.inj hc
    rfl
  | cons h hs =>
    have hh := hhs h (List.mem_cons_self ..)
    rw [List.flatMap_cons, headerText_eq, List.append_assoc, List.append_assoc] at hc
    cases hline : fieldLine h with
    | nil => exact absurd hline (by unfold fieldLine; simp)
    | cons d line =>
      rw [hline] at hc
      exact (hh.head c (by rw [hline]; exact hc)).1

/-- **The headers are read as they were written.** -/
theorem getHeaders_text {n : ℕ} {hs : List Header} (hhs : ∀ h ∈ hs, IsField h)
    (hn : hs.length < n) :
    SipParser.getHeaders n (hs.flatMap headerText ++ ['\r', '\n']) = hs := by
  induction hs generalizing n with
  | nil =>
    cases n with
    | zero => exact absurd hn (Nat.not_lt_zero _)
    | succ n => rfl
  | cons h hs ih =>
    cases n with
    | zero => exact absurd hn (Nat.not_lt_zero _)
    | succ n =>
      obtain ⟨hh, hhs⟩ := List.forall_mem_cons.mp hhs
      rw [List.length_cons] at hn
      rw [List.flatMap_cons, List.append_assoc, SipParser.getHeaders,
        getHeader_headerText hh (head_headers hhs ['\n'])]
      dsimp only
      rw [ih hhs (by omega)]

/-! ## The first line -/

/-- A request line or a status line as it may stand in a message. -/
def IsFirstLine : Option StartLine → Prop
  | some (.request method (some uri)) =>
    method ≠ [] ∧ (∀ c ∈ method, isChar c = true ∧ c ≠ '/') ∧ (∃ t ∈ uriSchemes, t <+: uri) ∧
      ∀ c ∈ uri, isUriSeparator c = false ∧ c.toNat < 128
  | some (.status code reason) =>
    (-2147483648 ≤ code ∧ code ≤ 2147483647) ∧ Trimmed reason ∧
      ∀ c ∈ reason, isCRLF c = false ∧ c.toNat < 128
  | _ => False

/-- The first line, without its end. -/
def firstLineText : Option StartLine → Text
  | none => []
  | some (.request method uri) => method ++ ' ' :: (uri.getD "null".toList ++ " SIP/2.0".toList)
  | some (.status code reason) => "SIP/2.0 ".toList ++ (valueOf code ++ ' ' :: reason)

theorem lineText_eq (l : StartLine) :
    lineText (some l) = firstLineText (some l) ++ ['\r', '\n'] := by
  cases l with
  | request method uri =>
    have hend : " SIP/2.0\r\n".toList = " SIP/2.0".toList ++ ['\r', '\n'] := rfl
    show method ++ ' ' :: uri.getD "null".toList ++ " SIP/2.0\r\n".toList =
      method ++ ' ' :: (uri.getD "null".toList ++ " SIP/2.0".toList) ++ ['\r', '\n']
    rw [hend]
    simp only [List.append_assoc, List.cons_append]
  | status code reason =>
    have hend : "\r\n".toList = ['\r', '\n'] := rfl
    show "SIP/2.0 ".toList ++ valueOf code ++ ' ' :: reason ++ "\r\n".toList =
      "SIP/2.0 ".toList ++ (valueOf code ++ ' ' :: reason) ++ ['\r', '\n']
    rw [hend]
    simp only [List.append_assoc, List.cons_append]

/-- The characters of a first line. -/
theorem firstLine_chars {l : StartLine} (h : IsFirstLine (some l)) :
    ∀ c ∈ firstLineText (some l), isCRLF c = false ∧ c.toNat < 128 := by
  intro c hc
  have hchar {d : Char} (hd : isChar d = true) : isCRLF d = false ∧ d.toNat < 128 := by
    obtain ⟨h1, h2⟩ := ViaHeader.isChar_iff.mp hd
    exact ⟨(not_space_of_lt (Char.lt_def.mpr (UInt32.lt_iff_toNat_lt.mpr h1))).2, by omega⟩
  have hfixed {s : Text} (hs : s.all (fun d => !isCRLF d && decide (d.toNat < 128)) = true)
      (hmem : c ∈ s) : isCRLF c = false ∧ c.toNat < 128 := by
    have hall := List.all_eq_true.mp hs c hmem
    simpa using hall
  cases l with
  | request method uri =>
    cases uri with
    | none => exact h.elim
    | some uri =>
      obtain ⟨-, hmethod, -, huri⟩ := h
      rcases List.mem_append.mp hc with hc | hc
      · exact hchar (hmethod c hc).1
      · rcases List.mem_cons.mp hc with rfl | hc
        · decide
        · rcases List.mem_append.mp hc with hc | hc
          · refine ⟨?_, (huri c hc).2⟩
            have hsep := (huri c hc).1
            by_contra hcrlf
            have hor : c = '\r' ∨ c = '\n' := by
              unfold isCRLF at hcrlf
              rwa [Bool.not_eq_false, Bool.or_eq_true, beq_iff_eq, beq_iff_eq] at hcrlf
            rcases hor with rfl | rfl <;> exact absurd hsep (by decide)
          · exact hfixed (by decide) hc
  | status code reason =>
    obtain ⟨-, -, hreason⟩ := h
    rcases List.mem_append.mp hc with hc | hc
    · exact hfixed (by decide) hc
    · rcases List.mem_append.mp hc with hc | hc
      · exact hchar (isChar_valueOf hc)
      · rcases List.mem_cons.mp hc with rfl | hc
        · decide
        · exact hreason c hc

/-- The first line begins with a visible character. -/
theorem firstLine_head {l : StartLine} (h : IsFirstLine (some l)) :
    ∃ c s, firstLineText (some l) = c :: s ∧ isChar c = true := by
  cases l with
  | request method uri =>
    cases uri with
    | none => exact h.elim
    | some uri =>
      obtain ⟨hne, hmethod, -⟩ := h
      cases method with
      | nil => exact absurd rfl hne
      | cons c method => exact ⟨c, _, rfl, (hmethod c (List.mem_cons_self ..)).1⟩
  | status code reason => exact ⟨'S', _, rfl, by decide⟩

theorem toLower_cases (c : Char) : c.toLower = c ∨ 97 ≤ c.toLower.toNat := by
  unfold Char.toLower
  split
  · rename_i h
    right
    obtain ⟨h1, h2⟩ := h
    rw [ge_iff_le, UInt32.le_iff_toNat_le] at h1
    rw [UInt32.le_iff_toNat_le] at h2
    have ha : ('A' : Char).val.toNat = 65 := rfl
    have hz : ('Z' : Char).val.toNat = 90 := rfl
    rw [ha] at h1
    rw [hz] at h2
    show 97 ≤ (c.val + ('a'.val - 'A'.val)).toNat
    have hsub : ('a'.val - 'A'.val).toNat = 32 := rfl
    rw [UInt32.toNat_add, hsub]
    omega
  · exact .inl rfl

/-- A slash is no letter. -/
theorem eq_slash_of_toLower {c : Char} (h : c.toLower = '/') : c = '/' := by
  rcases toLower_cases c with heq | hle
  · rw [← heq, h]
  · rw [h] at hle
    exact absurd hle (by decide)

/-- A request line does not begin with the protocol. -/
theorem not_sipVersion {method rest : Text} (hmethod : ∀ c ∈ method, c ≠ '/') (hne : method ≠ []) :
    equalsIgnoreCase ((method ++ ' ' :: rest).take sipVersion.length) sipVersion = false := by
  by_contra hequals
  have hlower : ((method ++ ' ' :: rest).take 4).map Char.toLower = ['s', 'i', 'p', '/'] := by
    unfold equalsIgnoreCase at hequals
    rw [Bool.not_eq_false, beq_iff_eq] at hequals
    exact hequals
  -- the fourth character is a slash, and none of the first four is a space
  match method with
  | [] => exact hne rfl
  | [a] => simp at hlower
  | [a, b] => simp at hlower
  | [a, b, c] => simp at hlower
  | a :: b :: c :: d :: method =>
    have hd : d.toLower = '/' := by
      simp at hlower
      exact hlower.2.2.2
    exact hmethod d (by simp) (eq_slash_of_toLower hd)

/-- Spaces in front of a text that begins with another character. -/
theorem skipWSP_space {s : Text} (hs : ∀ c ∈ s.head?, c ≠ ' ') : skipWSP (' ' :: s) = s := by
  unfold skipWSP
  rw [List.dropWhile_cons_of_pos (by decide)]
  cases s with
  | nil => rfl
  | cons c s => exact List.dropWhile_cons_of_neg fun hspace => hs c rfl (eq_of_beq hspace)

theorem getFirstLine_request {method uri rest : Text}
    (h : IsFirstLine (some (.request method (some uri)))) (hrest : ∀ c ∈ rest.head?, isWSP c = false) :
    getFirstLine (firstLineText (some (.request method (some uri))) ++ '\r' :: '\n' :: rest) =
      some (some (.request method (some uri)), rest) := by
  have hplain : ∀ c ∈ uri ++ " SIP/2.0".toList, isCRLF c = false := fun c hc =>
    (firstLine_chars h c (List.mem_append_right _ (List.mem_cons_of_mem _ hc))).1
  obtain ⟨hne, hmethod, hscheme, huri⟩ := h
  have huri' : getURI (uri ++ " SIP/2.0".toList) = some uri :=
    getURI_append (a := []) hscheme (fun c hc => (huri c hc).1)
      (fun c hc => by rw [← Option.some.inj hc]; rfl)
      (fun y hy hy' => absurd (List.suffix_nil.mp hy) hy')
  have hhead : ∀ c ∈ (uri ++ " SIP/2.0".toList ++ '\r' :: '\n' :: rest).head?, c ≠ ' ' := by
    intro c hc
    cases uri with
    | nil =>
      obtain ⟨t, ht, hpre⟩ := hscheme
      have hall : ∀ t ∈ uriSchemes, t ≠ [] := by decide
      exact absurd (List.prefix_nil.mp hpre) (hall t ht)
    | cons d uri =>
      obtain rfl : d = c := Option.some.inj hc
      rintro rfl
      exact absurd (huri ' ' (List.mem_cons_self ..)).1 (by decide)
  have htext : firstLineText (some (.request method (some uri))) ++ '\r' :: '\n' :: rest =
      method ++ ' ' :: (uri ++ " SIP/2.0".toList ++ '\r' :: '\n' :: rest) := by
    unfold firstLineText
    simp only [Option.getD_some, List.append_assoc, List.cons_append]
  have hlength : ¬(method ++ ' ' :: (uri ++ " SIP/2.0".toList ++ '\r' :: '\n' :: rest)).length <
      sipVersion.length := by
    have hfour : sipVersion.length = 4 := rfl
    have height : " SIP/2.0".toList.length = 8 := rfl
    rw [List.length_append, List.length_cons, List.length_append, List.length_append, hfour, height]
    omega
  have hmethod' := getString_append (s := ' ' :: (uri ++ " SIP/2.0".toList ++ '\r' :: '\n' :: rest))
    (fun c hc => (hmethod c hc).1) (fun c hc => by rw [← Option.some.inj hc]; rfl) hne
  rw [htext, getFirstLine, if_neg hlength, not_sipVersion (fun c hc => (hmethod c hc).2) hne,
    if_neg Bool.false_ne_true, getRequestLine, hmethod']
  dsimp only
  rw [skipWSP_space hhead, spanEOH_line (folded_of_plain hplain) hrest]
  dsimp only
  rw [huri', goToNextLine_crlf]

theorem getFirstLine_status {code : ℤ} {reason rest : Text}
    (h : IsFirstLine (some (.status code reason))) (hrest : ∀ c ∈ rest.head?, isWSP c = false) :
    getFirstLine (firstLineText (some (.status code reason)) ++ '\r' :: '\n' :: rest) =
      some (some (.status code reason), rest) := by
  obtain ⟨hcode, htrimmed, hreason⟩ := h
  have hfolded : Folded (' ' :: reason) :=
    folded_of_plain (List.forall_mem_cons.mpr ⟨by decide, fun c hc => (hreason c hc).1⟩)
  have htext : firstLineText (some (.status code reason)) ++ '\r' :: '\n' :: rest =
      'S' :: 'I' :: 'P' :: '/' :: (['2', '.', '0'] ++ ' ' ::
        (valueOf code ++ (' ' :: reason ++ '\r' :: '\n' :: rest))) := by
    unfold firstLineText
    simp only [List.append_assoc, List.cons_append, List.nil_append]
    rfl
  have hhead : ∀ c ∈ (valueOf code ++ (' ' :: reason ++ '\r' :: '\n' :: rest)).head?, c ≠ ' ' := by
    intro c hc
    cases hvalue : valueOf code with
    | nil => exact absurd hvalue (valueOf_ne_nil code)
    | cons d s =>
      rw [hvalue] at hc
      obtain rfl : d = c := Option.some.inj hc
      have hchar : isChar d = true := isChar_valueOf (by rw [hvalue]; exact List.mem_cons_self ..)
      rintro rfl
      exact absurd hchar (by decide)
  have hversion := getString_append (t := ['2', '.', '0'])
    (s := ' ' :: (valueOf code ++ (' ' :: reason ++ '\r' :: '\n' :: rest))) (by decide)
    (fun c hc => by rw [← Option.some.inj hc]; rfl) (List.cons_ne_nil _ _)
  have hcode' := getString_append (s := ' ' :: reason ++ '\r' :: '\n' :: rest)
    (fun c => isChar_valueOf (n := code) (c := c)) (fun c hc => by rw [← Option.some.inj hc]; rfl)
    (valueOf_ne_nil code)
  have hread : getString (skipWSP (getString (['2', '.', '0'] ++ ' ' ::
      (valueOf code ++ (' ' :: reason ++ '\r' :: '\n' :: rest)))).2) =
      (valueOf code, ' ' :: reason ++ '\r' :: '\n' :: rest) := by
    rw [hversion, skipWSP_space hhead, hcode']
  rw [htext]
  show getStatusLine _ = _
  unfold getStatusLine
  rw [if_neg (by simp), List.drop_succ_cons, List.drop_succ_cons, List.drop_succ_cons,
    List.drop_succ_cons, List.drop_zero, hread]
  show (parseInt (valueOf code)).map _ = _
  rw [parseInt_valueOf hcode, spanEOH_line hfolded hrest]
  dsimp only
  rw [trim_space htrimmed, goToNextLine_crlf]
  rfl

/-- **The first line is read as it was written.** -/
theorem getFirstLine_lineText {l : StartLine} (h : IsFirstLine (some l)) {rest : Text}
    (hrest : ∀ c ∈ rest.head?, isWSP c = false) :
    getFirstLine (lineText (some l) ++ rest) = some (some l, rest) := by
  have htext : lineText (some l) ++ rest = firstLineText (some l) ++ '\r' :: '\n' :: rest := by
    rw [lineText_eq, List.append_assoc]
    rfl
  rw [htext]
  cases l with
  | request method uri =>
    cases uri with
    | none => exact h.elim
    | some uri => exact getFirstLine_request h hrest
  | status code reason => exact getFirstLine_status h hrest

/-! ## No empty line -/

/-- The end of a line is not followed by another one. -/
def NoBlank (s : Text) : Prop := s.IsChain fun a b => a = '\n' → isCRLF b = false

theorem noBlank_line {s : Text} (hs : Folded s) : NoBlank (s ++ ['\r', '\n']) := by
  unfold NoBlank
  induction s with
  | nil =>
    refine List.isChain_cons.mpr ⟨fun b _ h => absurd h (by decide), List.isChain_singleton _⟩
  | cons c s ih =>
    rw [List.cons_append]
    refine List.isChain_cons.mpr ⟨?_, ih hs.of_cons⟩
    rintro b hb rfl
    have hfolds := hs ('\n' :: s) List.suffix_rfl '\n' rfl rfl
    cases s with
    | nil => exact absurd hfolds (by decide)
    | cons d s =>
      obtain rfl : d = b := Option.some.inj hb
      have hspace : isWSP d = true := hfolds
      unfold isWSP at hspace
      rw [Bool.or_eq_true, beq_iff_eq, beq_iff_eq] at hspace
      rcases hspace with rfl | rfl <;> rfl

theorem NoBlank.append {s t : Text} (hs : NoBlank s) (ht : NoBlank t)
    (hhead : ∀ c ∈ t.head?, isCRLF c = false) : NoBlank (s ++ t) :=
  List.IsChain.append hs ht fun _ _ c hc _ => hhead c hc

theorem noBlank_headers {hs : List Header} (hhs : ∀ h ∈ hs, IsField h) :
    NoBlank (hs.flatMap headerText) ∧ ∀ c ∈ (hs.flatMap headerText).head?, isCRLF c = false := by
  induction hs with
  | nil => exact ⟨List.isChain_nil, fun c hc => absurd hc (by simp)⟩
  | cons h hs ih =>
    obtain ⟨hh, hhs⟩ := List.forall_mem_cons.mp hhs
    obtain ⟨hchain, hhead⟩ := ih hhs
    rw [List.flatMap_cons, headerText_eq]
    refine ⟨(noBlank_line hh.folded).append hchain hhead, fun c hc => ?_⟩
    cases hline : fieldLine h with
    | nil => exact absurd hline (by unfold fieldLine; simp)
    | cons d line =>
      rw [hline] at hc
      exact (hh.head c (by rw [hline]; exact hc)).2

/-! ## The header section -/

/-- A message as it may be sent: the first line and the headers are well formed, and the
Content-Length is the length of the body.  An empty body is null. -/
structure WellFormed (m : BasicSipMessage) : Prop where
  startLine : IsFirstLine m.startLine
  headers : ∀ h ∈ m.headers, IsField h
  contentLength : ∃ clh, m.getHeader SipHeaders.contentLength = some clh ∧
    getInt clh.value = some ((m.body.getD []).length : ℤ)
  body : m.body ≠ some []

/-- The lines of the header section. -/
def sectionLines (m : BasicSipMessage) : Text := lineText m.startLine ++ m.headers.flatMap headerText

theorem getMessageHeader_eq (m : BasicSipMessage) :
    m.getMessageHeader = m.sectionLines ++ ['\r', '\n'] := rfl

section WellFormed

variable {m : BasicSipMessage} (hm : WellFormed m)
include hm

theorem WellFormed.exists_line : ∃ l, m.startLine = some l ∧ IsFirstLine (some l) := by
  have h := hm.startLine
  cases hl : m.startLine with
  | none =>
    rw [hl] at h
    exact h.elim
  | some l =>
    rw [hl] at h
    exact ⟨l, rfl, h⟩

/-- No line within the section is empty. -/
theorem WellFormed.noBlank : NoBlank m.sectionLines := by
  obtain ⟨l, hl, hline⟩ := hm.exists_line
  obtain ⟨hchain, hhead⟩ := noBlank_headers hm.headers
  unfold sectionLines
  rw [hl, lineText_eq]
  exact (noBlank_line (folded_of_plain fun c hc => (firstLine_chars hline c hc).1)).append hchain hhead

/-- The section ends with the end of a line. -/
theorem WellFormed.ends : ∃ s, m.sectionLines = s ++ ['\r', '\n'] := by
  obtain ⟨l, hl, -⟩ := hm.exists_line
  unfold sectionLines
  rw [hl, lineText_eq]
  generalize m.headers = hs
  induction hs using List.reverseRecOn with
  | nil => exact ⟨_, by rw [List.flatMap_nil, List.append_nil]⟩
  | append_singleton hs h _ =>
    refine ⟨firstLineText (some l) ++ ['\r', '\n'] ++ hs.flatMap headerText ++ fieldLine h, ?_⟩
    rw [List.flatMap_append, List.flatMap_singleton, headerText_eq]
    simp only [List.append_assoc]

theorem WellFormed.ascii : ∀ c ∈ m.getMessageHeader, c.toNat < 128 := by
  obtain ⟨l, hl, hline⟩ := hm.exists_line
  have hcrlf : ∀ c ∈ ['\r', '\n'], c.toNat < 128 := by decide
  intro c hc
  rw [getMessageHeader_eq] at hc
  rcases List.mem_append.mp hc with hc | hc
  · unfold sectionLines at hc
    rw [hl, lineText_eq] at hc
    rcases List.mem_append.mp hc with hc | hc
    · rcases List.mem_append.mp hc with hc | hc
      · exact (firstLine_chars hline c hc).2
      · exact hcrlf c hc
    · obtain ⟨h, hh, hc⟩ := List.mem_flatMap.mp hc
      rw [headerText_eq] at hc
      have hfield := hm.headers h hh
      rcases List.mem_append.mp hc with hc | hc
      · unfold fieldLine at hc
        rcases List.mem_append.mp hc with hc | hc
        · exact hfield.ascii c (List.mem_append_left _ hc)
        · rcases List.mem_cons.mp hc with rfl | hc
          · decide
          · rcases List.mem_cons.mp hc with rfl | hc
            · decide
            · exact hfield.ascii c (List.mem_append_right _ hc)
      · exact hcrlf c hc
  · exact hcrlf c hc

/-- The first character is not the end of a line. -/
theorem WellFormed.head : ∃ c s, m.getMessageHeader = c :: s ∧ isCRLF c = false := by
  obtain ⟨l, hl, hline⟩ := hm.exists_line
  obtain ⟨c, s, htext, -⟩ := firstLine_head hline
  have hcrlf := (firstLine_chars hline c (by rw [htext]; exact List.mem_cons_self ..)).1
  rw [getMessageHeader_eq]
  unfold sectionLines
  rw [hl, lineText_eq, htext]
  exact ⟨c, _, rfl, hcrlf⟩

/-- **The header section is read as it was written.** -/
theorem WellFormed.read_section :
    ∃ rest, getFirstLine m.getMessageHeader = some (m.startLine, rest) ∧
      SipParser.getHeaders rest.length rest = m.headers := by
  obtain ⟨l, hl, hline⟩ := hm.exists_line
  have hrest : ∀ c ∈ (m.headers.flatMap headerText ++ ['\r', '\n']).head?, isWSP c = false :=
    head_headers hm.headers ['\n']
  refine ⟨m.headers.flatMap headerText ++ ['\r', '\n'], ?_, getHeaders_text hm.headers ?_⟩
  · rw [getMessageHeader_eq]
    unfold sectionLines
    rw [hl, List.append_assoc, getFirstLine_lineText hline hrest]
  · have hlength : m.headers.length ≤ (m.headers.flatMap headerText).length := by
      generalize m.headers = hs
      induction hs with
      | nil => exact le_rfl
      | cons h hs ih =>
        rw [List.flatMap_cons, headerText_eq, List.length_append, List.length_append,
          List.length_cons]
        have htwo : ['\r', '\n'].length = 2 := rfl
        omega
    have htwo : ['\r', '\n'].length = 2 := rfl
    rw [List.length_append]
    omega

end WellFormed

end BasicSipMessage

end SoftPhone
