import SoftPhone.Text.Framing
import SoftPhone.Text.Lines

/-!
# The header section of what is received

The header section ends with the first blank line: the end of a line, CR LF or CR or LF, is
followed by another one.  `setMessage` looks for CR LF CR LF in all of the bytes, and only if
there is none for LF LF; and it reads headers up to the first line without a colon.

So the headers are all there, and the body starts behind the blank line, if and only if the blank
line is the one that is looked for and no header field is behind a line without a colon
(`faithful_iff`).
-/

namespace SoftPhone

open SipParser

namespace BasicSipMessage

open TcpTransportConnection

/-! ## The first blank line -/

/-- The end of a line is skipped, if there is one. -/
def eatEOL : List UInt8 → Option (List UInt8)
  | 13 :: 10 :: data => some data
  | b :: data => if isCRLFByte b then some data else none
  | [] => none

/-- What follows the first blank line. -/
def afterBlank : List UInt8 → Option (List UInt8)
  | [] => none
  | b :: data => ((eatEOL (b :: data)).bind eatEOL).or (afterBlank data)

/-- The end of a line has a byte or two. -/
theorem eatEOL_eq {data rest : List UInt8} (h : eatEOL data = some rest) :
    ∃ e, data = e ++ rest ∧ (e = [13, 10] ∨ e = [13] ∨ e = [10]) := by
  unfold eatEOL at h
  split at h
  · obtain rfl := Option.some.inj h
    exact ⟨[13, 10], rfl, .inl rfl⟩
  · rename_i b data _
    split at h
    · rename_i hb
      obtain rfl := Option.some.inj h
      unfold isCRLFByte at hb
      rw [Bool.or_eq_true, beq_iff_eq, beq_iff_eq] at hb
      rcases hb with rfl | rfl
      · exact ⟨[13], rfl, .inr (.inl rfl)⟩
      · exact ⟨[10], rfl, .inr (.inr rfl)⟩
    · exact absurd h (by simp)
  · exact absurd h (by simp)

theorem eatEOL_crlf (rest : List UInt8) : eatEOL (13 :: 10 :: rest) = some rest := rfl

theorem eatEOL_lf (rest : List UInt8) : eatEOL (10 :: rest) = some rest := rfl

/-- Two ends of lines are not more than four bytes, and four only as CR LF CR LF. -/
theorem eatEOL_twice {data rest : List UInt8} (h : (eatEOL data).bind eatEOL = some rest) :
    (∃ e, data = e ++ rest ∧ e.length ≤ 3) ∨ data = [13, 10, 13, 10] ++ rest := by
  obtain ⟨middle, hfirst, hsecond⟩ := Option.bind_eq_some_iff.mp h
  obtain ⟨e, rfl, he⟩ := eatEOL_eq hfirst
  obtain ⟨e', rfl, he'⟩ := eatEOL_eq hsecond
  rcases he with rfl | rfl | rfl <;> rcases he' with rfl | rfl | rfl
  · exact .inr rfl
  all_goals exact .inl ⟨_, (List.append_assoc _ _ _).symm, by decide⟩

/-- **The first blank line is not behind another one.** -/
theorem afterBlank_append {d : List UInt8} (hd : d = [13, 10, 13, 10] ∨ d = [10, 10])
    (a c : List UInt8) : ∃ rest, afterBlank (a ++ (d ++ c)) = some rest ∧ c.length ≤ rest.length := by
  induction a with
  | nil =>
    refine ⟨c, ?_, le_rfl⟩
    rcases hd with rfl | rfl
    · show ((eatEOL (13 :: 10 :: 13 :: 10 :: c)).bind eatEOL).or _ = _
      rw [eatEOL_crlf, Option.bind_some, eatEOL_crlf]
      rfl
    · show ((eatEOL (10 :: 10 :: c)).bind eatEOL).or _ = _
      rw [eatEOL_lf, Option.bind_some, eatEOL_lf]
      rfl
  | cons b a ih =>
    show ∃ rest, ((eatEOL (b :: (a ++ (d ++ c)))).bind eatEOL).or (afterBlank (a ++ (d ++ c))) =
      some rest ∧ _
    cases htwice : (eatEOL (b :: (a ++ (d ++ c)))).bind eatEOL with
    | none => exact ih
    | some rest =>
      refine ⟨rest, rfl, ?_⟩
      have htwo : 2 ≤ d.length := by
        rcases hd with rfl | rfl <;> decide
      rcases eatEOL_twice htwice with ⟨e, heq, hle⟩ | heq
      · have hlength := congrArg List.length heq
        simp only [List.length_cons, List.length_append] at hlength
        omega
      · -- four bytes are more than `b` and the two LF
        have hlength := congrArg List.length heq
        simp only [List.length_cons, List.length_append, List.length_nil] at hlength
        by_cases ha : 2 ≤ a.length + d.length - 2
        · omega
        · rcases hd with rfl | rfl
          · simp only [List.length_cons, List.length_nil] at ha
            omega
          · match a with
            | [] =>
              exact absurd (List.cons.inj (List.cons.inj heq).2).2 (by simp)
            | [x] =>
              exact absurd (List.cons.inj (List.cons.inj (List.cons.inj heq).2).2).1 (by simp)
            | _ :: _ :: _ =>
              simp only [List.length_cons] at ha
              omega

/-- What follows the blank line is the end of the bytes. -/
theorem afterBlank_suffix {data rest : List UInt8} (h : afterBlank data = some rest) :
    rest <:+ data := by
  induction data with
  | nil => exact absurd h (by simp [afterBlank])
  | cons b data ih =>
    rw [afterBlank] at h
    cases htwice : (eatEOL (b :: data)).bind eatEOL with
    | none =>
      rw [htwice] at h
      exact (ih h).trans (List.suffix_cons b data)
    | some rest' =>
      rw [htwice] at h
      obtain rfl : rest' = rest := Option.some.inj h
      rcases eatEOL_twice htwice with ⟨e, heq, -⟩ | heq
      · exact ⟨e, heq.symm⟩
      · exact ⟨_, heq.symm⟩

/-! ## The delimiter -/

/-- Where the delimiter is found. -/
theorem indexOf_some {delim data : List UInt8} {i : ℕ}
    (h : ByteUtils.indexOf delim data = some i) :
    ∃ a c, data = a ++ (delim ++ c) ∧ a.length = i := by
  induction data generalizing i with
  | nil =>
    unfold ByteUtils.indexOf at h
    split at h
    · rename_i hnil
      rw [hnil]
      exact ⟨[], [], rfl, Option.some.inj h⟩
    · exact absurd h (by simp)
  | cons b data ih =>
    unfold ByteUtils.indexOf at h
    split at h
    · rename_i hpre
      obtain ⟨c, hc⟩ := List.isPrefixOf_iff_prefix.mp hpre
      exact ⟨[], c, hc.symm, Option.some.inj h⟩
    · obtain ⟨j, hj, rfl⟩ := Option.map_eq_some_iff.mp h
      obtain ⟨a, c, rfl, rfl⟩ := ih hj
      exact ⟨b :: a, c, rfl, rfl⟩

/-- Where the delimiter is not found. -/
theorem not_infix_of_indexOf {delim data : List UInt8}
    (h : ByteUtils.indexOf delim data = none) : ¬delim <:+: data := by
  induction data with
  | nil =>
    intro hinfix
    rw [List.infix_nil.mp hinfix] at h
    exact absurd h (by simp [ByteUtils.indexOf])
  | cons b data ih =>
    intro hinfix
    unfold ByteUtils.indexOf at h
    split at h
    · exact absurd h (by simp)
    · rename_i hpre
      rcases List.infix_cons_iff.mp hinfix with hpre' | hinfix
      · exact hpre (List.isPrefixOf_iff_prefix.mpr hpre')
      · exact ih (Option.map_eq_none_iff.mp h) hinfix

/-- What is in front of the rest. -/
def before (data rest : List UInt8) : List UInt8 := data.take (data.length - rest.length)

/-- The bytes in front of the rest end with the delimiter that `setMessage` looks for. -/
def Delimited (data rest : List UInt8) : Prop :=
  [13, 10, 13, 10] <:+ before data rest ∨
    [10, 10] <:+ before data rest ∧ ¬[13, 10, 13, 10] <:+: data

instance (data rest : List UInt8) : Decidable (Delimited data rest) :=
  inferInstanceAs (Decidable (_ ∨ _))

theorem before_append {data rest : List UInt8} (h : rest <:+ data) :
    before data rest ++ rest = data := by
  obtain ⟨a, rfl⟩ := h
  unfold before
  rw [List.length_append, Nat.add_sub_cancel, List.take_left]

/-- The delimiter in front of what follows the first blank line is the first one. -/
theorem indexOf_before {d data rest : List UInt8} (hd : d = [13, 10, 13, 10] ∨ d = [10, 10])
    (h : afterBlank data = some rest) (hend : d <:+ before data rest) :
    ByteUtils.indexOf d data = some (data.length - rest.length - d.length) := by
  have hdata := before_append (afterBlank_suffix h)
  obtain ⟨a, ha⟩ := hend
  rw [← ha] at hdata
  rw [List.append_assoc] at hdata
  have hfirst : ByteUtils.indexOf d (a ++ (d ++ rest)) = some a.length := by
    refine indexOf_append (List.prefix_append _ _) ?_ fun y hy hne hpre => ?_
    · rcases hd with rfl | rfl
      · exact List.cons_ne_nil _ _
      · exact List.cons_ne_nil _ _
    · -- an earlier one would be an earlier blank line
      obtain ⟨c, hc⟩ := hpre
      obtain ⟨x, rfl⟩ := hy
      have hdata' : x ++ (d ++ c) = data := by
        rw [hc, ← hdata]
        simp only [List.append_assoc]
      obtain ⟨rest', hrest', hle⟩ := afterBlank_append hd x c
      rw [hdata', h] at hrest'
      obtain rfl := Option.some.inj hrest'
      have hlength := congrArg List.length hc
      have hpos := List.length_pos_iff.mpr hne
      simp only [List.length_append] at hlength
      omega
  rw [← hdata, hfirst]
  simp only [List.length_append]
  congr 1
  omega

/-- **The header section ends with the first blank line if and only if this is the delimiter that
is looked for.** -/
theorem headerLength_iff {data rest : List UInt8} (h : afterBlank data = some rest) :
    headerLength data = some (data.length - rest.length) ↔ Delimited data rest := by
  have hle := (afterBlank_suffix h).length_le
  constructor
  · intro hlength
    unfold headerLength at hlength
    have hend {d : List UInt8} {i : ℕ} (hi : ByteUtils.indexOf d data = some i)
        (hn : i + d.length = data.length - rest.length) : d <:+ before data rest := by
      obtain ⟨a, c, rfl, rfl⟩ := indexOf_some hi
      unfold before
      rw [← hn, ← List.length_append, ← List.append_assoc, List.take_left]
      exact List.suffix_append _ _
    split at hlength
    · rename_i i hi
      exact .inl (hend hi (Option.some.inj hlength))
    · rename_i hnone
      obtain ⟨i, hi, hn⟩ := Option.map_eq_some_iff.mp hlength
      exact .inr ⟨hend hi hn, not_infix_of_indexOf hnone⟩
  · have hback {d : List UInt8} (hend : d <:+ before data rest) :
        data.length - rest.length - d.length + d.length = data.length - rest.length := by
      have hd := hend.length_le
      unfold before at hd
      rw [List.length_take] at hd
      omega
    rintro (hend | ⟨hend, hnot⟩)
    · unfold headerLength
      rw [indexOf_before (.inl rfl) h hend]
      exact congrArg some (hback hend)
    · have hnone : ByteUtils.indexOf [13, 10, 13, 10] data = none := by
        cases hi : ByteUtils.indexOf [13, 10, 13, 10] data with
        | none => rfl
        | some i =>
          obtain ⟨a, c, rfl, -⟩ := indexOf_some hi
          exact absurd ⟨a, c, by rw [List.append_assoc]⟩ hnot
      unfold headerLength
      rw [hnone, indexOf_before (.inr rfl) h hend]
      exact congrArg some (hback hend)

/-! ## The first line -/

/-- What follows the first line, which is the line of the first visible character. -/
def afterFirstLine (s : Text) : Text := nextLine (s.dropWhile (!isChar ·))

/-- What follows the first line, or the line of the status code if this is another one. -/
def afterStartLine (s : Text) : Text :=
  if equalsIgnoreCase (s.take sipVersion.length) sipVersion then
    nextLine (getString (getString (s.drop 4)).2).2
  else afterFirstLine s

theorem dropWhile_suffix_dropWhile {α : Type} (p : α → Bool) {x y : List α} (h : y <:+ x) :
    y.dropWhile p <:+ x.dropWhile p := by
  induction x with
  | nil =>
    rw [List.suffix_nil.mp h]
  | cons a x ih =>
    rcases List.suffix_cons_iff.mp h with rfl | h
    · exact List.suffix_rfl
    · refine (ih h).trans ?_
      by_cases ha : p a = true
      · rw [List.dropWhile_cons_of_pos ha]
      · rw [List.dropWhile_cons_of_neg ha]
        exact (List.dropWhile_suffix p).trans (List.suffix_cons a x)

/-- What a token leaves, is behind the first visible character. -/
theorem getString_suffix (s : Text) : (getString s).2 <:+ s.dropWhile (!isChar ·) :=
  List.dropWhile_suffix _

/-- Spaces in front of a token do not matter. -/
theorem getString_skipWSP (s : Text) : getString (skipWSP s) = getString s := by
  have hdrop : (skipWSP s).dropWhile (!isChar ·) = s.dropWhile (!isChar ·) := by
    induction s with
    | nil => rfl
    | cons c s ih =>
      unfold skipWSP at ih ⊢
      by_cases hc : c = ' '
      · rw [hc, List.dropWhile_cons_of_pos (by decide), ih, List.dropWhile_cons_of_pos (by decide)]
      · rw [List.dropWhile_cons_of_neg (by simpa using hc)]
  show (List.takeWhile _ (List.dropWhile _ _), List.dropWhile _ (List.dropWhile _ _)) = _
  rw [hdrop]
  rfl

/-- Within a line, a token and spaces are skipped to the same next line. -/
theorem nextLine_skipWSP_getString (s : Text) :
    nextLine (skipWSP (getString s).2) = afterFirstLine s := by
  have hnot {p : Char → Bool} (hp : ∀ c, p c = true → isCRLF c = false) (x : Text) :
      nextLine (x.dropWhile p) = nextLine x := by
    conv_rhs => rw [← List.takeWhile_append_dropWhile (p := p) (l := x)]
    exact (nextLine_append fun c hc => hp c (List.mem_takeWhile_imp hc)).symm
  unfold skipWSP
  rw [hnot]
  · exact hnot (fun c hc => by
      obtain ⟨h1, -⟩ := ViaHeader.isChar_iff.mp hc
      exact (not_space_of_lt (Char.lt_def.mpr (UInt32.lt_iff_toNat_lt.mpr h1))).2) _
  · intro c hc
    rw [eq_of_beq hc]
    rfl

/-- **What the first line leaves.** -/
theorem getFirstLine_rest {s r : Text} {l : Option StartLine} (h : getFirstLine s = some (l, r)) :
    r = afterStartLine s := by
  unfold getFirstLine at h
  split at h
  · exact absurd h (by simp)
  rename_i hlen
  unfold afterStartLine
  split at h
  · rename_i hsip
    rw [if_pos hsip]
    unfold getStatusLine at h
    split at h
    · exact absurd h (by simp)
    · split at h
      · rename_i hnot
        have hsip' : equalsIgnoreCase (s.take 4) "SIP/".toList = true := hsip
        rw [hsip'] at hnot
        exact Bool.noConfusion hnot
      · obtain ⟨code, -, heq⟩ := Option.map_eq_some_iff.mp h
        rw [← (Prod.mk.inj heq).2, getString_skipWSP]
        rfl
  · rename_i hsip
    rw [if_neg hsip, ← (Prod.mk.inj (Option.some.inj h)).2]
    exact nextLine_skipWSP_getString s

/-- The line of the status code is not in front of the first line. -/
theorem lines_afterStartLine (s : Text) :
    lines (afterStartLine s) <:+ lines (afterFirstLine s) := by
  unfold afterStartLine
  split
  · refine lines_nextLine_suffix ?_
    have hsecond := getString_suffix (getString (s.drop 4)).2
    have hfirst := getString_suffix (s.drop 4)
    exact ((hsecond.trans (List.dropWhile_suffix _)).trans hfirst).trans
      (dropWhile_suffix_dropWhile _ (List.drop_suffix 4 s))
  · exact List.suffix_rfl

/-! ## What is read -/

/-- The header fields between the first line and the blank line. -/
def headerFields (s : Text) : List Header := fields (lines (afterFirstLine s))

/-- No header field stands in front of the line of the status code, or behind a line without a
colon. -/
def NoneHidden (s : Text) : Prop :=
  fields (lines (afterStartLine s)) = headerFields s ∧
    fields ((lines (afterStartLine s)).dropWhile hasColon) = []

instance (s : Text) : Decidable (NoneHidden s) := inferInstanceAs (Decidable (_ ∧ _))

/-- The header fields in front of the first blank line are all there, in their order, and the body
is what follows the blank line, as long as it is said to be. -/
def Faithful (charset : Charset) (data : List UInt8) (m : BasicSipMessage) (k : ℤ) : Prop :=
  ∃ rest n, afterBlank data = some rest ∧
    List.Sublist (headerFields (charset.decode (before data rest))) m.headers ∧
    m.bodyLength rest.length = some n ∧ copyBody rest n = some m.body ∧
    k = (data.length - rest.length : ℕ) + n

/-- What `setMessage` has read. -/
theorem setMessage_parts {charset : Charset} {data : List UInt8} {m : BasicSipMessage} {k : ℤ}
    (h : setMessage charset data = some (m, k)) :
    ∃ siphLen r n, headerLength data = some siphLen ∧
      getFirstLine (charset.decode (data.take siphLen)) = some (m.startLine, r) ∧
      m.headers = SipParser.getHeaders r.length r ∧
      m.bodyLength (data.length - siphLen) = some n ∧
      copyBody (data.drop siphLen) n = some m.body ∧ k = siphLen + n := by
  simp only [setMessage, parseHeaders, Option.bind_eq_bind, Option.bind_eq_some_iff] at h
  obtain ⟨q, ⟨siphLen, hlength, p, hline, hq⟩, n, hn, body, hbody, heq⟩ := h
  obtain rfl := Option.some.inj hq
  obtain ⟨rfl, rfl⟩ := Prod.mk.inj (Option.some.inj heq)
  exact ⟨siphLen, p.2, n, hlength, hline, rfl, hn, hbody, rfl⟩

/-- Where the body is, is told by the body and by how many bytes are used. -/
theorem length_of_body {m : BasicSipMessage} {x y : List UInt8} {n n' : ℤ} {total : ℕ}
    (hx : x.length ≤ total) (hy : y.length ≤ total) (hn : m.bodyLength x.length = some n)
    (hn' : m.bodyLength y.length = some n') (hbody : copyBody x n = some m.body)
    (hbody' : copyBody y n' = some m.body)
    (hused : (total - x.length : ℕ) + n = (total - y.length : ℕ) + n') : x.length = y.length := by
  unfold bodyLength at hn hn'
  cases hclh : m.getHeader SipHeaders.contentLength with
  | some clh =>
    rw [hclh] at hn hn'
    obtain rfl := Option.some.inj (hn.symm.trans hn')
    omega
  | none =>
    rw [hclh] at hn hn'
    dsimp only at hn hn'
    by_cases hct : m.hasHeader SipHeaders.contentType = true
    · -- the body is everything, so its length is the length of what follows
      rw [if_pos hct] at hn hn'
      obtain rfl := Option.some.inj hn
      obtain rfl := Option.some.inj hn'
      have hall (z : List UInt8) (hz : copyBody z z.length = some m.body) :
          (m.body.getD []).length = z.length := by
        unfold copyBody at hz
        split at hz
        · rw [if_pos (Int.le_refl _), Int.toNat_natCast, List.take_length] at hz
          rw [← Option.some.inj hz]
          rfl
        · rename_i hnot
          rw [← Option.some.inj hz]
          show 0 = z.length
          omega
      rw [← hall x hbody, ← hall y hbody']
    · rw [if_neg hct] at hn hn'
      obtain rfl := Option.some.inj hn
      obtain rfl := Option.some.inj hn'
      omega

/-- **No header is lost and the body starts behind the blank line, if and only if** the first blank
line is the one that `setMessage` looks for, and no header field stands in front of the line of the
status code or behind a line without a colon. -/
theorem faithful_iff {charset : Charset} {data : List UInt8} {m : BasicSipMessage} {k : ℤ}
    (h : setMessage charset data = some (m, k)) :
    Faithful charset data m k ↔
      ∃ rest, afterBlank data = some rest ∧ Delimited data rest ∧
        NoneHidden (charset.decode (before data rest)) := by
  obtain ⟨siphLen, r, n, hlength, hline, hheaders, hn, hbody, hk⟩ := setMessage_parts h
  have hrange := (range_headerLength hlength).2
  have hread : m.headers = readable r := by
    rw [hheaders, getHeaders_eq]
  -- if the section ends with the blank line, its text is what stands in front
  have hsection {rest : List UInt8} (hsame : headerLength data = some (data.length - rest.length)) :
      List.Sublist (headerFields (charset.decode (before data rest))) m.headers ↔
        NoneHidden (charset.decode (before data rest)) := by
    rw [hlength] at hsame
    obtain rfl := Option.some.inj hsame
    have hr : r = afterStartLine (charset.decode (before data rest)) := getFirstLine_rest hline
    rw [hread, hr]
    exact fields_sublist_iff (lines_afterStartLine _)
  have hdrop : (data.drop siphLen).length = data.length - siphLen := List.length_drop
  constructor
  · rintro ⟨rest, n', hblank, hsub, hn', hbody', hk'⟩
    have hle := (afterBlank_suffix hblank).length_le
    have hsame : (data.drop siphLen).length = rest.length := by
      refine @length_of_body m _ _ _ _ data.length ?_ hle ?_ hn' hbody hbody' ?_
      · omega
      · rw [hdrop]
        exact hn
      · rw [hdrop]
        omega
    have hsame' : headerLength data = some (data.length - rest.length) := by
      rw [hlength]
      congr 1
      omega
    exact ⟨rest, hblank, (headerLength_iff hblank).mp hsame', (hsection hsame').mp hsub⟩
  · rintro ⟨rest, hblank, hdelimited, hhidden⟩
    have hsame := (headerLength_iff hblank).mpr hdelimited
    have hle := (afterBlank_suffix hblank).length_le
    have heq : siphLen = data.length - rest.length := Option.some.inj (hlength.symm.trans hsame)
    have hrest : data.drop siphLen = rest := by
      obtain ⟨a, rfl⟩ := afterBlank_suffix hblank
      rw [heq, List.length_append, Nat.add_sub_cancel, List.drop_left]
    refine ⟨rest, n, hblank, (hsection hsame).mpr hhidden, ?_, ?_, ?_⟩
    · rw [← hn]
      congr 1
      omega
    · rw [← hrest]
      exact hbody
    · rw [hk, heq]

/-- A message with these lines behind the request line. -/
def withLines (s : String) : List UInt8 :=
  Charset.latin1.encode ("BYE sip:a@h SIP/2.0\r\n".toList ++ s.toList)

/-- A folded header, one without a value, and one behind it. -/
theorem faithful_iff_folded :
    ∃ m k, setMessage .latin1 (withLines "Subject: a\r\n b\r\nAllow:\r\nContent-Length: 2\r\n\r\nxy") =
        some (m, k) ∧
      Faithful .latin1 (withLines "Subject: a\r\n b\r\nAllow:\r\nContent-Length: 2\r\n\r\nxy") m k := by
  have hsome : (setMessage .latin1
      (withLines "Subject: a\r\n b\r\nAllow:\r\nContent-Length: 2\r\n\r\nxy")).isSome = true := by
    decide +kernel
  obtain ⟨⟨m, k⟩, h⟩ := Option.isSome_iff_exists.mp hsome
  exact ⟨m, k, h, (faithful_iff h).mpr ⟨_, rfl, by decide +kernel, by decide +kernel⟩⟩

/-- **A header behind a line without a colon is lost**, here the Content-Length, and with it the
body. -/
theorem contentLength_lost :
    (setMessage .latin1 (withLines "Allow: BYE\r\nx\r\nContent-Length: 2\r\n\r\nxy")).map
        (fun p => (p.1.headers, p.1.body)) = some ([⟨"Allow".toList, "BYE".toList⟩], none) ∧
      afterBlank (withLines "Allow: BYE\r\nx\r\nContent-Length: 2\r\n\r\nxy") = some [120, 121] ∧
      headerFields (Charset.latin1.decode
          (before (withLines "Allow: BYE\r\nx\r\nContent-Length: 2\r\n\r\nxy") [120, 121])) =
        [⟨"Allow".toList, "BYE".toList⟩, ⟨SipHeaders.contentLength, "2".toList⟩] := by
  decide +kernel

end BasicSipMessage

end SoftPhone
