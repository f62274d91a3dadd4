import SoftPhone.Text.Headers

/-!
# Headers that are put in

`addHeader` and `addHeaders` put headers in at the top of a message or at its bottom, that is
before the first Content-Length or Content-Type header.  The other headers stay, in their order
(`Inserted`).  At the bottom, `addHeaders` looks at the number of the headers that are new where
`addHeader` looks at the number of those that are there, so it is right on some messages only
(`inserted_iff`).

`setHeader` and `setHeaders` are loops over the list of headers that change it while they run.
They are the same as dividing the list at the first header of the name
(`setHeaderLoop_eq`, `setHeadersLoop_append`), and a field that is not there yet is put in at the
bottom (`setTo_iff`).
-/

namespace SoftPhone

open SipParser

namespace BasicSipMessage

/-! ## The bottom of a message -/

/-- A Content-Length or Content-Type header. -/
def IsBodyHeader (h : Header) : Bool :=
  Named SipHeaders.contentLength h || Named SipHeaders.contentType h

/-- The headers above the first one of the body. -/
def aboveBody (m : BasicSipMessage) : List Header := m.headers.takeWhile (!IsBodyHeader ·)

/-- The first header of the body, and all that are below. -/
def fromBody (m : BasicSipMessage) : List Header := m.headers.dropWhile (!IsBodyHeader ·)

section Bottom

variable {m : BasicSipMessage}

theorem headers_eq (m : BasicSipMessage) : m.headers = m.aboveBody ++ m.fromBody :=
  List.takeWhile_append_dropWhile.symm

theorem take_aboveBody (m : BasicSipMessage) : m.headers.take m.aboveBody.length = m.aboveBody :=
  (congrArg (List.take _) (headers_eq m)).trans (List.take_left' rfl)

theorem drop_aboveBody (m : BasicSipMessage) : m.headers.drop m.aboveBody.length = m.fromBody :=
  (congrArg (List.drop _) (headers_eq m)).trans (List.drop_left' rfl)

theorem length_headers (m : BasicSipMessage) :
    m.headers.length = m.aboveBody.length + m.fromBody.length := by
  conv_lhs => rw [headers_eq, List.length_append]

theorem not_isBodyHeader_of_mem {h : Header} (hh : h ∈ m.aboveBody) : IsBodyHeader h = false := by
  have hnot := List.mem_takeWhile_imp hh
  simpa using hnot

theorem isBodyHeader_head {h : Header} (hh : h ∈ m.fromBody.head?) : IsBodyHeader h = true := by
  have hhead := head_dropWhile h hh
  simpa using hhead

theorem length_aboveBody (m : BasicSipMessage) :
    m.aboveBody.length = min (m.headers.findIdx (Named SipHeaders.contentLength))
      (m.headers.findIdx (Named SipHeaders.contentType)) := by
  unfold aboveBody
  induction m.headers with
  | nil => rfl
  | cons h hs ih =>
    rw [List.takeWhile_cons, List.findIdx_cons, List.findIdx_cons]
    unfold IsBodyHeader at ih ⊢
    cases Named SipHeaders.contentLength h with
    | true => exact (Nat.zero_min _).symm
    | false =>
      cases Named SipHeaders.contentType h with
      | true => exact (Nat.min_zero _).symm
      | false =>
        show (h :: _).length = min (_ + 1) (_ + 1)
        rw [List.length_cons, ih]
        omega

theorem indexOfHeader_getD (hname : Text) (m : BasicSipMessage) (pos : ℕ) :
    (m.indexOfHeader hname).getD pos =
      if m.headers.findIdx (Named hname) < m.headers.length then m.headers.findIdx (Named hname)
      else pos := by
  unfold indexOfHeader
  rw [List.findIdx?_eq_guard_findIdx_lt, Option.guard]
  simp only [decide_eq_true_eq]
  split <;> rfl

/-- The index at the bottom, at most `pos`. -/
theorem bottom_eq (pos : ℕ) (m : BasicSipMessage) :
    m.bottom pos = if m.fromBody = [] then pos else min pos m.aboveBody.length := by
  have hlength := length_headers m
  have habove := length_aboveBody m
  have hcl : m.headers.findIdx (Named SipHeaders.contentLength) ≤ m.headers.length :=
    List.findIdx_le_length
  have hct : m.headers.findIdx (Named SipHeaders.contentType) ≤ m.headers.length :=
    List.findIdx_le_length
  rw [bottom, indexOfHeader_getD, indexOfHeader_getD]
  rw [Nat.min_def] at habove
  simp only [Nat.min_def, ← List.length_eq_zero_iff]
  split_ifs at * <;> omega

/-- Where `addHeader` puts a header. -/
theorem bottom_length (m : BasicSipMessage) : m.bottom m.headers.length = m.aboveBody.length := by
  rw [bottom_eq, length_headers]
  split
  · rename_i hnil
    rw [hnil, List.length_nil, Nat.add_zero]
  · exact Nat.min_eq_right (Nat.le_add_right _ _)

end Bottom

/-! ## Headers that are put in -/

/-- The new headers are put in, in their order, above all headers or at the bottom of the message,
and all that was there stays. -/
structure Inserted (new : List Header) (top : Bool) (m m' : BasicSipMessage) : Prop where
  startLine : m'.startLine = m.startLine
  body : m'.body = m.body
  headers : ∃ above below, m.headers = above ++ below ∧ m'.headers = above ++ new ++ below ∧
    if top then above = []
    else (∀ h ∈ above, IsBodyHeader h = false) ∧ ∀ h ∈ below.head?, IsBodyHeader h = true

section Inserted

variable {new : List Header} {m m' : BasicSipMessage}

/-- A list is divided in one way only. -/
theorem eq_aboveBody {above below : List Header} (hm : m.headers = above ++ below)
    (habove : ∀ h ∈ above, IsBodyHeader h = false)
    (hbelow : ∀ h ∈ below.head?, IsBodyHeader h = true) :
    above = m.aboveBody ∧ below = m.fromBody := by
  have hrun := takeWhile_run (p := (!IsBodyHeader ·)) (a := above) (b := below)
    (fun h hh => by rw [habove h hh]; rfl) (fun h hh => by rw [hbelow h hh]; rfl)
  rw [← hm] at hrun
  exact ⟨hrun.1.symm, hrun.2.symm⟩

theorem inserted_top : Inserted new true m m' ↔ m' = m.insertHeaders 0 new := by
  constructor
  · rintro ⟨hstart, hbody, above, below, hm, hm', htop⟩
    obtain rfl : above = [] := htop
    obtain ⟨startLine, headers, body⟩ := m'
    rw [List.nil_append] at hm
    change headers = _ at hm'
    change startLine = _ at hstart
    change body = _ at hbody
    rw [hstart, hbody, hm', ← hm]
    rfl
  · rintro rfl
    exact ⟨rfl, rfl, [], m.headers, rfl, rfl, rfl⟩

theorem inserted_bottom :
    Inserted new false m m' ↔ m' = m.insertHeaders m.aboveBody.length new := by
  constructor
  · rintro ⟨hstart, hbody, above, below, hm, hm', habove, hbelow⟩
    obtain ⟨rfl, rfl⟩ := eq_aboveBody hm habove hbelow
    obtain ⟨startLine, headers, body⟩ := m'
    change headers = _ at hm'
    change startLine = _ at hstart
    change body = _ at hbody
    unfold insertHeaders
    rw [hstart, hbody, hm', take_aboveBody, drop_aboveBody]
  · rintro rfl
    refine ⟨rfl, rfl, m.aboveBody, m.fromBody, headers_eq m, ?_,
      fun h => not_isBodyHeader_of_mem, fun h => isBodyHeader_head⟩
    show _ ++ _ ++ _ = _
    rw [take_aboveBody, drop_aboveBody]

theorem inserted_addHeader (h : Header) (top : Bool) (m : BasicSipMessage) :
    Inserted [h] top m (m.addHeader h top) := by
  cases top with
  | true => exact inserted_top.mpr rfl
  | false =>
    refine inserted_bottom.mpr ?_
    show m.insertHeaders (m.bottom m.headers.length) [h] = _
    rw [bottom_length]

/-- **What the loop does**: all headers are put in, or an index is out of range. -/
theorem insertElements_eq (i : ℕ) (new : List Header) (m : BasicSipMessage) :
    m.insertElements i new =
      if new = [] ∨ i ≤ m.headers.length then some (m.insertHeaders i new) else none := by
  induction new generalizing i m with
  | nil =>
    rw [if_pos (.inl rfl)]
    show some m = some { m with headers := _ }
    rw [List.append_nil, List.take_append_drop]
  | cons h hs ih =>
    show (m.insertElementAt i h).bind _ = _
    unfold insertElementAt
    by_cases hi : i ≤ m.headers.length
    · have hlength : i + 1 ≤ (m.insertHeaders i [h]).headers.length := by
        show _ ≤ (m.headers.take i ++ [h] ++ m.headers.drop i).length
        simp only [List.length_append, List.length_take, List.length_drop, List.length_cons,
          List.length_nil]
        omega
      have htake : (m.headers.take i ++ [h] ++ m.headers.drop i).take (i + 1) =
          m.headers.take i ++ [h] := List.take_left' (by simp [hi])
      have hdrop : (m.headers.take i ++ [h] ++ m.headers.drop i).drop (i + 1) =
          m.headers.drop i := List.drop_left' (by simp [hi])
      rw [if_pos hi, if_pos (.inr hi), Option.bind_some, ih, if_pos (.inr hlength)]
      unfold insertHeaders
      rw [htake, hdrop]
      simp
    · rw [if_neg hi, if_neg (by simp [hi])]
      rfl

/-- `addHeaders(mheader,true)` is what `setVias` uses. -/
theorem addMultiple_top (mh : MultipleHeader) (m : BasicSipMessage) :
    m.addMultiple mh true = some (m.insertHeaders 0 mh.written) := by
  unfold addMultiple MultipleHeader.written
  split
  · rfl
  · show m.insertElements 0 _ = _
    rw [insertElements_eq, if_pos (.inr (Nat.zero_le _))]

/-- The headers below the index that `addHeaders` takes and above the body. -/
def between (new : List Header) (m : BasicSipMessage) : List Header :=
  m.aboveBody.drop new.length

/-- The bottom is where `addHeaders` puts these headers: there are so many headers in the message,
or one of the body, and the new ones can change places with the headers that they are put above. -/
def PutsAtBottom (new : List Header) (m : BasicSipMessage) : Prop :=
  new = [] ∨ (new.length ≤ m.headers.length ∨ m.fromBody ≠ []) ∧
    new ++ m.between new = m.between new ++ new

instance (new : List Header) (m : BasicSipMessage) : Decidable (PutsAtBottom new m) :=
  inferInstanceAs (Decidable (_ ∨ _))

/-- Headers put in at the index `n` stand at the bottom. -/
theorem insertHeaders_eq_iff {n : ℕ} (hn : n ≤ m.aboveBody.length) :
    m.insertHeaders n new = m.insertHeaders m.aboveBody.length new ↔
      new ++ m.aboveBody.drop n = m.aboveBody.drop n ++ new := by
  have htake : m.headers.take n = m.aboveBody.take n := by
    rw [headers_eq, List.take_append_of_le_length hn]
  have hdrop : m.headers.drop n = m.aboveBody.drop n ++ m.fromBody := by
    rw [headers_eq, List.drop_append_of_le_length hn]
  have hleft : (m.insertHeaders n new).headers =
      m.aboveBody.take n ++ ((new ++ m.aboveBody.drop n) ++ m.fromBody) := by
    show m.headers.take n ++ new ++ m.headers.drop n = _
    rw [htake, hdrop, List.append_assoc, List.append_assoc]
  have hright : (m.insertHeaders m.aboveBody.length new).headers =
      m.aboveBody.take n ++ ((m.aboveBody.drop n ++ new) ++ m.fromBody) := by
    show m.headers.take _ ++ new ++ m.headers.drop _ = _
    rw [take_aboveBody, drop_aboveBody, ← List.append_assoc (List.take n _),
      ← List.append_assoc (List.take n _), List.take_append_drop]
  constructor
  · intro h
    have hheaders := congrArg BasicSipMessage.headers h
    rw [hleft, hright] at hheaders
    exact List.append_cancel_right (List.append_cancel_left hheaders)
  · intro h
    have hheaders : (m.insertHeaders n new).headers =
        (m.insertHeaders m.aboveBody.length new).headers := by
      rw [hleft, hright, h]
    unfold insertHeaders at hheaders ⊢
    exact congrArg (fun hs => BasicSipMessage.mk m.startLine hs m.body) hheaders

/-- **Where `addHeaders` is right at the bottom.** -/
theorem inserted_addHeaders_iff (new : List Header) (m : BasicSipMessage) :
    (∃ m', m.addHeaders new false = some m' ∧ Inserted new false m m') ↔ m.PutsAtBottom new := by
  have hrun : m.addHeaders new false = m.insertElements (m.bottom new.length) new := rfl
  have hlength := length_headers m
  by_cases hnew : new = []
  · rw [hrun, insertElements_eq, if_pos (.inl hnew)]
    refine ⟨fun _ => .inl hnew, fun _ => ⟨_, rfl, inserted_bottom.mpr ?_⟩⟩
    have hsame (i : ℕ) : m.insertHeaders i [] = m := by
      unfold insertHeaders
      rw [List.append_nil, List.take_append_drop]
    rw [hnew, hsame, hsame]
  · by_cases hin : new.length ≤ m.headers.length ∨ m.fromBody ≠ []
    · -- the index is in range, and not below the bottom
      have hbottom : m.bottom new.length = min new.length m.aboveBody.length := by
        rw [bottom_eq]
        split
        · rename_i hnil
          rw [hnil, List.length_nil, Nat.add_zero] at hlength
          rw [Nat.min_eq_left (hlength ▸ hin.resolve_right fun h => h hnil)]
        · rfl
      have hle : min new.length m.aboveBody.length ≤ m.headers.length := by
        rw [hlength]
        exact (Nat.min_le_right _ _).trans (Nat.le_add_right _ _)
      rw [hrun, insertElements_eq, hbottom, if_pos (.inr hle)]
      have hbetween : m.aboveBody.drop (min new.length m.aboveBody.length) = m.between new := by
        unfold between
        rcases Nat.le_total new.length m.aboveBody.length with h | h
        · rw [Nat.min_eq_left h]
        · rw [Nat.min_eq_right h, List.drop_length, List.drop_eq_nil_of_le h]
      have hiff : m.insertHeaders (min new.length m.aboveBody.length) new =
          m.insertHeaders m.aboveBody.length new ↔ _ :=
        insertHeaders_eq_iff (Nat.min_le_right new.length m.aboveBody.length)
      rw [hbetween] at hiff
      constructor
      · rintro ⟨m', hm', hinserted⟩
        rw [← Option.some.inj hm'] at hinserted
        exact .inr ⟨hin, hiff.mp (inserted_bottom.mp hinserted)⟩
      · intro h
        exact ⟨_, rfl, inserted_bottom.mpr (hiff.mpr (h.resolve_left hnew).2)⟩
    · rw [not_or, not_le, not_not] at hin
      have hnone : m.insertElements (m.bottom new.length) new = none := by
        rw [insertElements_eq, bottom_eq, if_pos hin.2, if_neg]
        rw [not_or, not_le]
        exact ⟨hnew, hin.1⟩
      rw [hrun, hnone]
      constructor
      · rintro ⟨m', hm', -⟩
        exact nomatch hm'
      · intro h
        rcases (h.resolve_left hnew).1 with hle | hbody
        · omega
        · exact absurd hin.2 hbody

end Inserted

/-! ## The methods that put headers in -/

/-- A call of `addHeader(header,top)`, `addHeaders(headers,top)` or `addHeaders(mheader,top)`. -/
inductive Addition where
  | addHeader (h : Header)
  | addHeaders (hs : List Header)
  | addMultiple (mh : MultipleHeader)

namespace Addition

/-- The headers that are new. -/
def new : Addition → List Header
  | .addHeader h => [h]
  | .addHeaders hs => hs
  | .addMultiple mh => mh.written

/-- What the call does; none is an exception. -/
def run (top : Bool) (m : BasicSipMessage) : Addition → Option BasicSipMessage
  | .addHeader h => some (m.addHeader h top)
  | .addHeaders hs => m.addHeaders hs top
  | .addMultiple mh => m.addMultiple mh top

/-- One header is put in, by `addHeader`. -/
def IsSingle : Addition → Prop
  | .addHeader _ => True
  | .addHeaders _ => False
  | .addMultiple mh => mh.compact = true

end Addition

/-- **A call puts the new headers where they belong, and keeps all others in their order, if and
only if** they belong to the top, or it is one header, or the number of the new ones leads to the
bottom. -/
theorem inserted_iff (a : Addition) (top : Bool) (m : BasicSipMessage) :
    (∃ m', a.run top m = some m' ∧ Inserted a.new top m m') ↔
      top = true ∨ a.IsSingle ∨ m.PutsAtBottom a.new := by
  cases top with
  | true =>
    refine ⟨fun _ => .inl rfl, fun _ => ⟨m.insertHeaders 0 a.new, ?_, inserted_top.mpr rfl⟩⟩
    cases a with
    | addHeader h => rfl
    | addHeaders hs =>
      show m.insertElements 0 hs = _
      rw [insertElements_eq, if_pos (.inr (Nat.zero_le _))]
      rfl
    | addMultiple mh => exact addMultiple_top mh m
  | false =>
    rw [or_iff_right Bool.false_ne_true]
    cases a with
    | addHeader h => exact ⟨fun _ => .inl trivial, fun _ => ⟨_, rfl, inserted_addHeader h false m⟩⟩
    | addHeaders hs => exact (inserted_addHeaders_iff hs m).trans (or_iff_right id).symm
    | addMultiple mh =>
      show (∃ m', m.addMultiple mh false = some m' ∧ Inserted mh.written false m m') ↔
        mh.compact = true ∨ m.PutsAtBottom mh.written
      unfold addMultiple MultipleHeader.written
      cases mh.compact with
      | true =>
        exact ⟨fun _ => .inl rfl, fun _ => ⟨_, rfl, inserted_addHeader mh.toHeader false m⟩⟩
      | false =>
        rw [or_iff_right Bool.false_ne_true]
        exact inserted_addHeaders_iff mh.getHeaders m

/-- A message with two headers. -/
def toAndFrom : BasicSipMessage where
  headers := [⟨SipHeaders.to, "<sip:b@h>".toList⟩, ⟨SipHeaders.from, "<sip:a@h>".toList⟩]

/-- **One new header is put in at the index 1, in the middle.** -/
theorem addHeaders_not_inserted : ¬∃ m', toAndFrom.addHeaders [⟨SipHeaders.server, []⟩] false =
    some m' ∧ Inserted [⟨SipHeaders.server, []⟩] false toAndFrom m' := by
  rw [inserted_addHeaders_iff]
  decide

/-! ## Loops over the headers -/

/-- The loop of `removeAllHeaders`, from the index `i` on. -/
def removeLoop (hname : Text) (i : ℕ) (hs : List Header) : List Header :=
  if hi : i < hs.length then
    if Named hname hs[i] then removeLoop hname i (hs.eraseIdx i) else removeLoop hname (i + 1) hs
  else hs
termination_by hs.length - i
decreasing_by
  · rw [List.length_eraseIdx_of_lt hi]
    omega
  · omega

/-- The loop of `setHeader`, from the index `i` on: `not_found`, and the headers. -/
def setHeaderLoop (h : Header) (notFound : Bool) (i : ℕ) (hs : List Header) : Bool × List Header :=
  if hi : i < hs.length then
    if Named h.name hs[i] then
      if notFound then setHeaderLoop h false (i + 1) (hs.set i h)
      else setHeaderLoop h false i (hs.eraseIdx i)
    else setHeaderLoop h notFound (i + 1) hs
  else (notFound, hs)
termination_by hs.length - i
decreasing_by
  · rw [List.length_set]
    omega
  · rw [List.length_eraseIdx_of_lt hi]
    omega
  · omega

/-- The loop of `setHeaders`, from the index `i` on.  The new headers are put in before the first one
of the name, and this one is the next that is looked at: `i+=hs.size()-1`, and then `i++`. -/
def setHeadersLoop (hname : Text) (new : List Header) (notFound : Bool) (i : ℕ)
    (hs : List Header) : Bool × List Header :=
  if hi : i < hs.length then
    if Named hname hs[i] then
      if notFound then
        setHeadersLoop hname new false (i + new.length) (hs.take i ++ new ++ hs.drop i)
      else setHeadersLoop hname new false i (hs.eraseIdx i)
    else setHeadersLoop hname new notFound (i + 1) hs
  else (notFound, hs)
termination_by (notFound.toNat, hs.length - i)
decreasing_by
  · exact Prod.Lex.left _ _ (by simp_all)
  · refine Prod.Lex.right' _ (by simp) ?_
    rw [List.length_eraseIdx_of_lt hi]
    omega
  · exact Prod.Lex.right _ (by omega)

/-- `setHeaders(mheader)`; none is an exception. -/
def setHeaders (mh : MultipleHeader) (m : BasicSipMessage) : Option BasicSipMessage :=
  if mh.compact then some (m.setHeader mh.toHeader)
  else
    let p := setHeadersLoop mh.name mh.getHeaders true 0 m.headers
    let m := { m with headers := p.2 }
    if p.1 then m.addMultiple mh false else some m

section Loops

variable (hname : Text)

/-- What has been looked at stays, and the headers of the name are removed from the others. -/
theorem removeLoop_append (seen rest : List Header) :
    removeLoop hname seen.length (seen ++ rest) = seen ++ rest.filter (!Named hname ·) := by
  induction rest generalizing seen with
  | nil => rw [removeLoop, dif_neg (by simp), List.filter_nil]
  | cons h rest ih =>
    have hin : seen.length < (seen ++ h :: rest).length := by simp
    have hget : (seen ++ h :: rest)[seen.length] = h := by simp
    rw [removeLoop, dif_pos hin, hget]
    cases hn : Named hname h with
    | true =>
      rw [if_pos rfl, List.eraseIdx_append_of_length_le le_rfl, Nat.sub_self,
        List.eraseIdx_cons_zero, ih, List.filter_cons_of_neg (by simp [hn])]
    | false =>
      have hlength : seen.length + 1 = (seen ++ [h]).length := by simp
      rw [if_neg (by simp), List.append_cons, hlength, ih, List.filter_cons_of_pos (by simp [hn]),
        ← List.append_cons]

/-- `removeAllHeaders` is its loop. -/
theorem removeLoop_eq (m : BasicSipMessage) :
    removeLoop hname 0 m.headers = (m.removeAllHeaders hname).headers :=
  removeLoop_append hname [] m.headers

/-- When the first header has been replaced, the others are removed. -/
theorem setHeaderLoop_false (h : Header) (i : ℕ) (hs : List Header) :
    setHeaderLoop h false i hs = (false, removeLoop h.name i hs) := by
  fun_induction removeLoop h.name i hs with
  | case1 i hs hi hn ih => rw [setHeaderLoop, dif_pos hi, if_pos hn, if_neg (by simp), ih]
  | case2 i hs hi hn ih => rw [setHeaderLoop, dif_pos hi, if_neg hn, ih]
  | case3 i hs hi => rw [setHeaderLoop, dif_neg hi]

theorem setHeadersLoop_false (new : List Header) (i : ℕ) (hs : List Header) :
    setHeadersLoop hname new false i hs = (false, removeLoop hname i hs) := by
  fun_induction removeLoop hname i hs with
  | case1 i hs hi hn ih => rw [setHeadersLoop, dif_pos hi, if_pos hn, if_neg (by simp), ih]
  | case2 i hs hi hn ih => rw [setHeadersLoop, dif_pos hi, if_neg hn, ih]
  | case3 i hs hi => rw [setHeadersLoop, dif_neg hi]

/-- The loop of `setHeader`, where `seen` has been looked at. -/
theorem setHeaderLoop_append (h : Header) (seen rest : List Header) :
    setHeaderLoop h true seen.length (seen ++ rest) =
      (!rest.any (Named h.name), seen ++ replaceFirst h rest) := by
  induction rest generalizing seen with
  | nil => rw [setHeaderLoop, dif_neg (by simp)]; rfl
  | cons h' rest ih =>
    have hin : seen.length < (seen ++ h' :: rest).length := by simp
    have hget : (seen ++ h' :: rest)[seen.length] = h' := by simp
    have hlength (h : Header) : seen.length + 1 = (seen ++ [h]).length := by simp
    rw [setHeaderLoop, dif_pos hin, hget, replaceFirst, List.any_cons]
    cases hn : Named h.name h' with
    | true =>
      rw [if_pos rfl, if_pos rfl, if_pos rfl, List.set_append_right _ _ le_rfl, Nat.sub_self,
        List.set_cons_zero, setHeaderLoop_false, List.append_cons, hlength h, removeLoop_append,
        ← List.append_cons]
      rfl
    | false =>
      rw [if_neg (by simp), if_neg (by simp), List.append_cons, hlength h', ih, ← List.append_cons]
      rfl

theorem hasHeader_eq_any (hname : Text) (m : BasicSipMessage) :
    m.hasHeader hname = m.headers.any (Named hname) := by
  rw [Bool.eq_iff_iff, hasHeader, getHeader, List.find?_isSome, List.any_eq_true]

theorem replaceFirst_of_not {h : Header} {hs : List Header} (hs' : hs.any (Named h.name) = false) :
    replaceFirst h hs = hs := by
  induction hs with
  | nil => rfl
  | cons h' hs ih =>
    rw [List.any_cons, Bool.or_eq_false_iff] at hs'
    rw [replaceFirst, if_neg (by simp [hs'.1]), ih hs'.2]

/-- `setHeader` is its loop, and `addHeader` at the bottom if it has found nothing. -/
theorem setHeaderLoop_eq (h : Header) (m : BasicSipMessage) :
    m.setHeader h =
      let p := setHeaderLoop h true 0 m.headers
      let m := { m with headers := p.2 }
      if p.1 then m.addHeader h false else m := by
  have hloop := setHeaderLoop_append h [] m.headers
  rw [List.length_nil, List.nil_append] at hloop
  rw [hloop, setHeader, hasHeader_eq_any]
  cases hn : m.headers.any (Named h.name) with
  | true => rfl
  | false =>
    have hsame : replaceFirst h m.headers = m.headers := replaceFirst_of_not hn
    show m.addHeader h false = BasicSipMessage.addHeader h false { m with headers := _ }
    rw [List.nil_append, hsame]

/-- The loop of `setHeaders`, where `seen` has been looked at. -/
theorem setHeadersLoop_append (new seen rest : List Header) :
    setHeadersLoop hname new true seen.length (seen ++ rest) =
      if rest.any (Named hname) then
        (false, seen ++ (rest.takeWhile (!Named hname ·) ++ new ++
          (rest.dropWhile (!Named hname ·)).filter (!Named hname ·)))
      else (true, seen ++ rest) := by
  induction rest generalizing seen with
  | nil => rw [setHeadersLoop, dif_neg (by simp)]; rfl
  | cons h rest ih =>
    have hin : seen.length < (seen ++ h :: rest).length := by simp
    have hget : (seen ++ h :: rest)[seen.length] = h := by simp
    rw [setHeadersLoop, dif_pos hin, hget, List.any_cons, List.takeWhile_cons, List.dropWhile_cons]
    cases hn : Named hname h with
    | true =>
      have hlength : seen.length + new.length = (seen ++ new).length := by simp
      rw [if_pos rfl, if_pos rfl, if_pos (by simp), List.take_left' rfl, List.drop_left' rfl,
        setHeadersLoop_false, hlength, removeLoop_append]
      simp
    | false =>
      have hlength : seen.length + 1 = (seen ++ [h]).length := by simp
      rw [if_neg (by simp), List.append_cons, hlength, ih]
      simp

end Loops

/-! ## Headers that are set -/

/-- The headers above the place of the name: those above its first header, or above the bottom if
there is none. -/
def above (hname : Text) (m : BasicSipMessage) : List Header :=
  if m.hasHeader hname then m.headers.takeWhile (!Named hname ·) else m.aboveBody

/-- The headers of the name are the new ones.  They stand at the place of the name, and all others
are as they were, in their order. -/
structure SetTo (hname : Text) (new : List Header) (m m' : BasicSipMessage) : Prop where
  startLine : m'.startLine = m.startLine
  body : m'.body = m.body
  named : m'.getHeaders hname = new
  others : m'.headers.filter (!Named hname ·) = m.headers.filter (!Named hname ·)
  place : ∃ below, m'.headers = m.above hname ++ new ++ below

section SetTo

variable {hname : Text} {new : List Header} {m m' : BasicSipMessage}

theorem not_named_of_not_hasHeader (hm : m.hasHeader hname = false) {h : Header}
    (hh : h ∈ m.headers) : Named hname h = false := by
  rw [hasHeader_eq_any, List.any_eq_false] at hm
  simpa using hm h hh

theorem above_begins (hname : Text) (m : BasicSipMessage) : m.above hname <+: m.headers := by
  unfold above
  split
  · exact List.takeWhile_prefix _
  · exact List.takeWhile_prefix _

theorem not_named_of_mem_above {h : Header} (hh : h ∈ m.above hname) : Named hname h = false := by
  cases hm : m.hasHeader hname with
  | true =>
    rw [above, if_pos hm] at hh
    simpa using List.mem_takeWhile_imp hh
  | false => exact not_named_of_not_hasHeader hm ((above_begins hname m).subset hh)

/-- **There is one such message**: below the new headers are the others that are left. -/
theorem setTo_eq (hnew : ∀ h ∈ new, Named hname h = true) {b : List Header}
    (hm : m.headers = m.above hname ++ b) :
    SetTo hname new m m' ↔
      m' = { m with headers := m.above hname ++ new ++ b.filter (!Named hname ·) } := by
  have habove : (m.above hname).filter (Named hname) = [] :=
    List.filter_eq_nil_iff.mpr fun h hh => by simp [not_named_of_mem_above hh]
  have habove' : (m.above hname).filter (!Named hname ·) = m.above hname :=
    List.filter_eq_self.mpr fun h hh => by simp [not_named_of_mem_above hh]
  have hnew' : new.filter (!Named hname ·) = [] :=
    List.filter_eq_nil_iff.mpr fun h hh => by simp [hnew h hh]
  have hothers : m.headers.filter (!Named hname ·) =
      m.above hname ++ b.filter (!Named hname ·) := by
    conv_lhs => rw [hm, List.filter_append, habove']
  constructor
  · rintro ⟨hstart, hbody, hnamed, hsame, below', hplace⟩
    rw [getHeaders, hplace, List.filter_append, List.filter_append, habove,
      List.filter_eq_self.mpr hnew, List.nil_append, List.append_right_eq_self] at hnamed
    have hbelow : below'.filter (!Named hname ·) = below' :=
      List.filter_eq_self.mpr fun h hh => by simpa using List.filter_eq_nil_iff.mp hnamed h hh
    rw [hplace, List.filter_append, List.filter_append, habove', hnew', hbelow, hothers,
      List.append_nil] at hsame
    obtain ⟨startLine, headers, body⟩ := m'
    change headers = _ at hplace
    change startLine = _ at hstart
    change body = _ at hbody
    rw [hstart, hbody, hplace, List.append_cancel_left hsame]
  · rintro rfl
    refine ⟨rfl, rfl, ?_, ?_, _, rfl⟩
    · show List.filter _ (_ ++ _ ++ _) = _
      rw [List.filter_append, List.filter_append, habove, List.filter_eq_self.mpr hnew,
        List.filter_filter]
      simp
    · show List.filter _ (_ ++ _ ++ _) = _
      rw [List.filter_append, List.filter_append, habove', hnew', hothers, List.filter_filter]
      simp

/-- Where the name is there, the first header of the name and all that follow are below. -/
theorem setTo_of_hasHeader (hnew : ∀ h ∈ new, Named hname h = true)
    (hm : m.hasHeader hname = true) :
    SetTo hname new m { m with headers := m.headers.takeWhile (!Named hname ·) ++ new ++
      (m.headers.dropWhile (!Named hname ·)).filter (!Named hname ·) } := by
  have habove : m.above hname = m.headers.takeWhile (!Named hname ·) := if_pos hm
  rw [setTo_eq hnew (b := m.headers.dropWhile (!Named hname ·)), habove]
  rw [habove]
  exact List.takeWhile_append_dropWhile.symm

/-- Where the name is not there, the new headers are put in at the bottom. -/
theorem setTo_iff_inserted (hnew : ∀ h ∈ new, Named hname h = true)
    (hm : m.hasHeader hname = false) : SetTo hname new m m' ↔ Inserted new false m m' := by
  have habove : m.above hname = m.aboveBody := if_neg (by simp [hm])
  have hfrom : m.fromBody.filter (!Named hname ·) = m.fromBody := by
    refine List.filter_eq_self.mpr fun h hh => ?_
    have hmem : h ∈ m.headers := by
      rw [headers_eq]
      exact List.mem_append_right _ hh
    simp [not_named_of_not_hasHeader hm hmem]
  rw [setTo_eq hnew (b := m.fromBody), inserted_bottom, habove, hfrom]
  · unfold insertHeaders
    rw [take_aboveBody, drop_aboveBody]
  · rw [habove]
    exact headers_eq m

theorem replaceFirst_eq {h : Header} {hs : List Header} (hs' : hs.any (Named h.name) = true) :
    replaceFirst h hs = hs.takeWhile (!Named h.name ·) ++ [h] ++
      (hs.dropWhile (!Named h.name ·)).filter (!Named h.name ·) := by
  induction hs with
  | nil => exact absurd hs' (by simp)
  | cons h' hs ih =>
    rw [replaceFirst, List.takeWhile_cons, List.dropWhile_cons]
    cases hn : Named h.name h' with
    | true => simp [hn]
    | false =>
      rw [List.any_cons, hn, Bool.false_or] at hs'
      rw [if_neg (by simp), ih hs']
      rfl

/-- `setHeader` is always right. -/
theorem setTo_setHeader (h : Header) (m : BasicSipMessage) :
    SetTo h.name [h] m (m.setHeader h) := by
  have hnew : ∀ h' ∈ [h], Named h.name h' = true :=
    List.forall_mem_singleton.mpr (equalsIgnoreCase_self _)
  unfold setHeader
  cases hm : m.hasHeader h.name with
  | true =>
    have hany := hm
    rw [hasHeader_eq_any] at hany
    rw [if_pos rfl, replaceFirst_eq hany]
    exact setTo_of_hasHeader hnew hm
  | false =>
    rw [if_neg (by simp), setTo_iff_inserted hnew hm]
    exact inserted_addHeader h false m

/-- Headers of a new name can only change places with none. -/
theorem putsAtBottom_iff (hnew : ∀ h ∈ new, Named hname h = true)
    (hm : m.hasHeader hname = false) :
    m.PutsAtBottom new ↔ new = [] ∨ (new.length ≤ m.headers.length ∨ m.fromBody ≠ []) ∧
      m.aboveBody.length ≤ new.length := by
  have hnot : ∀ h ∈ m.between new, Named hname h = false := fun h hh =>
    not_named_of_not_hasHeader hm (by
      rw [headers_eq]
      exact List.mem_append_left _ (List.drop_subset _ _ hh))
  unfold PutsAtBottom
  constructor
  · rintro (h | ⟨hin, hcomm⟩)
    · exact .inl h
    · by_cases hnil : new = []
      · exact .inl hnil
      · obtain ⟨h, hs, rfl⟩ := List.exists_cons_of_ne_nil hnil
        cases hb : m.between (h :: hs) with
        | nil => exact .inr ⟨hin, List.drop_eq_nil_iff.mp hb⟩
        | cons h' hs' =>
          rw [hb, List.cons_append, List.cons_append] at hcomm
          have hn := hnew h (List.mem_cons_self ..)
          rw [(List.cons.inj hcomm).1, hnot h' (hb ▸ List.mem_cons_self ..)] at hn
          exact nomatch hn
  · rintro (h | ⟨hin, hle⟩)
    · exact .inl h
    · have hb : m.between new = [] := List.drop_eq_nil_of_le hle
      rw [hb, List.append_nil]
      exact .inr ⟨hin, rfl⟩

end SetTo

/-- What `setHeaders` does with one header for each value. -/
theorem setHeaders_eq {mh : MultipleHeader} (hc : mh.compact = false) (m : BasicSipMessage) :
    m.setHeaders mh =
      if m.hasHeader mh.name then
        some { m with headers := m.headers.takeWhile (!Named mh.name ·) ++ mh.getHeaders ++
          (m.headers.dropWhile (!Named mh.name ·)).filter (!Named mh.name ·) }
      else m.addHeaders mh.getHeaders false := by
  have hloop := setHeadersLoop_append mh.name mh.getHeaders [] m.headers
  rw [List.length_nil, List.nil_append, ← hasHeader_eq_any] at hloop
  rw [setHeaders, if_neg (by simp [hc]), hloop]
  cases m.hasHeader mh.name with
  | true => rfl
  | false =>
    show m.addMultiple mh false = _
    rw [addMultiple, if_neg (by simp [hc])]
    rfl

/-- A call of `setHeader(header)` or `setHeaders(mheader)`. -/
inductive Setting where
  | setHeader (h : Header)
  | setHeaders (mh : MultipleHeader)

namespace Setting

/-- The name of the field. -/
def hname : Setting → Text
  | .setHeader h => h.name
  | .setHeaders mh => mh.name

/-- The headers of the field. -/
def new : Setting → List Header
  | .setHeader h => [h]
  | .setHeaders mh => mh.written

/-- What the call does; none is an exception. -/
def run (m : BasicSipMessage) : Setting → Option BasicSipMessage
  | .setHeader h => some (m.setHeader h)
  | .setHeaders mh => m.setHeaders mh

/-- One header is set, by `setHeader`. -/
def IsSingle : Setting → Prop
  | .setHeader _ => True
  | .setHeaders mh => mh.compact = true

end Setting

/-- **A field is set, in its place, and nothing else is changed, if and only if** it is one header,
or the message has the field, or the number of the new headers leads to the bottom: there are none,
or as many as there are headers above the body, or more if there is a body. -/
theorem setTo_iff (a : Setting) (m : BasicSipMessage) :
    (∃ m', a.run m = some m' ∧ SetTo a.hname a.new m m') ↔
      a.IsSingle ∨ m.hasHeader a.hname = true ∨ a.new = [] ∨
        (a.new.length ≤ m.headers.length ∨ m.fromBody ≠ []) ∧
          m.aboveBody.length ≤ a.new.length := by
  cases a with
  | setHeader h => exact ⟨fun _ => .inl trivial, fun _ => ⟨_, rfl, setTo_setHeader h m⟩⟩
  | setHeaders mh =>
    show (∃ m', m.setHeaders mh = some m' ∧ SetTo mh.name mh.written m m') ↔
      mh.compact = true ∨ m.hasHeader mh.name = true ∨ mh.written = [] ∨
        (mh.written.length ≤ m.headers.length ∨ m.fromBody ≠ []) ∧
          m.aboveBody.length ≤ mh.written.length
    cases hc : mh.compact with
    | true =>
      refine ⟨fun _ => .inl rfl, fun _ => ⟨m.setHeader mh.toHeader, if_pos hc, ?_⟩⟩
      rw [MultipleHeader.written, if_pos hc]
      exact setTo_setHeader mh.toHeader m
    | false =>
      have hnew : ∀ h ∈ mh.getHeaders, Named mh.name h = true := by
        intro h hh
        obtain ⟨v, -, rfl⟩ := List.mem_map.mp hh
        exact equalsIgnoreCase_self _
      rw [or_iff_right Bool.false_ne_true, setHeaders_eq hc, MultipleHeader.written, hc,
        if_neg Bool.false_ne_true]
      cases hm : m.hasHeader mh.name with
      | true => exact ⟨fun _ => .inl rfl, fun _ => ⟨_, rfl, setTo_of_hasHeader hnew hm⟩⟩
      | false =>
        rw [or_iff_right Bool.false_ne_true, ← putsAtBottom_iff hnew hm,
          ← inserted_addHeaders_iff]
        simp only [setTo_iff_inserted hnew hm]
        rfl

/-- One value, to be written in a header of its own. -/
def oneContact : MultipleHeader := ⟨SipHeaders.contact, ["<sip:a@h>".toList], false⟩

/-- **It is put in at the index 1**, and so not at the bottom. -/
theorem setHeaders_not_setTo : ¬∃ m', toAndFrom.setHeaders oneContact = some m' ∧
    SetTo oneContact.name oneContact.written toAndFrom m' := by
  have hnone : toAndFrom.hasHeader oneContact.name = false := by decide
  have hnew : ∀ h ∈ oneContact.written, Named oneContact.name h = true :=
    List.forall_mem_singleton.mpr rfl
  rw [setHeaders_eq rfl, hnone, if_neg Bool.false_ne_true]
  simp only [setTo_iff_inserted hnew hnone]
  rw [show oneContact.getHeaders = oneContact.written from rfl, inserted_addHeaders_iff]
  decide

end BasicSipMessage
end SoftPhone
