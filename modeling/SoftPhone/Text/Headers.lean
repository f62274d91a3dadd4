import SoftPhone.Text.Factory
import SoftPhone.Text.Quoted

/-!
# What is found in a message after a header was changed

The accessors read the headers of one name, `getHeaders`.  Each method that changes the list of
headers is described by what `getHeaders` returns afterwards: a header of another name does not
matter, and the headers that were put in are the ones that are found.

A value of a field with several values has no comma of its own.  So it is the same value
whether it stands in one header with others or alone (`skips_of_mem_values`), and the list of
values is the same after `setVias`, `setRoutes` and `setRecordRoutes` (`getMultiple_of_getHeaders`).
-/

namespace SoftPhone

open SipParser

namespace BasicSipMessage

/-! ## One header -/

theorem named_eq {n : Text} {h : Header} (hn : Named n h = true) (hname : Text) :
    Named hname h = equalsIgnoreCase hname n :=
  (equalsIgnoreCase_congr hn hname).symm

theorem named_mk (hname n value : Text) : Named hname ⟨n, value⟩ = equalsIgnoreCase hname n := rfl

theorem getHeader_eq_head? (hname : Text) (m : BasicSipMessage) :
    m.getHeader hname = (m.getHeaders hname).head? := by
  unfold getHeader getHeaders
  rw [List.head?_filter]

theorem named_of_mem_getHeaders {hname : Text} {m : BasicSipMessage} {h : Header}
    (hh : h ∈ m.getHeaders hname) : Named hname h = true :=
  (List.mem_filter.mp hh).2

theorem named_of_getHeader {hname : Text} {m : BasicSipMessage} {h : Header}
    (hh : m.getHeader hname = some h) : Named hname h = true :=
  List.find?_some hh

theorem hasHeader_eq (hname : Text) (m : BasicSipMessage) :
    m.hasHeader hname = (m.getHeaders hname != []) := by
  unfold hasHeader
  rw [getHeader_eq_head?]
  cases m.getHeaders hname <;> rfl

/-! ## Several headers -/

/-- Headers of another name are put in. -/
theorem getHeaders_insertHeaders_of_not {hname : Text} {new : List Header}
    (hnew : ∀ h ∈ new, Named hname h = false) (i : ℕ) (m : BasicSipMessage) :
    (m.insertHeaders i new).getHeaders hname = m.getHeaders hname := by
  have hnil : new.filter (Named hname) = [] :=
    List.filter_eq_nil_iff.mpr fun h hh => by simp [hnew h hh]
  show List.filter _ (_ ++ _ ++ _) = List.filter _ _
  rw [List.filter_append, List.filter_append, hnil, List.append_nil, ← List.filter_append,
    List.take_append_drop]

/-- Headers of this name are put in, and there was none. -/
theorem getHeaders_insertHeaders_of_nil {hname : Text} {new : List Header} {m : BasicSipMessage}
    (hnew : ∀ h ∈ new, Named hname h = true) (hm : m.getHeaders hname = []) (i : ℕ) :
    (m.insertHeaders i new).getHeaders hname = new := by
  have hall : List.filter (Named hname) (m.headers.take i ++ m.headers.drop i) = [] := by
    rw [List.take_append_drop]
    exact hm
  rw [List.filter_append, List.append_eq_nil_iff] at hall
  show List.filter _ (_ ++ _ ++ _) = _
  rw [List.filter_append, List.filter_append, hall.1, hall.2, List.filter_eq_self.mpr hnew,
    List.nil_append, List.append_nil]

/-- Headers of this name are put in at the top. -/
theorem getHeaders_insertHeaders_zero {hname : Text} {new : List Header}
    (hnew : ∀ h ∈ new, Named hname h = true) (m : BasicSipMessage) :
    (m.insertHeaders 0 new).getHeaders hname = new ++ m.getHeaders hname := by
  show List.filter _ (_ ++ _ ++ _) = _
  rw [List.filter_append, List.filter_append, List.take_zero, List.drop_zero, List.filter_nil,
    List.nil_append, List.filter_eq_self.mpr hnew]
  rfl

theorem getHeaders_addHeader_of_not {hname : Text} {h : Header} (hh : Named hname h = false)
    (top : Bool) (m : BasicSipMessage) :
    (m.addHeader h top).getHeaders hname = m.getHeaders hname :=
  getHeaders_insertHeaders_of_not (List.forall_mem_singleton.mpr hh) _ m

theorem getHeaders_addHeader_of_nil {hname : Text} {h : Header} {m : BasicSipMessage}
    (hh : Named hname h = true) (hm : m.getHeaders hname = []) (top : Bool) :
    (m.addHeader h top).getHeaders hname = [h] :=
  getHeaders_insertHeaders_of_nil (List.forall_mem_singleton.mpr hh) hm _

/-! ## Headers that replace others -/

theorem getHeaders_removeAllHeaders_self (hname : Text) (m : BasicSipMessage) :
    (m.removeAllHeaders hname).getHeaders hname = [] := by
  refine List.filter_eq_nil_iff.mpr fun h hh => ?_
  have hnot := (List.mem_filter.mp hh).2
  simpa using hnot

theorem getHeaders_removeAllHeaders_of_ne {hname n : Text}
    (hne : equalsIgnoreCase hname n = false) (m : BasicSipMessage) :
    (m.removeAllHeaders n).getHeaders hname = m.getHeaders hname := by
  show List.filter _ (List.filter _ _) = List.filter _ _
  rw [List.filter_filter]
  refine List.filter_congr fun h _ => ?_
  cases hn : Named n h with
  | true => simp [not_named hn hne]
  | false => simp

theorem getHeaders_removeHeader_of_ne {hname n : Text}
    (hne : equalsIgnoreCase hname n = false) (m : BasicSipMessage) :
    (m.removeHeader n).getHeaders hname = m.getHeaders hname := by
  show List.filter _ (List.eraseP _ _) = List.filter _ _
  induction m.headers with
  | nil => rfl
  | cons h hs ih =>
    cases hn : Named n h with
    | true => rw [List.eraseP_cons_of_pos hn, List.filter_cons_of_neg (by simp [not_named hn hne])]
    | false =>
      rw [List.eraseP_cons_of_neg (by simp [hn]), List.filter_cons, List.filter_cons, ih]

theorem filter_replaceFirst_of_not {hname : Text} {h : Header} (hh : Named hname h = false)
    (hs : List Header) :
    (replaceFirst h hs).filter (Named hname) = hs.filter (Named hname) := by
  have hne : equalsIgnoreCase hname h.name = false := hh
  induction hs with
  | nil => rfl
  | cons h' hs ih =>
    unfold replaceFirst
    cases hn : Named h.name h' with
    | true =>
      rw [if_pos rfl, List.filter_cons_of_neg (by simp [hh]),
        List.filter_cons_of_neg (by simp [not_named hn hne])]
      exact getHeaders_removeAllHeaders_of_ne hne { headers := hs }
    | false =>
      rw [if_neg (by simp), List.filter_cons, List.filter_cons, ih]

theorem filter_replaceFirst {h : Header} {hs : List Header}
    (hhas : (hs.find? (Named h.name)).isSome = true) :
    (replaceFirst h hs).filter (Named h.name) = [h] := by
  induction hs with
  | nil => exact absurd hhas (by simp)
  | cons h' hs ih =>
    unfold replaceFirst
    cases hn : Named h.name h' with
    | true =>
      have hself : Named h.name h = true := equalsIgnoreCase_self _
      rw [if_pos rfl, List.filter_cons_of_pos hself]
      exact congrArg (h :: ·) (getHeaders_removeAllHeaders_self h.name { headers := hs })
    | false =>
      rw [List.find?_cons_of_neg (by simp [hn])] at hhas
      rw [if_neg (by simp), List.filter_cons_of_neg (by simp [hn]), ih hhas]

theorem getHeaders_setHeader_of_not {hname : Text} {h : Header} (hh : Named hname h = false)
    (m : BasicSipMessage) : (m.setHeader h).getHeaders hname = m.getHeaders hname := by
  unfold setHeader
  split
  · exact filter_replaceFirst_of_not hh m.headers
  · exact getHeaders_addHeader_of_not hh false m

/-- The header that was set is the only one of its name. -/
theorem getHeaders_setHeader {hname : Text} {h : Header} (hh : Named hname h = true)
    (m : BasicSipMessage) : (m.setHeader h).getHeaders hname = [h] := by
  have hname_eq (m : BasicSipMessage) : m.getHeaders hname = m.getHeaders h.name :=
    List.filter_congr fun h' _ => by
      show equalsIgnoreCase hname h'.name = equalsIgnoreCase h.name h'.name
      rw [equalsIgnoreCase_comm, equalsIgnoreCase_congr hh, equalsIgnoreCase_comm]
  rw [hname_eq]
  unfold setHeader
  split
  · rename_i hhas
    exact filter_replaceFirst hhas
  · rename_i hnone
    refine getHeaders_addHeader_of_nil (equalsIgnoreCase_self _) ?_ false
    rw [hasHeader_eq] at hnone
    simpa using hnone

theorem getHeaders_setHeader_eq (hname : Text) (h : Header) (m : BasicSipMessage) :
    (m.setHeader h).getHeaders hname = if Named hname h then [h] else m.getHeaders hname := by
  split
  · rename_i hh
    exact getHeaders_setHeader hh m
  · rename_i hh
    exact getHeaders_setHeader_of_not (by simpa using hh) m

theorem getHeaders_addHeader_of_ne {hname n : Text} (hne : equalsIgnoreCase hname n = false)
    (v : Text) (top : Bool) (m : BasicSipMessage) :
    (m.addHeader ⟨n, v⟩ top).getHeaders hname = m.getHeaders hname :=
  getHeaders_addHeader_of_not (h := ⟨n, v⟩) hne top m

/-- A message without headers. -/
theorem getHeaders_mk (hname : Text) (startLine : Option StartLine) :
    getHeaders hname { startLine := startLine } = [] := rfl

/-- Content-Type, Content-Disposition and Content-Length are the headers of the body. -/
theorem getHeaders_setBody {hname : Text}
    (ht : equalsIgnoreCase hname SipHeaders.contentType = false)
    (hd : equalsIgnoreCase hname SipHeaders.contentDisposition = false)
    (hl : equalsIgnoreCase hname SipHeaders.contentLength = false)
    (contentType : Option Text) (body : Option (List UInt8)) (m : BasicSipMessage) :
    (m.setBody contentType body).getHeaders hname = m.getHeaders hname := by
  have hremove : m.removeBody.getHeaders hname = m.getHeaders hname := by
    show (((m.removeHeader _).removeHeader _).removeHeader _).getHeaders hname = _
    rw [getHeaders_removeHeader_of_ne hl, getHeaders_removeHeader_of_ne hd,
      getHeaders_removeHeader_of_ne ht]
  have hlength (n : ℕ) (m : BasicSipMessage) :
      (m.setHeader ⟨SipHeaders.contentLength, valueOf n⟩).getHeaders hname = m.getHeaders hname :=
    getHeaders_setHeader_of_not (h := ⟨_, _⟩) hl m
  unfold setBody
  dsimp only
  split
  · rw [← hremove]
    exact hlength 0 _
  · rw [← hremove]
    exact hlength 0 _
  · cases contentType with
    | none =>
      rw [← hremove]
      exact hlength _ _
    | some contentType =>
      rw [← hremove]
      exact (hlength _ _).trans (getHeaders_setHeader_of_not (h := ⟨_, _⟩) ht _)

end BasicSipMessage

/-! ## Fields with several values -/

theorem skips_trim {v : Text} (hv : Skips ',' false v) : Skips ',' false (trim v) := by
  have hspace {s : Text} : '"' ∉ s.takeWhile (· ≤ ' ') := fun h =>
    absurd (List.mem_takeWhile_imp h) (by decide)
  have hleft : Skips ',' false (v.dropWhile (· ≤ ' ')) := by
    rw [← List.takeWhile_append_dropWhile (p := (· ≤ ' ')) (l := v), skips_append,
      endsInside_of_not_mem hspace] at hv
    exact hv.2
  have hright : v.dropWhile (· ≤ ' ') = trim v ++
      ((v.dropWhile (· ≤ ' ')).reverse.takeWhile (· ≤ ' ')).reverse := by
    unfold trim
    rw [← List.reverse_append, List.takeWhile_append_dropWhile, List.reverse_reverse]
  rw [hright, skips_append] at hleft
  exact hleft.1

/-- No part has a comma of its own. -/
theorem skips_commaParts (inside : Bool) (s : Text) :
    ∃ p ps, commaParts inside s = p :: ps ∧ Skips ',' inside p ∧ ∀ q ∈ ps, Skips ',' false q := by
  induction s generalizing inside with
  | nil => exact ⟨[], [], rfl, rfl, fun q hq => absurd hq (by simp)⟩
  | cons c s ih =>
    unfold commaParts
    by_cases hc : c = ',' ∧ inside = false
    · rw [if_pos hc]
      obtain ⟨p, ps, heq, hp, hps⟩ := ih false
      refine ⟨[], _, rfl, rfl, ?_⟩
      rw [heq]
      exact List.forall_mem_cons.mpr ⟨hp, hps⟩
    · rw [if_neg hc]
      obtain ⟨p, ps, heq, hp, hps⟩ := ih (if c = '"' then !inside else inside)
      rw [heq]
      exact ⟨c :: p, ps, rfl, skips_cons.mpr ⟨hc, hp⟩, hps⟩

namespace Header

theorem values_of_skips {n v : Text} (hv : Skips ',' false v) : values ⟨n, v⟩ = [v] := by
  have hnot : isCommaSeparated ⟨n, v⟩ = false := by
    show ((spanSkippingQuoted ',' false v).2 != []) = false
    rw [hv]
    rfl
  unfold values
  rw [hnot]
  rfl

theorem skips_of_not_separated {h : Header} (hnot : ¬h.isCommaSeparated = true) :
    Skips ',' false h.value := by
  show (spanSkippingQuoted ',' false h.value).2 = []
  simpa [isCommaSeparated, goToSkippingQuoted] using hnot

/-- Every value of a header stands alone. -/
theorem skips_of_mem_values {h : Header} {v : Text} (hv : v ∈ h.values) : Skips ',' false v := by
  unfold values at hv
  split at hv
  · obtain ⟨q, hq, rfl⟩ := List.mem_map.mp hv
    obtain ⟨p, ps, heq, hp, hps⟩ := skips_commaParts false h.value
    rw [heq] at hq
    exact skips_trim (List.forall_mem_cons.mpr ⟨hp, hps⟩ q hq)
  · rename_i hnot
    rw [List.mem_singleton.mp hv]
    exact skips_of_not_separated hnot

theorem values_ne_nil (h : Header) : h.values ≠ [] := by
  unfold values
  split
  · obtain ⟨p, ps, heq, -, -⟩ := skips_commaParts false h.value
    simp [heq]
  · exact List.cons_ne_nil _ _

end Header

namespace MultipleHeader

/-- What the accessors of a message return: the values are to be written in one header each, and
none of them has a comma. -/
structure Plain (hname : Text) (mh : MultipleHeader) : Prop where
  named : equalsIgnoreCase hname mh.name = true
  compact : mh.compact = false
  ne_nil : mh.values ≠ []
  skips : ∀ v ∈ mh.values, Skips ',' false v

theorem Plain.written {hname : Text} {mh : MultipleHeader} (hmh : mh.Plain hname) :
    mh.written = mh.getHeaders := by
  unfold MultipleHeader.written
  rw [hmh.compact]
  rfl

theorem Plain.named_of_mem {hname : Text} {mh : MultipleHeader} (hmh : mh.Plain hname) {h : Header}
    (hh : h ∈ mh.getHeaders) : BasicSipMessage.Named hname h = true := by
  obtain ⟨v, -, rfl⟩ := List.mem_map.mp hh
  exact hmh.named

/-- The headers are of no other name. -/
theorem Plain.not_named_of_mem {hname other : Text} {mh : MultipleHeader} (hmh : mh.Plain hname)
    (hne : equalsIgnoreCase other hname = false) {h : Header} (hh : h ∈ mh.getHeaders) :
    BasicSipMessage.Named other h = false :=
  BasicSipMessage.not_named (hmh.named_of_mem hh) hne

end MultipleHeader

namespace BasicSipMessage

theorem plain_of_getMultiple {hname : Text} {m : BasicSipMessage} {mh : MultipleHeader}
    (hm : m.getMultiple hname = some mh) : mh.Plain hname := by
  unfold getMultiple at hm
  split at hm
  · exact absurd hm (by simp)
  · rename_i h hs heq
    have hmh := Option.some.inj hm
    subst hmh
    have hmem : h ∈ m.getHeaders hname := by
      rw [heq]
      exact List.mem_cons_self ..
    refine ⟨named_of_mem_getHeaders hmem, rfl, ?_, fun v hv => ?_⟩
    · show (h :: hs).flatMap Header.values ≠ []
      rw [List.flatMap_cons]
      exact fun hnil => h.values_ne_nil (List.append_eq_nil_iff.mp hnil).1
    · obtain ⟨h', -, hv'⟩ := List.mem_flatMap.mp hv
      exact Header.skips_of_mem_values hv'

theorem flatMap_values {n : Text} {vs : List Text} (hvs : ∀ v ∈ vs, Skips ',' false v) :
    (vs.map fun v => (⟨n, v⟩ : Header)).flatMap Header.values = vs := by
  induction vs with
  | nil => rfl
  | cons v vs ih =>
    obtain ⟨hv, hvs⟩ := List.forall_mem_cons.mp hvs
    rw [List.map_cons, List.flatMap_cons, Header.values_of_skips hv, ih hvs]
    rfl

/-- **What was written is read again**: the same values in the same order. -/
theorem getMultiple_of_getHeaders {hname : Text} {m : BasicSipMessage} {mh : MultipleHeader}
    (hmh : mh.Plain hname) (hm : m.getHeaders hname = mh.getHeaders) :
    m.getMultiple hname = some mh := by
  obtain ⟨n, vs, compact⟩ := mh
  have hcompact : compact = false := hmh.compact
  subst hcompact
  cases vs with
  | nil => exact absurd rfl hmh.ne_nil
  | cons v vs =>
    unfold getMultiple
    rw [hm]
    show some (MultipleHeader.mk n _ false) = _
    exact congrArg (fun vs => some (MultipleHeader.mk n vs false)) (flatMap_values (n := n) hmh.skips)

theorem getMultiple_eq_none {hname : Text} {m : BasicSipMessage} :
    m.getMultiple hname = none ↔ m.getHeaders hname = [] := by
  unfold getMultiple
  split
  · rename_i hnil
    exact ⟨fun _ => hnil, fun _ => rfl⟩
  · rename_i heq
    rw [heq]
    exact ⟨fun h => absurd h (by simp), fun h => absurd h (by simp)⟩

/-- A field is read from the headers of its name. -/
theorem getMultiple_congr {hname : Text} {m m' : BasicSipMessage}
    (h : m.getHeaders hname = m'.getHeaders hname) : m.getMultiple hname = m'.getMultiple hname := by
  unfold getMultiple
  rw [h]

theorem getHeader_congr {hname : Text} {m m' : BasicSipMessage}
    (h : m.getHeaders hname = m'.getHeaders hname) : m.getHeader hname = m'.getHeader hname := by
  rw [getHeader_eq_head?, getHeader_eq_head?, h]

/-! ## Via, Route and Record-Route -/

section Set

variable {mh : MultipleHeader} {m : BasicSipMessage}

theorem getHeaders_setVias (hcompact : mh.compact = false)
    (hnamed : equalsIgnoreCase SipHeaders.via mh.name = true) :
    (m.setVias mh).getHeaders SipHeaders.via = mh.getHeaders := by
  have hall : ∀ h ∈ mh.getHeaders, Named SipHeaders.via h = true := by
    rintro h hh
    obtain ⟨v, -, rfl⟩ := List.mem_map.mp hh
    exact hnamed
  unfold setVias MultipleHeader.written
  rw [hcompact]
  exact getHeaders_insertHeaders_of_nil hall (getHeaders_removeAllHeaders_self _ _) _

theorem getHeaders_setVias_of_ne {hname : Text} (hcompact : mh.compact = false)
    (hnamed : equalsIgnoreCase SipHeaders.via mh.name = true)
    (hne : equalsIgnoreCase hname SipHeaders.via = false) :
    (m.setVias mh).getHeaders hname = m.getHeaders hname := by
  have hall : ∀ h ∈ mh.getHeaders, Named hname h = false := by
    rintro h hh
    obtain ⟨v, -, rfl⟩ := List.mem_map.mp hh
    exact not_named (h := ⟨_, _⟩) hnamed hne
  unfold setVias MultipleHeader.written
  rw [hcompact]
  exact (getHeaders_insertHeaders_of_not hall _ _).trans
    (getHeaders_removeAllHeaders_of_ne hne _)

/-- The values that are put in behind a header of the name `refer`. -/
theorem getHeaders_addHeadersAfter {hname refer : Text} (hmh : mh.Plain hname)
    (hm : m.getHeaders hname = []) :
    (m.addHeadersAfter mh refer).getHeaders hname = mh.getHeaders := by
  unfold addHeadersAfter
  rw [hmh.written]
  exact getHeaders_insertHeaders_of_nil (fun h => hmh.named_of_mem) hm _

theorem getHeaders_addHeadersAfter_of_ne {hname other refer : Text} (hmh : mh.Plain hname)
    (hne : equalsIgnoreCase other hname = false) :
    (m.addHeadersAfter mh refer).getHeaders other = m.getHeaders other := by
  unfold addHeadersAfter
  rw [hmh.written]
  exact getHeaders_insertHeaders_of_not (fun h => hmh.not_named_of_mem hne) _ m

theorem getHeaders_addViaHeader {h : Header} (hh : Named SipHeaders.via h = true) :
    (m.addViaHeader h).getHeaders SipHeaders.via = h :: m.getHeaders SipHeaders.via :=
  getHeaders_insertHeaders_zero (List.forall_mem_singleton.mpr hh) m

end Set

/-- The top Via is replaced. -/
theorem getVias_replaceTop {m m' : BasicSipMessage} {mh : MultipleHeader} {v : Text}
    (hm : m.getVias = some mh) (hv : Skips ',' false v) (hm' : m.removeViaHeader = some m') :
    (m'.addViaHeader ⟨mh.name, v⟩).getVias =
        some { mh with values := v :: mh.values.tail } ∧
      ∀ hname, equalsIgnoreCase hname SipHeaders.via = false →
        (m'.addViaHeader ⟨mh.name, v⟩).getHeaders hname = m.getHeaders hname := by
  have hmh : mh.Plain SipHeaders.via := plain_of_getMultiple hm
  have htail : equalsIgnoreCase SipHeaders.via mh.removeTop.name = true := hmh.named
  have hcompact : mh.removeTop.compact = false := hmh.compact
  unfold removeViaHeader at hm'
  rw [hm] at hm'
  have hset : m' = m.setVias mh.removeTop := (Option.some.inj hm').symm
  subst hset
  constructor
  · refine getMultiple_of_getHeaders ⟨hmh.named, hmh.compact, List.cons_ne_nil _ _, ?_⟩ ?_
    · exact List.forall_mem_cons.mpr ⟨hv, fun w hw => hmh.skips w (List.mem_of_mem_tail hw)⟩
    · rw [getHeaders_addViaHeader (h := ⟨_, _⟩) hmh.named, getHeaders_setVias hcompact htail]
      rfl
  · intro hname hne
    rw [show (m.setVias mh.removeTop).addViaHeader ⟨mh.name, v⟩ =
      (m.setVias mh.removeTop).addHeader ⟨mh.name, v⟩ true from rfl,
      getHeaders_addHeader_of_not (not_named (h := ⟨_, _⟩) hmh.named hne),
      getHeaders_setVias_of_ne hcompact htail hne]

end BasicSipMessage
end SoftPhone
