import SoftPhone.Text.UpdatedVia

/-!
# The parameters for a multicast address

For a multicast address `updateViaHeader` sets maddr, and ttl if there is one, each time it is called.
A parameter that is set stands behind the others.  So the two change places and are then in the same
order as before, when each of them occurs once at most (`multicastParams_idem`).
-/

namespace SoftPhone

open SipParser ParametricHeader

namespace HeaderParam

/-! ## Setting a parameter in a list -/

/-- The first parameter of the name is removed, and the new one is put behind the others. -/
def setIn (p : HeaderParam) (params : List HeaderParam) : List HeaderParam :=
  params.eraseP (·.name == p.name) ++ [p]

section SetIn

variable {p t : HeaderParam} {params : List HeaderParam} {name : Text}

theorem any_setIn (hne : name ≠ p.name) (params : List HeaderParam) :
    (setIn p params).any (·.name == name) = params.any (·.name == name) := by
  have hfalse : (p.name == name) = false := by simpa using Ne.symm hne
  rw [setIn, List.any_append, any_without hne, List.any_cons, List.any_nil, hfalse, Bool.or_false,
    Bool.or_false]

theorem lookup_setIn (hne : name ≠ p.name) (params : List HeaderParam) :
    lookup name (setIn p params) = lookup name params := by
  have hnil : [p].find? (·.name == name) = none := by
    refine List.find?_eq_none.mpr fun r hr hname => hne ?_
    rw [List.mem_singleton.mp hr] at hname
    exact (eq_of_beq hname).symm
  rw [lookup, setIn, List.find?_append, hnil, Option.or_none, find_without hne, lookup]

/-- Another parameter stands at the end. -/
theorem readIn_setIn (hne : name ≠ p.name) (params : List HeaderParam) :
    readIn name true (some none) (setIn p params) = some (lookup name params) := by
  have hnot : ∀ r ∈ [p], r.name ≠ name := List.forall_mem_singleton.mpr (Ne.symm hne)
  rw [setIn, readIn_append _ _ _ _ (List.cons_ne_nil _ _), readIn_of_not_mem hnot, readIn_false,
    lookup_without hne]

/-- What is read at all is the first parameter of the name. -/
theorem readIn_eq_lookup (h : readIn name true (some none) params ≠ none) :
    readIn name true (some none) params = some (lookup name params) := by
  induction params with
  | nil => rfl
  | cons r params ih =>
    rw [readIn] at h ⊢
    rw [lookup]
    by_cases hname : r.name = name
    · rw [if_pos hname] at h ⊢
      rw [List.find?_cons_of_pos (by simpa using hname)]
      split at h
      · exact absurd rfl h
      · rename_i hnot
        rw [if_neg hnot]
        rfl
    · rw [if_neg hname] at h ⊢
      rw [List.find?_cons_of_neg (by simpa using hname)]
      exact ih h

/-- A value that is read is the one of a parameter. -/
theorem mem_of_readIn {last : Bool} {b : Text}
    (h : readIn name last (some none) params = some (some b)) :
    ∃ r ∈ params, r.name = name ∧ r.value.map getWordSkippingQuoted = some b := by
  induction params with
  | nil => exact absurd h (by simp [readIn])
  | cons r params ih =>
    rw [readIn] at h
    by_cases hname : r.name = name
    · rw [if_pos hname] at h
      split at h
      · exact absurd h (by simp)
      · exact ⟨r, List.mem_cons_self .., hname, Option.some.inj h⟩
    · rw [if_neg hname] at h
      obtain ⟨q, hq, hread⟩ := ih h
      exact ⟨q, List.mem_cons_of_mem _ hq, hread⟩

/-- No other parameter has the name. -/
def Once (name : Text) (params : List HeaderParam) : Prop :=
  (params.filter (·.name == name)).length ≤ 1

theorem Once.not_mem (h : Once name params) : ∀ r ∈ params.eraseP (·.name == name), r.name ≠ name :=
  fun r hr => by simpa using (length_filter_le_one_iff _ params).mp h r hr

theorem eraseP_of_not (hnot : ∀ r ∈ params, r.name ≠ name) (others : List HeaderParam) :
    (params ++ others).eraseP (·.name == name) = params ++ others.eraseP (·.name == name) :=
  List.eraseP_append_right _ fun r hr => by simpa using hnot r hr

/-- **Setting it again changes nothing.** -/
theorem setIn_setIn (honce : Once p.name params) : setIn p (setIn p params) = setIn p params := by
  have herase : [p].eraseP (·.name == p.name) = [] := List.eraseP_cons_of_pos (by simp)
  rw [setIn, setIn, eraseP_of_not honce.not_mem, herase, List.append_nil]

/-- Two parameters of different names are set. -/
theorem setIn_two (hne : p.name ≠ t.name) (params : List HeaderParam) :
    setIn t (setIn p params) =
      (params.eraseP (·.name == p.name)).eraseP (·.name == t.name) ++ [p, t] := by
  have hfalse : (p.name == t.name) = false := by simpa using hne
  have hp : [p].eraseP (·.name == t.name) = [p] := List.eraseP_cons_of_neg (by simp [hfalse])
  unfold setIn
  by_cases hmem : ∃ r ∈ params.eraseP (·.name == p.name), r.name = t.name
  · obtain ⟨r, hr, hname⟩ := hmem
    rw [List.eraseP_append_left (by simpa using hname) _ hr, List.append_assoc]
    rfl
  · have hnot : ∀ r ∈ params.eraseP (·.name == p.name), r.name ≠ t.name :=
      fun r hr hname => hmem ⟨r, hr, hname⟩
    have hself : (params.eraseP (·.name == p.name)).eraseP (·.name == t.name) =
        params.eraseP (·.name == p.name) :=
      List.eraseP_of_forall_not fun r hr => by simpa using hnot r hr
    rw [eraseP_of_not hnot, hp, hself, List.append_assoc]
    rfl

/-- **Setting both again changes nothing.** -/
theorem setIn_two_idem (hne : p.name ≠ t.name) (hp : Once p.name params) (ht : Once t.name params) :
    setIn t (setIn p (setIn t (setIn p params))) = setIn t (setIn p params) := by
  have hnotp : ∀ r ∈ (params.eraseP (·.name == p.name)).eraseP (·.name == t.name),
      r.name ≠ p.name := fun r hr => hp.not_mem r (List.mem_of_mem_eraseP hr)
  have hnott : ∀ r ∈ (params.eraseP (·.name == p.name)).eraseP (·.name == t.name),
      r.name ≠ t.name := by
    have hfilter := filter_eraseP (p := fun r : HeaderParam => r.name == p.name)
      (q := fun r => r.name == t.name)
      (fun r hr => by rw [eq_of_beq hr]; simpa using hne) params
    have honce : Once t.name (params.eraseP (·.name == p.name)) := by
      rw [Once, hfilter]
      exact ht
    exact honce.not_mem
  have hfalse : (p.name == t.name) = false := by simpa using hne
  have hset : (setIn t (setIn p params)).eraseP (·.name == p.name) =
      (params.eraseP (·.name == p.name)).eraseP (·.name == t.name) ++ [t] := by
    rw [setIn_two hne, eraseP_of_not hnotp]
    exact congrArg _ (List.eraseP_cons_of_pos (by simp))
  have ht' : [t].eraseP (·.name == t.name) = [] := List.eraseP_cons_of_pos (by simp)
  rw [setIn_two hne (setIn t (setIn p params)), hset, eraseP_of_not hnott, ht', List.append_nil,
    setIn_two hne]

theorem mem_setIn {r : HeaderParam} (h : r ∈ setIn p params) : r ∈ params ∨ r = p := by
  rcases List.mem_append.mp h with hr | hr
  · exact .inl (List.mem_of_mem_eraseP hr)
  · exact .inr (List.mem_singleton.mp hr)

end SetIn

end HeaderParam

open HeaderParam

/-- **What `setParameter` makes of the text is what is made of the list.** -/
theorem ParametricValue.setParameter_setIn {x : ParametricValue} {p : HeaderParam}
    (hfound : Found firstSemi x p) (hclosed : ∀ r ∈ x.params, r.Closed)
    (hclear : ∀ r ∈ x.params, clearTail p.name (ViaHeader.addedText r.value) = true) :
    setParameter firstSemi p.name p.value x.text = text ⟨x.head, setIn p x.params⟩ := by
  have hall : clear p.name (x.params.map HeaderParam.segment) = true := by
    have hlist (params : List HeaderParam)
        (h : ∀ r ∈ params, clearTail p.name (ViaHeader.addedText r.value) = true) :
        clear p.name (params.map HeaderParam.segment) = true := by
      induction params with
      | nil => rfl
      | cons r params ih =>
        obtain ⟨hr, hparams⟩ := List.forall_mem_cons.mp h
        rw [List.map_cons, clear, ih hparams]
        simp [HeaderParam.segment, hr]
    exact hlist x.params hclear
  rw [setParameter_text hfound hclosed hall]
  simp [text, without, setIn, paramsText]

namespace ViaHeader

/-! ## maddr and ttl -/

/-- A parameter that the scans read as it was written: its quotes are closed, its value is one word,
and maddr and ttl are not words behind a semicolon in it. -/
structure Legible (r : HeaderParam) : Prop where
  closed : r.Closed
  whole : ∀ v ∈ r.value, getWordSkippingQuoted v = v
  maddr : clearTail maddrParam (addedText r.value) = true
  ttl : clearTail ttlParam (addedText r.value) = true

theorem legible_token {r : HeaderParam}
    (h : ∀ v ∈ r.value, v ≠ [] ∧ ∀ c ∈ v, isParamSeparator c = false ∧ c ≠ '"') : Legible r := by
  have hsemi : ';' ∉ addedText r.value := by
    cases hvalue : r.value with
    | none => exact List.not_mem_nil
    | some v =>
      intro hc
      rcases List.mem_cons.mp hc with hc | hc
      · exact absurd hc (by decide)
      · exact absurd ((h v hvalue).2 _ hc).1 (by decide)
  have hclear (name : Text) : clearTail name (addedText r.value) = true :=
    clearTail_iff.mpr fun z hz => absurd (hz.subset (List.mem_cons_self ..)) hsemi
  refine ⟨fun v hv => ⟨?_, ?_⟩, fun v hv => ?_, hclear _, hclear _⟩
  · exact skips_of_not_mem (fun hc => absurd ((h v hv).2 _ hc).1 (by decide)) _
  · exact endsInside_of_not_mem (fun hc => ((h v hv).2 _ hc).2 rfl) _
  · obtain ⟨hne, hchars⟩ := h v hv
    rw [(IsValue.token v hne hchars).getWordSkippingQuoted.1]
    exact wordSkippingQuoted_token (fun c hc => (hchars c hc).1) fun hc => (hchars _ hc).2 rfl

theorem legible_requests (rport : Bool) : ∀ r ∈ requests rport, Legible r := by
  intro r hr
  cases rport with
  | false => exact absurd hr List.not_mem_nil
  | true =>
    refine legible_token fun v hv => ?_
    rw [List.mem_singleton.mp hr] at hv
    exact absurd hv (by simp [rportFlag])

/-- Neither maddr nor ttl is a parameter of the value that is made. -/
theorem once_requests {r : HeaderParam} (hr : r.name = branchParam) {name : Text}
    (hrport : rportParam ≠ name) (hbranch : branchParam ≠ name) (rport : Bool) :
    Once name (requests rport ++ [r]) := by
  have hnil : (requests rport ++ [r]).filter (·.name == name) = [] := by
    refine List.filter_eq_nil_iff.mpr fun q hq hname => ?_
    rcases List.mem_append.mp hq with hq | hq
    · cases rport with
      | false => exact absurd hq List.not_mem_nil
      | true =>
        rw [List.mem_singleton.mp hq] at hname
        exact hrport (eq_of_beq hname)
    · rw [List.mem_singleton.mp hq, hr] at hname
      exact hbranch (eq_of_beq hname)
  rw [Once, hnil]
  exact Nat.zero_le 1

theorem Legible.skips {r : HeaderParam} (h : Legible r) : Skips ',' false r.toText := by
  have hquote : '"' ∉ r.name := fun hc => (r.nameChars _ hc).2 rfl
  have hcomma : ',' ∉ r.name := fun hc => absurd (r.nameChars _ hc).1 (by decide)
  refine skips_cons.mpr ⟨by decide, ?_⟩
  rw [if_neg (by decide), skips_append, endsInside_of_not_mem hquote]
  refine ⟨skips_of_not_mem hcomma _, ?_⟩
  cases hvalue : r.value with
  | none => exact skips_nil _ _
  | some v =>
    refine skips_cons.mpr ⟨by decide, ?_⟩
    rw [if_neg (by decide)]
    have hwhole := h.whole v hvalue
    rw [(r.isValue v hvalue).getWordSkippingQuoted.1] at hwhole
    exact skips_of_word (by decide) hwhole

theorem skips_paramsText {params : List HeaderParam} (h : ∀ r ∈ params, Legible r) :
    Skips ',' false (paramsText params) := by
  induction params with
  | nil => exact skips_nil _ _
  | cons r params ih =>
    obtain ⟨hr, hparams⟩ := List.forall_mem_cons.mp h
    have hquote : '"' ∉ r.name := fun hc => (r.nameChars _ hc).2 rfl
    have hends : endsInside false r.toText = false := by
      rw [toText, endsInside_cons, if_neg (by decide), endsInside_append,
        endsInside_of_not_mem hquote, hr.closed.added.2]
    show Skips ',' false (r.toText ++ paramsText params)
    rw [skips_append, hends]
    exact ⟨hr.skips, ih hparams⟩

/-- An address for maddr. -/
structure MulticastAddress where
  addr : Text
  ne_nil : addr ≠ []
  chars : ∀ c ∈ addr, isParamSeparator c = false ∧ c ≠ '"'

/-- The parameter maddr. -/
def MulticastAddress.param (a : MulticastAddress) : HeaderParam where
  name := maddrParam
  value := some a.addr
  ne_nil := by decide
  nameChars := by decide
  isValue v hv := by
    rw [← Option.some.inj hv]
    exact .token _ a.ne_nil a.chars

theorem chars_ttl (ttl : ℤ) : ∀ c ∈ valueOf ttl, isParamSeparator c = false ∧ c ≠ '"' := by
  have hfix : ∀ d ∈ [' ', '=', ';', ',', '\n', '\r'], isSeparator d = true := by decide
  intro c hc
  have hsep := not_separator_valueOf hc
  refine ⟨?_, ?_⟩
  · by_contra hparam
    rw [Bool.not_eq_false] at hparam
    rw [hfix c (List.contains_iff_mem.mp hparam)] at hsep
    exact Bool.noConfusion hsep
  · rintro rfl
    exact absurd hsep (by decide)

/-- The parameter ttl. -/
def ttlOf (ttl : ℤ) : HeaderParam where
  name := ttlParam
  value := some (valueOf ttl)
  ne_nil := by decide
  nameChars := by decide
  isValue v hv := by
    rw [← Option.some.inj hv]
    exact .token _ (valueOf_ne_nil ttl) (chars_ttl ttl)

theorem legible_param (a : MulticastAddress) : Legible a.param :=
  legible_token fun v hv => by
    rw [← Option.some.inj hv]
    exact ⟨a.ne_nil, a.chars⟩

theorem legible_ttlOf (ttl : ℤ) : Legible (ttlOf ttl) :=
  legible_token fun v hv => by
    rw [← Option.some.inj hv]
    exact ⟨valueOf_ne_nil ttl, chars_ttl ttl⟩

/-- The parameters when maddr and ttl are set. -/
def multicastParams (a : MulticastAddress) (ttl : ℤ) (params : List HeaderParam) :
    List HeaderParam :=
  if 0 < ttl then setIn (ttlOf ttl) (setIn a.param params) else setIn a.param params

section MulticastParams

variable {a : MulticastAddress} {ttl : ℤ} {params : List HeaderParam}

theorem legible_multicastParams (h : ∀ r ∈ params, Legible r) :
    ∀ r ∈ multicastParams a ttl params, Legible r := by
  have hset {p : HeaderParam} {params : List HeaderParam} (hp : Legible p)
      (h : ∀ r ∈ params, Legible r) : ∀ r ∈ setIn p params, Legible r := by
    intro r hr
    rcases mem_setIn hr with hr | rfl
    · exact h r hr
    · exact hp
  unfold multicastParams
  split
  · exact hset (legible_ttlOf ttl) (hset (legible_param a) h)
  · exact hset (legible_param a) h

/-- **The parameters stay as they are** when maddr and ttl are set again. -/
theorem multicastParams_idem (hmaddr : Once maddrParam params)
    (httl : 0 < ttl → Once ttlParam params) :
    multicastParams a ttl (multicastParams a ttl params) = multicastParams a ttl params := by
  have hne : a.param.name ≠ (ttlOf ttl).name := by
    show maddrParam ≠ ttlParam
    decide
  unfold multicastParams
  split
  · rename_i hpos
    exact setIn_two_idem hne hmaddr (httl hpos)
  · exact setIn_setIn hmaddr

/-- Other parameters are those that were there. -/
theorem reads_multicastParams (a : MulticastAddress) (ttl : ℤ) (params : List HeaderParam)
    {name : Text} (hmaddr : name ≠ maddrParam) (httl : name ≠ ttlParam) :
    (multicastParams a ttl params).any (·.name == name) = params.any (·.name == name) ∧
      readIn name true (some none) (multicastParams a ttl params) = some (lookup name params) := by
  unfold multicastParams
  split
  · refine ⟨(any_setIn (p := ttlOf ttl) httl _).trans (any_setIn (p := a.param) hmaddr _), ?_⟩
    rw [readIn_setIn (p := ttlOf ttl) httl, lookup_setIn (p := a.param) hmaddr]
  · exact ⟨any_setIn (p := a.param) hmaddr _, readIn_setIn (p := a.param) hmaddr _⟩

/-- The text of a value with these parameters. -/
theorem multicast_text {head : Text} (hsemi : ';' ∉ head) (hquote : '"' ∉ head)
    (h : ∀ r ∈ params, Legible r) :
    multicast a.addr ttl (ParametricValue.text ⟨head, params⟩) =
      ParametricValue.text ⟨head, multicastParams a ttl params⟩ := by
  have hmaddr := ParametricValue.setParameter_setIn (x := ⟨head, params⟩) (p := a.param)
    (ParametricValue.found_firstSemi hsemi hquote _) (fun r hr => (h r hr).closed)
    (fun r hr => (h r hr).maddr)
  have hset : ∀ r ∈ setIn a.param params, Legible r := by
    intro r hr
    rcases mem_setIn hr with hr | rfl
    · exact h r hr
    · exact legible_param a
  have httl := ParametricValue.setParameter_setIn (x := ⟨head, setIn a.param params⟩)
    (p := ttlOf ttl) (ParametricValue.found_firstSemi hsemi hquote _)
    (fun r hr => (hset r hr).closed) (fun r hr => (hset r hr).ttl)
  unfold multicast multicastParams
  split
  · exact (congrArg (setTtl ttl) hmaddr).trans httl
  · exact hmaddr

end MulticastParams

/-! ## The value in front of the parameters -/

section Front

variable (proto : Transport) {front : Text} (hfront : ∀ d ∈ front, d ≠ ';' ∧ d ≠ ',' ∧ d ≠ '"')

include hfront

theorem chars_front : ∀ d ∈ transportText proto.name front, d ≠ ';' ∧ d ≠ ',' ∧ d ≠ '"' := by
  rw [transportText_eq]
  intro d hd
  rcases List.mem_append.mp hd with hd | hd
  · exact chars_transportText proto d hd
  · exact hfront d hd

/-- A transport, and a sent-by that is not blank. -/
theorem isHead_transportText (hne : skipWSP front ≠ []) :
    IsHead (transportText proto.name front) := by
  have hchars := chars_front proto hfront
  refine ⟨fun hc => (hchars _ hc).1 rfl, fun hc => (hchars _ hc).2.1 rfl,
    fun hc => (hchars _ hc).2.2 rfl, ?_, ?_⟩
  · rw [behindProtocol_transportText]
    exact List.cons_ne_nil _ _
  · rwa [behindSlashes_transportText]

/-- The branch that is read is the value of a parameter. -/
theorem mem_of_getBranch {params : List HeaderParam}
    (hlegible : ∀ r ∈ params, Legible r) {b : Text}
    (hb : getBranch (transportText proto.name (front ++ paramsText params)) = some (some b)) :
    ∃ r ∈ params, r.name = branchParam ∧ r.value = some b := by
  have hchars := chars_front proto hfront
  have hfound := ParametricValue.found_firstSemi (x := ⟨transportText proto.name front, params⟩)
    (fun hc => (hchars _ hc).1 rfl) (fun hc => (hchars _ hc).2.2 rfl) rportFlag
  have htext : transportText proto.name (front ++ paramsText params) =
      ParametricValue.text ⟨transportText proto.name front, params⟩ := by
    rw [ParametricValue.text, transportText_eq, transportText_eq _ front, List.append_assoc]
  rw [htext, getBranch, ParametricValue.getParameter_text hfound.value
    (fun r hr => (hlegible r hr).closed) (by decide)] at hb
  obtain ⟨r, hr, hrname, hread⟩ := mem_of_readIn hb
  refine ⟨r, hr, hrname, ?_⟩
  cases hvalue : r.value with
  | none =>
    rw [hvalue] at hread
    exact absurd hread (by simp)
  | some w =>
    rw [hvalue, Option.map_some, (hlegible r hr).whole w hvalue] at hread
    exact hread

end Front

/-- The sent-by stands in front of the parameters. -/
theorem getSentBy_text {head : Text} (h : IsHead head) (params : List HeaderParam) :
    getSentBy (ParametricValue.text ⟨head, params⟩) = getSentBy head := by
  show getSentBy (head ++ paramsText params) = _
  obtain hnil | ⟨u, hu⟩ := paramsText_begins params
  · rw [hnil, List.append_nil]
  · rw [hu, getSentBy_append h.sentBy]

end ViaHeader

namespace Connection

open ViaHeader

variable (c : Connection)

/-- A value without parameters that names the connection. -/
structure Heads (head : Text) : Prop where
  isHead : IsHead head
  protocol : equalsIgnoreCase (getProtocol head) c.proto.name = true
  sentBy : c.sameSentBy head = some true

variable {c} {head v : Text} {a : MulticastAddress} {ttl : ℤ} {params : List HeaderParam}

/-- What is read as the host is not blank. -/
theorem skipWSP_ne_nil {proto : Transport} {front : Text}
    (hsame : c.sameSentBy (transportText proto.name (front ++ paramsText params)) = some true) :
    skipWSP front ≠ [] := by
  intro hnil
  obtain ⟨host, hhost, hequal, -⟩ := sameSentBy_iff.mp hsame
  have hbehind : behindSlashes (transportText proto.name (front ++ paramsText params)) =
      skipWSP (paramsText params) := by
    rw [behindSlashes_transportText]
    exact List.dropWhile_append_of_pos (List.dropWhile_eq_nil_iff.mp hnil)
  cases params with
  | nil =>
    have hnone : getSentBy (transportText proto.name (front ++ paramsText [])) = none := by
      unfold behindSlashes at hbehind
      unfold getSentBy
      rw [hbehind]
      rfl
    rw [getHost, hnone] at hhost
    exact absurd hhost (by simp)
  | cons r params =>
    have hempty := getSentBy_eq hbehind (List.cons_ne_nil ';' _)
    rw [getHost, hempty] at hhost
    obtain rfl : [] = host := Option.some.inj hhost
    exact c.host.toText_ne_nil (List.map_eq_nil_iff.mp (eq_of_beq hequal).symm)

theorem isHead_base : IsHead c.base := by
  have hbase : c.base = transportText c.proto.upper.name c.parts.sentBy := ofHost_eq
  have hchars := c.parts.plain_sentBy
  rw [hbase]
  refine isHead_transportText _ (fun d hd => (hchars d hd).2) ?_
  obtain ⟨d, s, hs⟩ := List.exists_cons_of_ne_nil c.parts.isSentBy.ne_nil
  have hd : (d == ' ') = false := by
    have hne := (hchars d (by rw [hs]; exact List.mem_cons_self ..)).1
    simpa using hne
  rw [hs, skipWSP, List.dropWhile_cons_of_neg (by simp [hd])]
  exact List.cons_ne_nil _ _

/-- A value that is sent names the connection without its parameters too. -/
theorem heads_of_outgoing (hhead : IsHead head)
    (hout : c.Outgoing v (ParametricValue.text ⟨head, params⟩)) : c.Heads head := by
  have hsent := getSentBy_text hhead params
  have hproto := hout.protocol
  have hsame := hout.sameSentBy
  rw [sameSentBy_congr (w := head) (by rw [getHost, getHost, hsent])
    (by rw [getPort, getPort, hsent])] at hsame
  rw [ParametricValue.text, getProtocol_append _ hhead.protocol] at hproto
  exact ⟨hhead, hproto, hsame⟩

namespace Heads

variable (h : c.Heads head)

include h

theorem sameSentBy (params : List HeaderParam) :
    c.sameSentBy (ParametricValue.text ⟨head, params⟩) = some true := by
  have hsent := getSentBy_text h.isHead params
  rw [← h.sentBy]
  refine sameSentBy_congr ?_ ?_
  · rw [getHost, getHost, hsent]
  · rw [getPort, getPort, hsent]

theorem protocol_text (params : List HeaderParam) :
    equalsIgnoreCase (getProtocol (ParametricValue.text ⟨head, params⟩)) c.proto.name = true := by
  rw [ParametricValue.text, getProtocol_append _ h.isHead.protocol]
  exact h.protocol

theorem firstSemi (params : List HeaderParam) :
    ParametricHeader.firstSemi (ParametricValue.text ⟨head, params⟩) =
      (head, paramsText params) :=
  h.isHead.span (paramsText_begins params)

variable (hlegible : ∀ r ∈ params, Legible r)

include hlegible

/-- **maddr and ttl are set**, and nothing else. -/
theorem updatedVia (n : Text) :
    c.updatedVia (some a.addr) ttl ⟨n, ParametricValue.text ⟨head, params⟩⟩ =
      some (⟨n, ParametricValue.text ⟨head, multicastParams a ttl params⟩⟩, true) := by
  rw [updatedVia_same (h.sameSentBy params), setTransport_eq_self (h.protocol_text params)]
  show some ((⟨n, multicast a.addr ttl _⟩ : Header), true) = _
  rw [multicast_text h.isHead.semi h.isHead.quote hlegible]

theorem skips : Skips ',' false (ParametricValue.text ⟨head, params⟩) := by
  rw [ParametricValue.text, skips_append, endsInside_of_not_mem h.isHead.quote]
  exact ⟨skips_of_not_mem h.isHead.comma _, skips_paramsText hlegible⟩

/-- **Transport and sent-by are those of the connection**, and the other parameters are those that
were there. -/
theorem outgoing (hout : c.Outgoing v (ParametricValue.text ⟨head, params⟩))
    (hread : getBranch v ≠ none) :
    c.Outgoing v (ParametricValue.text ⟨head, multicastParams a ttl params⟩) := by
  obtain ⟨host, hhost, hequal, hport⟩ :=
    sameSentBy_iff.mp (h.sameSentBy (multicastParams a ttl params))
  have hclosed : ∀ r ∈ params, r.Closed := fun r hr => (hlegible r hr).closed
  have hclosed' : ∀ r ∈ multicastParams a ttl params, r.Closed := fun r hr =>
    (legible_multicastParams hlegible r hr).closed
  have hsemi := h.firstSemi params
  have hsemi' := h.firstSemi (multicastParams a ttl params)
  have hbranchRead := reads_multicastParams a ttl params (show branchParam ≠ maddrParam by decide)
    (by decide)
  have hrportRead := reads_multicastParams a ttl params (show rportParam ≠ maddrParam by decide)
    (by decide)
  have hbranch := hout.branch
  have hhas := hout.hasBranch
  have hrport := hout.rport
  rw [getBranch, ParametricValue.getParameter_text hsemi hclosed (by decide)] at hbranch
  rw [hasBranch, ParametricValue.hasParameter_text hsemi hclosed (by decide)] at hhas
  rw [hasRport, ParametricValue.hasParameter_text hsemi hclosed (by decide)] at hrport
  refine ⟨h.protocol_text _, ⟨host, hhost, hequal⟩, hport, ?_, ?_, ?_⟩
  · rw [getBranch, ParametricValue.getParameter_text hsemi' hclosed' (by decide), hbranchRead.2,
      ← readIn_eq_lookup (by rw [hbranch]; exact hread)]
    exact hbranch
  · rw [← hhas, hasBranch, ParametricValue.hasParameter_text hsemi' hclosed' (by decide)]
    exact hbranchRead.1
  · rw [← hrport, hasRport, ParametricValue.hasParameter_text hsemi' hclosed' (by decide)]
    exact hrportRead.1

end Heads

end Connection
end SoftPhone
