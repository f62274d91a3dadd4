import SoftPhone.Text.ParameterMap
import SoftPhone.Text.SipUri

/-!
# The parameters of a URI

`getParameter`, `hasParameter` and `removeParameter` of class `GenericURI` begin at the first
semicolon of the text, which may be one of the user part.  Then the pieces of the user part are taken
for parameters: they are found, and they are removed.

A URI and a name are `Plain` when no piece of the user part has the name, the URI has at most one
parameter of the name, and this one has a value or is not the last one.  This is exactly when the three
methods answer according to the list of the parameters (`legible_iff`): behind the last parameter
`getParameter` looks for the next character and finds none, and of several parameters
`removeParameter` removes the first one only.  A parameter that is added is read if it has a value and
no other one has the name (`adds_iff`).
-/

namespace SoftPhone

open SipParser ParametricHeader

/-- `getParameter(name)`; the outer `none` is an index out of range. -/
def GenericURI.getParameter (name uri : Text) : Option (Option Text) :=
  let s := (GenericURI.firstSemi uri).2.tail
  findParameter name s.length s

namespace UriParam

/-- What stands behind the semicolon of the parameter. -/
theorem added (p : UriParam) : Added p.name (ViaHeader.addedText p.value) where
  word c hc := (SipUriParts.isUriParamChar_ne (p.nameChars c hc)).1
  ne_nil := p.ne_nil
  stop := by
    intro c hc
    unfold ViaHeader.addedText at hc
    split at hc
    · exact absurd hc (by simp)
    · rw [← Option.some.inj hc]
      decide
  semi := by
    intro hmem
    unfold ViaHeader.addedText at hmem
    split at hmem
    · exact absurd hmem List.not_mem_nil
    · rename_i v hv
      rcases List.mem_cons.mp hmem with h | h
      · exact absurd h (by decide)
      · exact absurd (SipUriParts.isUriParamChar_ne ((p.valueChars v hv).2 _ h)).1 (by decide)
  quote := by
    intro hmem
    unfold ViaHeader.addedText at hmem
    rcases List.mem_append.mp hmem with h | h
    · exact (SipUriParts.isUriParamChar_ne (p.nameChars _ h)).2.1 rfl
    · split at h
      · exact absurd h List.not_mem_nil
      · rename_i v hv
        rcases List.mem_cons.mp h with h | h
        · exact absurd h (by decide)
        · exact (SipUriParts.isUriParamChar_ne ((p.valueChars v hv).2 _ h)).2.1 rfl

/-- The same parameter, of a header. -/
def toHeader (p : UriParam) : HeaderParam where
  name := p.name
  value := p.value
  ne_nil := p.ne_nil
  nameChars c hc :=
    ⟨(SipUriParts.isUriParamChar_ne (p.nameChars c hc)).1,
      (SipUriParts.isUriParamChar_ne (p.nameChars c hc)).2.1⟩
  isValue v hv := by
    obtain ⟨hne, hchars⟩ := p.valueChars v hv
    refine .token v hne fun c hc => ?_
    exact ⟨(SipUriParts.isUriParamChar_ne (hchars c hc)).1,
      (SipUriParts.isUriParamChar_ne (hchars c hc)).2.1⟩

theorem closed_toHeader (p : UriParam) : p.toHeader.Closed := by
  intro v hv
  have hvalue : ViaHeader.addedText p.value = '=' :: v := by
    rw [show p.value = some v from hv]
    rfl
  have hsemi := p.added.semi
  have hquote := p.added.quote
  rw [hvalue] at hsemi hquote
  refine ⟨skips_of_not_mem (fun h => hsemi (List.mem_cons_of_mem _ h)) false,
    endsInside_of_not_mem (fun h => hquote ?_) false⟩
  exact List.mem_append_right _ (List.mem_cons_of_mem _ h)

/-- A value without quotes is read as it is. -/
theorem getWordSkippingQuoted_value (p : UriParam) {v : Text} (hv : p.value = some v) :
    getWordSkippingQuoted v = v := by
  obtain ⟨-, hchars⟩ := p.valueChars v hv
  rw [(p.toHeader.isValue v hv).getWordSkippingQuoted.1]
  exact wordSkippingQuoted_token (fun c hc => (SipUriParts.isUriParamChar_ne (hchars c hc)).1)
    fun hmem => (SipUriParts.isUriParamChar_ne (hchars _ hmem)).2.1 rfl

end UriParam

namespace SipUriParts

/-- The URI without its parameters. -/
def front (u : SipUriParts) : Text :=
  SipURI.init (u.user.map UserInfo.toText) u.host.toText (u.port.getD (-1)) u.secure

/-- The methods answer according to the list of the parameters. -/
structure Legible (u : SipUriParts) (name : Text) : Prop where
  has : GenericURI.hasParameter name u.toText = u.params.any (·.name == name)
  get : GenericURI.getParameter name u.toText =
    some ((u.params.find? (·.name == name)).bind (·.value))
  removed : GenericURI.removeParameter name u.toText =
    { u with params := u.params.filter (·.name != name) }.toText

/-- The parameter that is added is read, and the others are as they were. -/
structure Adds (u : SipUriParts) (p : UriParam) : Prop where
  text : GenericURI.addParameter p.name p.value u.toText =
    { u with params := u.params ++ [p] }.toText
  has : GenericURI.hasParameter p.name (GenericURI.addParameter p.name p.value u.toText) = true
  get : GenericURI.getParameter p.name (GenericURI.addParameter p.name p.value u.toText) =
    some p.value
  others : ∀ name, name ≠ [] → name ≠ p.name →
    GenericURI.hasParameter name (GenericURI.addParameter p.name p.value u.toText) =
        GenericURI.hasParameter name u.toText ∧
      ∀ v, GenericURI.getParameter name u.toText = some v →
        GenericURI.getParameter name (GenericURI.addParameter p.name p.value u.toText) = some v

/-- The name is not the word behind a semicolon of the user part, the URI has at most one parameter of
the name, and the last parameter is none of the name without a value. -/
structure Plain (u : SipUriParts) (name : Text) : Prop where
  user : ∀ z, ';' :: z <:+ u.front → (getWord z).1 ≠ name
  once : (u.params.filter (·.name == name)).length ≤ 1
  last : ∀ r ∈ u.params.getLast?, r.name = name → r.value ≠ none

/-- The URI has no parameter of the name yet, and there is a value; or it has the same one. -/
structure Fresh (u : SipUriParts) (p : UriParam) : Prop where
  same : ∀ r ∈ u.params.find? (·.name == p.name), r.value = p.value
  value : u.params.find? (·.name == p.name) = none → p.value ≠ none

/-! ## The text in front of the parameters -/

section Front

variable (u : SipUriParts)

theorem toText_front : u.toText = u.front ++ paramsText u.params := foldl_addParameter _ _

theorem isSeparator_of_param {c : Char} (h : isParamSeparator c = true) : isSeparator c = true := by
  have hall : ∀ c ∈ [' ', '=', ';', ',', '\n', '\r'], isSeparator c = true := by decide
  exact hall c (List.contains_iff_mem.mp h)

theorem hostPort_ne : ∀ c ∈ u.host.toText ++ portText u.port,
    isParamSeparator c = false ∧ c ≠ '"' := by
  intro c hc
  have hsep {c : Char} (h : isSeparator c = false) : isParamSeparator c = false ∧ c ≠ '"' := by
    refine ⟨Bool.eq_false_iff.mpr fun hparam => ?_, ?_⟩
    · rw [isSeparator_of_param hparam] at h
      exact Bool.noConfusion h
    · rintro rfl
      exact absurd h (by decide)
  rcases List.mem_append.mp hc with hc | hc
  · cases hhost : u.host with
    | name host _ hchars =>
      rw [hhost] at hc
      exact hsep (isHostChar_ne (hchars c hc)).2.1
    | ipv6 addr _ hchars =>
      rw [hhost, Host.toText, List.mem_cons, List.mem_append, List.mem_singleton] at hc
      rcases hc with rfl | hc | rfl
      · decide
      · rcases hchars c hc with rfl | hc
        · decide
        · exact hsep (isHostChar_ne hc).2.1
      · decide
  · unfold portText at hc
    split at hc
    · exact absurd hc List.not_mem_nil
    · rcases List.mem_cons.mp hc with rfl | hc
      · decide
      · exact hsep (ViaHeader.not_separator_valueOf hc)

/-- The scheme, the user part, and host and port. -/
theorem front_eq : u.front = (if u.secure then "sips".toList else "sip".toList) ++ ':' ::
    ((match u.user with
      | none => []
      | some user => user.toText ++ ['@']) ++ (u.host.toText ++ portText u.port)) := by
  have hparts := toText_eq { u with params := [] }
  rw [behindScheme, hostText] at hparts
  have hnil : paramsText [] = [] := rfl
  dsimp only at hparts
  rw [hnil, List.append_nil] at hparts
  rw [front]
  refine Eq.trans ?_ (hparts.trans ?_)
  · rfl
  · cases u.user <;> simp

theorem not_quote_front : '"' ∉ u.front := by
  have hscheme : '"' ∉ (if u.secure then "sips".toList else "sip".toList) := by
    cases u.secure <;> decide
  have huser : '"' ∉ (match u.user with
      | none => []
      | some user => user.toText ++ ['@']) := by
    intro hmem
    split at hmem
    · exact absurd hmem List.not_mem_nil
    · rename_i user _
      rcases List.mem_append.mp hmem with h | h
      · rw [UserInfo.toText, List.mem_append] at h
        rcases h with h | h
        · exact (isUserChar_ne (user.userChars _ h)).2.2.2 rfl
        · split at h
          · exact absurd h List.not_mem_nil
          · rename_i pw hpw
            rcases List.mem_cons.mp h with h | h
            · exact absurd h (by decide)
            · exact (isUserChar_ne (user.passwordChars pw hpw _ h).1).2.2.2 rfl
      · exact absurd h (by decide)
  rw [front_eq, List.mem_append, List.mem_cons, List.mem_append, not_or, not_or, not_or]
  exact ⟨hscheme, by decide, huser, fun h => (u.hostPort_ne _ h).2 rfl⟩

/-- A semicolon in front of the parameters is one of the user part. -/
theorem at_of_semi {z : Text} (hz : ';' :: z <:+ u.front) : '@' ∈ z := by
  rw [front_eq] at hz
  have hscheme : ';' ∉ (if u.secure then "sips".toList else "sip".toList) := by
    cases u.secure <;> decide
  have hhost : ';' ∉ u.host.toText ++ portText u.port := by
    intro h
    have hsemi := (u.hostPort_ne _ h).1
    rw [isParamSeparator_semi] at hsemi
    exact Bool.noConfusion hsemi
  cases huser : u.user with
  | none =>
    rw [huser] at hz
    have hmem := hz.subset (List.mem_cons_self ..)
    rw [List.mem_append, List.mem_cons] at hmem
    rcases hmem with h | h | h
    · exact absurd h hscheme
    · exact absurd h (by decide)
    · exact absurd h hhost
  | some user =>
    rw [huser] at hz
    dsimp only at hz
    rw [List.append_assoc, ← List.cons_append, ← List.append_assoc] at hz
    rcases List.suffix_or_suffix_of_suffix hz (List.suffix_append _ _) with h | h
    · rcases List.mem_cons.mp (h.subset (List.mem_cons_self ..)) with h | h
      · exact absurd h (by decide)
      · exact absurd h hhost
    · rcases List.suffix_cons_iff.mp h with h | h
      · exact absurd (List.cons.inj h).1 (by decide)
      · exact h.subset (List.mem_cons_self ..)

theorem word_of_semi {z : Text} (hz : ';' :: z <:+ u.front) :
    ∃ c ∈ z, isParamSeparator c = false := ⟨'@', u.at_of_semi hz, by decide⟩

/-- The URI does not end with a separator. -/
theorem getLast_toText : ∀ c ∈ u.toText.getLast?, isParamSeparator c = false := by
  intro c hc
  have hlast {a b : Text} (hb : b ≠ []) (hall : ∀ c ∈ b, isParamSeparator c = false)
      (hc : c ∈ (a ++ b).getLast?) : isParamSeparator c = false := by
    rw [List.getLast?_append_of_ne_nil _ hb] at hc
    exact hall c (List.mem_of_getLast? hc)
  rw [toText_front] at hc
  rcases List.eq_nil_or_concat u.params with hnil | ⟨params, p, hparams⟩
  · have hempty : paramsText [] = [] := rfl
    rw [hnil, hempty, List.append_nil, front_eq, ← List.singleton_append, ← List.append_assoc,
      ← List.append_assoc] at hc
    refine hlast ?_ (fun c hc => (u.hostPort_ne c hc).1) hc
    intro hnone
    rw [List.append_eq_nil_iff] at hnone
    cases hhost : u.host with
    | name host hne _ =>
      rw [hhost] at hnone
      exact hne hnone.1
    | ipv6 addr _ _ =>
      rw [hhost] at hnone
      exact absurd hnone.1 (List.cons_ne_nil _ _)
  · have hname : ∀ c ∈ p.name, isParamSeparator c = false := fun c hc =>
      (isUriParamChar_ne (p.nameChars c hc)).1
    have htext : paramsText (params ++ [p]) =
        paramsText params ++ ';' :: (p.name ++ ViaHeader.addedText p.value) := by
      unfold paramsText
      rw [List.flatMap_append, List.flatMap_singleton]
      rfl
    rw [hparams, List.concat_eq_append, htext] at hc
    cases hvalue : p.value with
    | none =>
      have hnil : ViaHeader.addedText none = [] := rfl
      rw [hvalue, hnil, List.append_nil, List.append_cons, ← List.append_assoc,
        ← List.append_assoc] at hc
      exact hlast p.ne_nil hname hc
    | some v =>
      obtain ⟨hne, hchars⟩ := p.valueChars v hvalue
      have hsome : ViaHeader.addedText (some v) = ['='] ++ v := rfl
      rw [hvalue, hsome, ← List.append_assoc, ← List.cons_append, ← List.append_assoc,
        ← List.append_assoc] at hc
      exact hlast hne (fun c hc => (isUriParamChar_ne (hchars c hc)).1) hc

end Front

section Params

variable {params : List UriParam}

theorem not_at_paramsText (params : List UriParam) :
    '@' ∉ paramsText params ∧ '"' ∉ paramsText params := by
  constructor <;> intro h <;> rcases mem_paramsText h with h | h | h
  · exact absurd h (by decide)
  · exact absurd h (by decide)
  · exact (isUriParamChar_ne h).2.2.1 rfl
  · exact absurd h (by decide)
  · exact absurd h (by decide)
  · exact (isUriParamChar_ne h).2.1 rfl

/-- The parameters as those of a header. -/
theorem paramsText_eq (params : List UriParam) :
    paramsText params = HeaderParam.paramsText (params.map UriParam.toHeader) := by
  rw [HeaderParam.paramsText, List.flatMap_map]
  rfl

theorem closed_map (params : List UriParam) : ∀ r ∈ params.map UriParam.toHeader, r.Closed := by
  intro r hr
  obtain ⟨p, -, rfl⟩ := List.mem_map.mp hr
  exact p.closed_toHeader

/-- The parameters are none, or begin with a semicolon. -/
theorem paramsText_cases (params : List UriParam) :
    paramsText params = [] ∨ ∃ u, paramsText params = ';' :: u := by
  have h := HeaderParam.paramsText_begins (params.map UriParam.toHeader)
  rwa [← paramsText_eq] at h

/-- The parameters of the list are the segments of the text. -/
theorem segments_paramsText (params : List UriParam) :
    segments (paramsText params).tail =
      params.map fun p => ⟨p.name, ViaHeader.addedText p.value⟩ := by
  have hrest : ([] : Text) = [] ∨ ∃ u, ([] : Text) = ';' :: u := .inl rfl
  have h := HeaderParam.segments_paramsText (closed_map params) hrest
  have hnil : segments ([] : Text).tail = [] := rfl
  rw [List.append_nil, ← paramsText_eq, hnil, List.append_nil, List.map_map] at h
  exact h

/-- What `getParameter` returns for the parameters of a list. -/
def readValue (name : Text) (params : List UriParam) : Option (Option Text) :=
  HeaderParam.readIn name true (some none) (params.map UriParam.toHeader)

theorem findParameter_paramsText {name : Text} (hp : name ≠ []) {n : ℕ}
    (hn : (paramsText params).tail.length ≤ n) :
    findParameter name n (paramsText params).tail = readValue name params := by
  have hrest : ([] : Text) = [] ∨ ∃ u, ([] : Text) = ';' :: u := .inl rfl
  have h := HeaderParam.findParameter_paramsText (closed_map params) hrest hp (n := n) (m := 0)
    (by rwa [List.append_nil, ← paramsText_eq]) le_rfl
  rw [List.append_nil, ← paramsText_eq] at h
  exact h

/-- No value has a semicolon. -/
theorem clear_map (name : Text) (params : List UriParam) :
    clear name ((params.map UriParam.toHeader).map HeaderParam.segment) = true := by
  induction params with
  | nil => rfl
  | cons p params ih =>
    have htail : clearTail name (ViaHeader.addedText p.value) = true := by
      refine clearTail_iff.mpr fun z hz => ?_
      exact absurd (hz.subset (List.mem_cons_self ..)) p.added.semi
    rw [List.map_cons, List.map_cons, clear, Bool.or_eq_true, Bool.and_eq_true]
    exact .inr ⟨htail, ih⟩

/-- Of the parameters, the first one of the name is removed. -/
theorem cutParameter_paramsText {name : Text} (hp : name ≠ []) {n : ℕ}
    (hn : (paramsText params).length ≤ n) (top : Text) :
    cutParameter name n top (paramsText params) =
      top ++ paramsText (params.eraseP (·.name == name)) := by
  rw [paramsText_eq] at hn ⊢
  rw [HeaderParam.cutParameter_paramsText (closed_map params) hp (clear_map name params) hn,
    List.eraseP_map, ← paramsText_eq]
  rfl

/-- Fewer parameters have less text. -/
theorem length_paramsText_filter {f : UriParam → Bool} (params : List UriParam) :
    (paramsText (params.filter f)).length ≤ (paramsText params).length ∧
      ((paramsText params).length ≤ (paramsText (params.filter f)).length →
        ∀ p ∈ params, f p = true) := by
  induction params with
  | nil => exact ⟨le_rfl, fun _ p hp => absurd hp List.not_mem_nil⟩
  | cons p params ih =>
    have hlength (l : List UriParam) :
        (paramsText (p :: l)).length = p.toText.length + (paramsText l).length := by
      show (p.toText ++ paramsText l).length = _
      rw [List.length_append]
    have hpos : 0 < p.toText.length := by simp [UriParam.toText]
    by_cases hf : f p = true
    · rw [List.filter_cons_of_pos hf, hlength, hlength]
      refine ⟨by omega, fun hle q hq => ?_⟩
      rcases List.mem_cons.mp hq with rfl | hq
      · exact hf
      · exact ih.2 (by omega) q hq
    · rw [List.filter_cons_of_neg hf, hlength]
      exact ⟨by omega, fun hle => by omega⟩

/-- The first one is the only one of the name, or the text that is left has another one. -/
theorem paramsText_eraseP_iff {name : Text} (params : List UriParam) :
    paramsText (params.eraseP (·.name == name)) = paramsText (params.filter (·.name != name)) ↔
      (params.filter (·.name == name)).length ≤ 1 := by
  have hfilter : params.filter (·.name != name) =
      (params.eraseP (·.name == name)).filter (·.name != name) :=
    (filter_eraseP (fun p hp => by simpa using hp) params).symm
  rw [length_filter_le_one_iff, hfilter]
  constructor
  · intro h p hp
    have hne := (length_paramsText_filter _).2 (congrArg List.length h).le p hp
    simpa using hne
  · intro hall
    rw [List.filter_eq_self.mpr fun p hp => by simpa using hall p hp]

/-- The value in the list is the value that is read. -/
theorem lookup_map (name : Text) (params : List UriParam) :
    HeaderParam.lookup name (params.map UriParam.toHeader) =
      (params.find? (·.name == name)).bind (·.value) := by
  rw [HeaderParam.lookup, List.find?_map, Option.bind_map]
  refine Option.bind_congr fun p _ => ?_
  show p.value.map getWordSkippingQuoted = p.value
  cases hvalue : p.value with
  | none => rfl
  | some v => rw [Option.map_some, p.getWordSkippingQuoted_value hvalue]

/-- What is read is the first value, unless the parameter is the last one and has none. -/
theorem readValue_eq_iff {name : Text} (params : List UriParam)
    (honce : (params.filter (·.name == name)).length ≤ 1) :
    readValue name params = some ((params.find? (·.name == name)).bind (·.value)) ↔
      ∀ r ∈ params.getLast?, r.name = name → r.value ≠ none := by
  rw [readValue, ← lookup_map, HeaderParam.readIn_true_iff]
  constructor
  · intro h r hr hname hvalue
    obtain ⟨init, hparams⟩ := List.getLast?_eq_some_iff.mp hr
    have hmap : params.map UriParam.toHeader = init.map UriParam.toHeader ++ [r.toHeader] := by
      rw [hparams, List.map_append]
      rfl
    obtain ⟨q, hq, heq⟩ := h _ _ hmap hname hvalue
    obtain ⟨q', hq', rfl⟩ := List.mem_map.mp hq
    rw [hparams, List.filter_append, List.length_append,
      List.filter_cons_of_pos (by simpa using hname)] at honce
    have hmem : q' ∈ init.filter (·.name == name) :=
      List.mem_filter.mpr ⟨hq', by simpa [UriParam.toHeader] using heq⟩
    have hpos := List.length_pos_of_mem hmem
    rw [List.length_cons] at honce
    omega
  · intro h init r hparams hname hvalue
    obtain ⟨l, l', rfl, -, hl'⟩ := List.map_eq_append_iff.mp hparams
    obtain ⟨p, rfl, rfl⟩ := List.map_eq_singleton_iff.mp hl'
    exact absurd hvalue (h p (by simp) hname)

/-- What is read when another parameter stands behind. -/
theorem readValue_concat_iff {p : UriParam} (params : List UriParam) :
    readValue p.name (params ++ [p]) = some p.value ↔
      (∀ r ∈ params.find? (·.name == p.name), r.value = p.value) ∧
        (params.find? (·.name == p.name) = none → p.value ≠ none) := by
  have hone : HeaderParam.readIn p.name true (some none) [p.toHeader] =
      if p.value = none then none else some p.value := by
    have hname : p.toHeader.name = p.name := rfl
    rw [HeaderParam.readIn, if_pos hname]
    by_cases hvalue : p.value = none
    · rw [if_pos hvalue, if_pos ⟨hvalue, rfl, rfl⟩]
    · obtain ⟨v, hv⟩ := Option.ne_none_iff_exists'.mp hvalue
      have hv' : p.toHeader.value = some v := hv
      rw [if_neg hvalue, if_neg (fun h => hvalue h.1), hv', hv, Option.map_some,
        p.getWordSkippingQuoted_value hv]
  rw [readValue, List.map_append, HeaderParam.readIn_append _ _ _ _ (by simp)]
  cases hfind : params.find? (·.name == p.name) with
  | none =>
    have hnot : ∀ r ∈ params.map UriParam.toHeader, r.name ≠ p.name := by
      intro r hr hname
      obtain ⟨q, hq, rfl⟩ := List.mem_map.mp hr
      exact List.find?_eq_none.mp hfind q hq (beq_iff_eq.mpr hname)
    rw [HeaderParam.readIn_of_not_mem hnot]
    show HeaderParam.readIn _ _ _ [p.toHeader] = _ ↔ _
    rw [hone]
    by_cases hvalue : p.value = none
    · rw [if_pos hvalue]
      exact ⟨fun h => absurd h (by simp), fun h => absurd hvalue (h.2 rfl)⟩
    · rw [if_neg hvalue]
      exact ⟨fun _ => ⟨fun r hr => absurd hr (by simp), fun _ => hvalue⟩, fun _ => rfl⟩
  | some r =>
    have hname : r.name = p.name := by simpa using List.find?_some hfind
    have hmem : ∃ q ∈ params.map UriParam.toHeader, q.name = p.name :=
      ⟨r.toHeader, List.mem_map_of_mem (List.mem_of_find?_eq_some hfind), hname⟩
    rw [HeaderParam.readIn_of_mem hmem, lookup_map, hfind, Option.bind_some, Option.some_inj]
    refine ⟨fun h => ⟨fun q hq => ?_, fun hnone => absurd hnone (by simp)⟩, fun h => h.1 r rfl⟩
    rwa [← Option.some.inj hq]

end Params

/-! ## The methods on the whole text -/

section Whole

variable (u : SipUriParts)

/-- What stands behind the first semicolon. -/
theorem behind_eq : (GenericURI.firstSemi u.toText).2.tail = (paramsText u.params).tail ∨
    ∃ f, ';' :: f <:+ u.front ∧
      (GenericURI.firstSemi u.toText).2.tail = f ++ paramsText u.params := by
  have hstop : ∀ c ∈ (paramsText u.params).head?, (c != ';') = false := by
    intro c hc
    rw [head_paramsText u.params c hc]
    rfl
  rw [toText_front]
  by_cases hsemi : ';' ∈ u.front
  · obtain ⟨a, f, hf, ha⟩ := List.eq_append_cons_of_mem hsemi
    refine .inr ⟨f, hf ▸ List.suffix_append _ _, ?_⟩
    have hdrop := goTo_append ha (f ++ paramsText u.params)
    have hassoc : u.front ++ paramsText u.params = a ++ ';' :: (f ++ paramsText u.params) := by
      rw [hf]
      simp
    rw [hassoc]
    show (goTo ';' _).tail = _
    rw [hdrop]
    rfl
  · refine .inl ?_
    have hrun : ∀ c ∈ u.front, (c != ';') = true := bne_of_not_mem hsemi
    show (List.dropWhile _ _).tail = _
    rw [(takeWhile_run hrun hstop).2]

/-- Behind a piece of the user part, the parameters follow. -/
theorem segments_behind {f : Text} (hf : ';' :: f <:+ u.front) :
    segments (f ++ paramsText u.params) = segments f ++ segments (paramsText u.params).tail := by
  have hquote : '"' ∉ f := fun h =>
    u.not_quote_front (hf.subset (List.mem_cons_of_mem _ h))
  rcases paramsText_cases u.params with hnil | ⟨x, hx⟩
  · have hempty : segments ([] : Text).tail = [] := rfl
    rw [hnil, hempty, List.append_nil, List.append_nil]
  · rw [hx]
    exact segments_append_semi (unquoted_of_not_mem hquote) (endsInside_of_not_mem hquote false) x

section Name

variable {name : Text} (hp : name ≠ []) (huser : ∀ z, ';' :: z <:+ u.front → (getWord z).1 ≠ name)

include hp huser

/-- No piece of the user part has the name: `hasParameter` looks in the list. -/
theorem hasParameter_eq :
    GenericURI.hasParameter name u.toText = u.params.any (·.name == name) := by
  have hparams : (segments (paramsText u.params).tail).any (·.name == name) =
      u.params.any (·.name == name) := by
    rw [segments_paramsText, List.any_map]
    rfl
  unfold GenericURI.hasParameter
  dsimp only
  rw [anyParameter_eq hp le_rfl]
  rcases u.behind_eq with h | ⟨f, hf, h⟩
  · rw [h, hparams]
  · have hnone := find_eq_none (clearTail_iff.mpr huser) hf
    rw [h, u.segments_behind hf, List.any_append, hparams, any_eq, hnone]
    rfl

/-- `getParameter` looks in the list. -/
theorem getParameter_eq : GenericURI.getParameter name u.toText = readValue name u.params := by
  unfold GenericURI.getParameter
  dsimp only
  rcases u.behind_eq with h | ⟨f, hf, h⟩
  · rw [h]
    exact findParameter_paramsText hp le_rfl
  · have hquote : '"' ∉ f := fun h =>
      u.not_quote_front (hf.subset (List.mem_cons_of_mem _ h))
    rw [h, findParameter_pass hp (find_eq_none (clearTail_iff.mpr huser) hf)
      (closedTails_of_not_mem hquote) (paramsText_cases u.params) le_rfl le_rfl]
    exact findParameter_paramsText hp le_rfl

end Name

/-- `removeParameter` is the loop from the beginning of the text on. -/
theorem removeParameter_eq (name : Text) :
    GenericURI.removeParameter name u.toText = cutFrom name u.toText.length [] u.toText :=
  cutParameter_fuel name le_rfl (List.dropWhile_suffix _).length_le _

/-- It removes the first parameter of the name. -/
theorem removeParameter_of_user {name : Text} (hp : name ≠ [])
    (huser : ∀ z, ';' :: z <:+ u.front → (getWord z).1 ≠ name) :
    GenericURI.removeParameter name u.toText =
      u.front ++ paramsText (u.params.eraseP (·.name == name)) := by
  rw [removeParameter_eq, toText_front,
    cutFrom_pass (clearTail_iff.mpr huser) hp (paramsText_cases u.params)
      (fun _ z hz => u.word_of_semi hz) (m := (paramsText u.params).length) le_rfl le_rfl,
    cutParameter_paramsText hp le_rfl]
  rfl

/-- **A piece of the user part of the name is cut**, and no parameter list gives the text that is
left. -/
theorem user_of_removed {name : Text} {params : List UriParam}
    (h : GenericURI.removeParameter name u.toText = u.front ++ paramsText params) :
    ∀ z, ';' :: z <:+ u.front → (getWord z).1 ≠ name := by
  rw [← clearTail_iff]
  by_contra hclear
  rw [Bool.not_eq_true] at hclear
  obtain ⟨a, z, r, hfront, hr, hcut⟩ := cutFrom_stop hclear (paramsText_cases u.params)
    (fun z hz => u.word_of_semi hz) (n := u.toText.length) (by rw [toText_front]) []
  rw [removeParameter_eq, toText_front] at h
  rw [toText_front] at hcut
  rw [hcut, List.nil_append, hfront, List.append_assoc, List.append_cancel_left_eq] at h
  -- what is left would have a character more in front of the `@`
  obtain ⟨d, hd⟩ := hr
  have hat : '@' ∈ z := u.at_of_semi (hfront ▸ List.suffix_append _ _)
  rw [h, List.cons_append] at hd
  have hcount := congrArg (List.count '@') hd
  rw [List.count_append, List.count_cons_of_ne (by decide), List.count_append, List.count_append,
    List.count_eq_zero.mpr (not_at_paramsText u.params).1] at hcount
  have hnot : '@' ∉ d := List.count_eq_zero.mp (by omega)
  obtain ⟨x, y, rfl, hx⟩ := List.eq_append_cons_of_mem hat
  have htake {b c : Text} (hb : '@' ∉ b) : (b ++ '@' :: c).takeWhile (· != '@') = b :=
    (takeWhile_run (bne_of_not_mem hb) (by simp)).1
  have hlong : '@' ∉ d ++ ';' :: x := by
    rw [List.mem_append, List.mem_cons, not_or, not_or]
    exact ⟨hnot, by decide, hx⟩
  have hleft : d ++ ';' :: (x ++ '@' :: y ++ paramsText params) =
      (d ++ ';' :: x) ++ '@' :: (y ++ paramsText params) := by simp
  have hright : x ++ '@' :: y ++ paramsText u.params = x ++ '@' :: (y ++ paramsText u.params) := by
    simp
  rw [hleft, hright] at hd
  have hlength := congrArg List.length ((htake hlong).symm.trans
    ((congrArg (List.takeWhile (· != '@')) hd).trans (htake hx)))
  rw [List.length_append, List.length_cons] at hlength
  omega

/-- **The methods answer according to the list if and only if** the URI is plain for the name. -/
theorem legible_iff (p : UriParam) : u.Legible p.name ↔ u.Plain p.name := by
  have htext (params : List UriParam) :
      ({ u with params := params } : SipUriParts).toText = u.front ++ paramsText params :=
    toText_front _
  constructor
  · intro h
    have hremoved := h.removed
    rw [htext (u.params.filter _)] at hremoved
    have huser := u.user_of_removed hremoved
    rw [u.removeParameter_of_user p.ne_nil huser, List.append_cancel_left_eq,
      paramsText_eraseP_iff] at hremoved
    have hget := h.get
    rw [u.getParameter_eq p.ne_nil huser] at hget
    exact ⟨huser, hremoved, (readValue_eq_iff _ hremoved).mp hget⟩
  · intro h
    refine ⟨u.hasParameter_eq p.ne_nil h.user, ?_, ?_⟩
    · rw [u.getParameter_eq p.ne_nil h.user]
      exact (readValue_eq_iff _ h.once).mpr h.last
    · rw [htext (u.params.filter _), u.removeParameter_of_user p.ne_nil h.user,
        List.append_cancel_left_eq]
      exact (paramsText_eraseP_iff _).mpr h.once

/-! ## Adding a parameter -/

/-- The parameter stands behind the others. -/
theorem addParameter_toText (p : UriParam) : GenericURI.addParameter p.name p.value u.toText =
    ({ u with params := u.params ++ [p] } : SipUriParts).toText := by
  have hfold (params : List UriParam) (uri : Text) :
      (params ++ [p]).foldl (fun uri p => GenericURI.addParameter p.name p.value uri) uri =
        GenericURI.addParameter p.name p.value
          (params.foldl (fun uri p => GenericURI.addParameter p.name p.value uri) uri) := by
    rw [List.foldl_append, List.foldl_cons, List.foldl_nil]
  exact (hfold u.params _).symm

/-- **What is read of other names is read still.** -/
theorem others_addParameter (p : UriParam) {name : Text} (hp : name ≠ []) (hne : name ≠ p.name) :
    GenericURI.hasParameter name (GenericURI.addParameter p.name p.value u.toText) =
        GenericURI.hasParameter name u.toText ∧
      ∀ v, GenericURI.getParameter name u.toText = some v →
        GenericURI.getParameter name (GenericURI.addParameter p.name p.value u.toText) = some v := by
  have htext : GenericURI.addParameter p.name p.value u.toText =
      u.toText ++ ';' :: (p.name ++ ViaHeader.addedText p.value) := p.addParameter_eq _
  have hquote : '"' ∉ u.toText := by
    rw [toText_front, List.mem_append, not_or]
    exact ⟨u.not_quote_front, (not_at_paramsText _).2⟩
  have hany {s : Text} (hs : '"' ∉ s) :
      (segments (s ++ ';' :: (p.name ++ ViaHeader.addedText p.value))).any (·.name == name) =
        (segments s).any (·.name == name) := by
    rw [segments_append_semi (unquoted_of_not_mem hs) (endsInside_of_not_mem hs false),
      segments_added_nil p.added, List.any_append]
    simp [Ne.symm hne]
  unfold GenericURI.hasParameter GenericURI.getParameter GenericURI.firstSemi
  dsimp only
  rw [htext, anyParameter_eq hp le_rfl, anyParameter_eq hp le_rfl]
  by_cases hsemi : ';' ∈ u.toText
  · obtain ⟨a, s, hs, ha⟩ := List.eq_append_cons_of_mem hsemi
    have hsuffix : s <:+ u.toText := by
      rw [hs]
      exact (List.suffix_cons _ s).trans (List.suffix_append a _)
    have hsquote : '"' ∉ s := fun h => hquote (hsuffix.subset h)
    have hlast : ∀ c ∈ s.getLast?, isParamSeparator c = false :=
      getLast_suffix u.getLast_toText hsuffix
    rw [hs, List.append_assoc, List.cons_append, goTo_append ha, goTo_append ha, List.tail_cons,
      List.tail_cons]
    exact ⟨hany hsquote, fun v hv => findParameter_append hp p.added (Ne.symm hne) hsquote hlast hv
      le_rfl le_rfl⟩
  · have hnone : (segments (p.name ++ ViaHeader.addedText p.value)).any (·.name == name) =
        (segments []).any (·.name == name) := by
      rw [segments_added_nil p.added]
      show (p.name == name || false) = false
      simpa using Ne.symm hne
    have hread := findParameter_append (s := []) (n := 0) hp p.added (Ne.symm hne) (by simp)
      (by simp) (findParameter_nil name 0) le_rfl le_rfl
    have hsep : ∀ c ∈ [';'], isParamSeparator c = true := by decide
    have hskip := findParameter_append_separators hp hsep le_rfl
      (s := p.name ++ ViaHeader.addedText p.value) le_rfl
    rw [goTo_of_not_mem hsemi, goTo_append hsemi]
    refine ⟨hnone, fun v hv => ?_⟩
    rw [← hv]
    exact hskip.symm.trans hread

/-- **The parameter that is added is read if and only if** it is fresh, in a plain URI. -/
theorem adds_iff (p : UriParam) (hplain : u.Plain p.name) : u.Adds p ↔ u.Fresh p := by
  have hp := p.ne_nil
  have huser' : ∀ z, ';' :: z <:+ ({ u with params := u.params ++ [p] } : SipUriParts).front →
      (getWord z).1 ≠ p.name := hplain.user
  have hget : GenericURI.getParameter p.name (GenericURI.addParameter p.name p.value u.toText) =
      some p.value ↔ (∀ r ∈ u.params.find? (·.name == p.name), r.value = p.value) ∧
        (u.params.find? (·.name == p.name) = none → p.value ≠ none) := by
    rw [addParameter_toText, getParameter_eq _ hp huser']
    exact readValue_concat_iff _
  constructor
  · intro h
    obtain ⟨hsame, hvalue⟩ := hget.mp h.get
    exact ⟨hsame, hvalue⟩
  · intro h
    refine ⟨u.addParameter_toText p, ?_, hget.mpr ⟨h.same, h.value⟩, fun name hp' hne =>
      u.others_addParameter p hp' hne⟩
    rw [addParameter_toText, hasParameter_eq _ hp huser']
    simp

/-- **The parameters of a URI are those behind the host if and only if** the URI is plain for the name;
and a parameter that is added is read too if and only if it is fresh. -/
theorem legible_and_adds_iff (p : UriParam) :
    (u.Legible p.name ↔ u.Plain p.name) ∧
      (u.Legible p.name ∧ u.Adds p ↔ u.Plain p.name ∧ u.Fresh p) := by
  refine ⟨u.legible_iff p, ?_⟩
  rw [u.legible_iff p]
  exact and_congr_right fun hplain => u.adds_iff p hplain

end Whole

/-- A user part with a semicolon, and no parameters. -/
def semicolonUser : SipUriParts where
  user := some { user := "a;lr=1".toList }
  host := SipURI.sampleName
  portRange := portRange_none

/-- **A piece of the user part is found, and it is removed with the host.**  A parameter without a
value in the last position is an index out of range. -/
theorem semicolonUser_not_legible :
    semicolonUser.toText = "sip:a;lr=1@h".toList ∧
      GenericURI.hasParameter "lr".toList semicolonUser.toText = true ∧
      GenericURI.removeParameter "lr".toList semicolonUser.toText = "sip:a".toList ∧
      GenericURI.getParameter "lr".toList "sip:a@h;lr".toList = none ∧
      ¬semicolonUser.Legible "lr".toList := by
  have hhas : GenericURI.hasParameter "lr".toList semicolonUser.toText = true := by decide
  refine ⟨by decide, hhas, by decide, by decide, fun h => ?_⟩
  have hread := h.has
  rw [hhas] at hread
  exact absurd hread (by decide)

end SipUriParts
end SoftPhone
