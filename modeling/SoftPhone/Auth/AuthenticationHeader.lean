import SoftPhone.Text.Quoted

/-!
# Class `AuthenticationHeader`

The value of the header is the scheme and a list of parameters with commas between them; in an
`AuthenticationInfoHeader` there is no scheme.  `hasParameter`, `getParameter` and
`getParameterNames` go through the text, each with a loop of its own, from one comma that is not in
quotes to the next one.

* `value_adds`: the text after some parameters were added.
* `scan_text`: the loops over such a text, one parameter after another.
* `readBack_adds`: what the three methods return is what was added.
-/

namespace SoftPhone

open SipParser

namespace SipParser

/-! ## Methods of the parsers -/

/-- `isWSPCRLF`. -/
def isWSPCRLF (c : Char) : Bool := isWSP c || isCRLF c

/-- `skipWSPCRLF`. -/
def skipWSPCRLF (s : Text) : Text := s.dropWhile isWSPCRLF

/-- `goToCommaHeaderSeparator`. -/
def goToCommaHeaderSeparator (s : Text) : Text := (spanSkippingQuoted ',' false s).2

/-- The text up to `indexOfCommaHeaderSeparator`, or all of it. -/
def upToComma (s : Text) : Text := (spanSkippingQuoted ',' false s).1

end SipParser

/-- Class `AuthenticationHeader`; an `AuthenticationInfoHeader` has no scheme. -/
structure AuthenticationHeader where
  hasScheme : Bool := true
  value : Text
  deriving DecidableEq

namespace AuthenticationHeader

/-! ## Adding parameters -/

section Methods

/-- `QUOTED_PARAMETERS`. -/
def quotedParameters : List Text :=
  ["auts".toList, "cnonce".toList, "nextnonce".toList, "nonce".toList, "opaque".toList,
    "realm".toList, "response".toList, "rspauth".toList, "uri".toList, "username".toList]

/-- `isQuotedParameter`. -/
def isQuotedParameter (name : Text) : Bool := quotedParameters.any (equalsIgnoreCase name)

variable (h : AuthenticationHeader)

/-- What is put in front of a new parameter. -/
def separator : Text := if '=' ∉ h.value then " ".toList else ", ".toList

/-- `addUnquotedParameter`. -/
def addUnquotedParameter (name value : Text) : AuthenticationHeader :=
  { h with value := h.value ++ h.separator ++ (name ++ '=' :: value) }

/-- `addQuotedParameter`. -/
def addQuotedParameter (name value : Text) : AuthenticationHeader :=
  { h with value := h.value ++ h.separator ++
      if '"' ∈ value then name ++ '=' :: value else name ++ '=' :: '"' :: (value ++ ['"']) }

/-- `addParameter`. -/
def addParameter (name value : Text) : AuthenticationHeader :=
  if '"' ∉ value ∧ isQuotedParameter name then h.addQuotedParameter name value
  else h.addUnquotedParameter name value

/-! ## Reading parameters -/

/-- What is left behind the scheme. -/
def params : Text := skipWSPCRLF (if h.hasScheme then (getString h.value).2 else h.value)

/-- What the loops do behind a name: they go on with the parameter behind the next comma. -/
def nextParameter (s : Text) : Text := skipWSPCRLF (goToCommaHeaderSeparator s).tail

/-- The loop of `hasParameter` and `getParameter`: a name is read, and it is the one that is looked
for, or the loop goes on. -/
def scan {α : Type} (separator : Char → Bool) (found : Text → Text → Option α) :
    ℕ → Text → Option α
  | 0, _ => none
  | n + 1, s =>
    if s = [] then none
    else
      let word := getWordOf separator s
      (found word.1 word.2).or (scan separator found n (nextParameter word.2))

/-- `name_separators` of `hasParameter`. -/
def isHasSeparator (c : Char) : Bool := ['=', ' ', '\t', '\r', '\n'].contains c

/-- `name_separators` of `getParameter` and `getParameterNames`. -/
def isGetSeparator (c : Char) : Bool := ['=', ' ', '\t'].contains c

/-- `hasParameter`. -/
def hasParameter (name : Text) : Bool :=
  (scan isHasSeparator (fun word _ => if word = name then some () else none) h.params.length
    h.params).isSome

/-- The value that follows a name. -/
def valueAt (s : Text) : Text := getStringUnquoted (upToComma (skipWSP (goTo '=' s).tail))

/-- `getParameter`; none is null. -/
def getParameter (name : Text) : Option Text :=
  scan isGetSeparator (fun word s => if word = name then some (valueAt s) else none)
    h.params.length h.params

/-- The loop of `getParameterNames`. -/
def namesLoop : ℕ → Text → List Text
  | 0, _ => []
  | n + 1, s =>
    if s = [] then []
    else
      let word := getWordOf isGetSeparator s
      word.1 :: namesLoop n (nextParameter word.2)

/-- `getParameterNames`. -/
def getParameterNames : List Text := namesLoop h.params.length h.params

end Methods

/-! ## Calls -/

/-- A call that adds a parameter. -/
inductive AddCall where
  | parameter (name value : Text)
  | unquoted (name value : Text)
  | quoted (name value : Text)
  deriving DecidableEq

/-- The call is made. -/
def add (h : AuthenticationHeader) : AddCall → AuthenticationHeader
  | .parameter name value => h.addParameter name value
  | .unquoted name value => h.addUnquotedParameter name value
  | .quoted name value => h.addQuotedParameter name value

/-- A value that needs no quotes: visible characters, without commas and quotes. -/
def IsUnquoted (value : Text) : Prop := ∀ c ∈ value, isChar c = true ∧ c ≠ ',' ∧ c ≠ '"'

/-- A name of a parameter. -/
def IsName (name : Text) : Prop :=
  name ≠ [] ∧ ∀ c ∈ name, isHasSeparator c = false ∧ c ≠ ',' ∧ c ≠ '"'

instance : DecidablePred IsUnquoted := fun value =>
  inferInstanceAs (Decidable (∀ c ∈ value, isChar c = true ∧ c ≠ ',' ∧ c ≠ '"'))

instance : DecidablePred IsName := fun name =>
  inferInstanceAs (Decidable (name ≠ [] ∧ ∀ c ∈ name, isHasSeparator c = false ∧ c ≠ ',' ∧ c ≠ '"'))

namespace AddCall

def name : AddCall → Text
  | parameter name _ | unquoted name _ | quoted name _ => name

def value : AddCall → Text
  | parameter _ value | unquoted _ value | quoted _ value => value

/-- The value is put in quotes. -/
def isQuoted : AddCall → Bool
  | parameter name _ => isQuotedParameter name
  | unquoted _ _ => false
  | quoted _ _ => true

/-- A name, with a value that has no quotes, and that is a token if it is not put in quotes. -/
def Plain (c : AddCall) : Prop :=
  IsName c.name ∧ if c.isQuoted then '"' ∉ c.value else IsUnquoted c.value

instance : DecidablePred Plain := fun c =>
  inferInstanceAs (Decidable (IsName c.name ∧ if c.isQuoted then '"' ∉ c.value else IsUnquoted c.value))

end AddCall

/-- A header to which nothing was added yet: the scheme, or nothing. -/
def Fresh (h : AuthenticationHeader) : Prop :=
  if h.hasScheme then h.value ≠ [] ∧ ∀ c ∈ h.value, isChar c = true ∧ c ≠ '=' else h.value = []

instance : DecidablePred Fresh := fun h =>
  inferInstanceAs (Decidable (if h.hasScheme then _ else _))

/-! ## The text -/

theorem isHasSeparator_eq (c : Char) : isHasSeparator c = (c == '=' || isWSPCRLF c) := by
  simp only [isHasSeparator, isWSPCRLF, isWSP, isCRLF, List.contains_cons, List.contains_nil,
    Bool.or_false, Bool.or_assoc]

theorem isHasSeparator_of_isGetSeparator (c : Char) (h : isGetSeparator c = true) :
    isHasSeparator c = true := by
  simp only [isHasSeparator, isGetSeparator, List.contains_cons, List.contains_nil, Bool.or_false,
    Bool.or_eq_true] at h ⊢
  tauto

namespace AddCall

/-- What is written behind the name and the equals sign. -/
def written (c : AddCall) : Text := if c.isQuoted then '"' :: (c.value ++ ['"']) else c.value

/-- What is written. -/
def text (c : AddCall) : Text := c.name ++ '=' :: c.written

/-- Each with a comma in front. -/
def restText (cs : List AddCall) : Text := cs.flatMap fun c => ',' :: ' ' :: c.text

/-- The list of parameters. -/
def bodyText : List AddCall → Text
  | [] => []
  | c :: cs => c.text ++ restText cs

variable {c : AddCall} {cs : List AddCall}

theorem not_quote_of_plain (hc : c.Plain) : '"' ∉ c.value := by
  obtain ⟨-, hvalue⟩ := hc
  split at hvalue
  · exact hvalue
  · exact fun hmem => (hvalue '"' hmem).2.2 rfl

/-- What is written has commas in quotes only, and closes them. -/
theorem closed_written (hc : c.Plain) :
    Skips ',' false c.written ∧ endsInside false c.written = false := by
  have hquote := not_quote_of_plain hc
  obtain ⟨-, hvalue⟩ := hc
  unfold written
  split
  · refine ⟨skips_cons.mpr ⟨by decide, ?_⟩, ?_⟩
    · rw [if_pos rfl, skips_append]
      refine ⟨(skips_of_unquoted hquote).mpr fun _ => rfl, ?_⟩
      rw [endsInside_of_not_mem hquote]
      exact skips_cons.mpr ⟨by decide, skips_nil _ _⟩
    · rw [endsInside_cons, if_pos rfl, endsInside_append, endsInside_of_not_mem hquote]
      rfl
  · rename_i hunquoted
    rw [if_neg hunquoted] at hvalue
    exact ⟨skips_of_not_mem (fun hmem => (hvalue ',' hmem).2.1 rfl) _,
      endsInside_of_not_mem hquote _⟩

/-- A list of parameters does not begin with what is skipped. -/
theorem head_text (hc : c.Plain) (t : Text) : ∃ d u, c.text ++ t = d :: u ∧ isWSPCRLF d = false := by
  obtain ⟨⟨hne, hname⟩, -⟩ := hc
  obtain ⟨d, u, hd⟩ := List.exists_cons_of_ne_nil hne
  refine ⟨d, u ++ '=' :: c.written ++ t, by rw [text, hd]; simp, ?_⟩
  have hsep := (hname d (by rw [hd]; exact List.mem_cons_self)).1
  rw [isHasSeparator_eq, Bool.or_eq_false_iff] at hsep
  exact hsep.2

theorem skipWSPCRLF_text (hc : c.Plain) (t : Text) : skipWSPCRLF (c.text ++ t) = c.text ++ t := by
  obtain ⟨d, u, heq, hd⟩ := head_text hc t
  rw [heq, skipWSPCRLF, List.dropWhile_cons_of_neg (by rw [hd]; decide)]

end AddCall

open AddCall

/-! ## One parameter is read -/

section One

variable {c : AddCall} {cs : List AddCall} {t : Text}

/-- The end of a parameter. -/
def Ends (t : Text) : Prop := t = [] ∨ ∃ u, t = ',' :: u

theorem ends_restText (cs : List AddCall) : Ends (restText cs) := by
  cases cs with
  | nil => exact .inl rfl
  | cons c cs => exact .inr ⟨' ' :: (c.text ++ restText cs), rfl⟩

theorem span_written (hc : c.Plain) (ht : Ends t) :
    spanSkippingQuoted ',' false (c.written ++ t) = (c.written, t) := by
  obtain ⟨hskips, hends⟩ := closed_written hc
  exact span_append hskips (ht.imp_right fun hu => ⟨hends, hu⟩)

/-- The name in front is read. -/
theorem getWordOf_text {separator : Char → Bool}
    (hsep : ∀ d, separator d = true → isHasSeparator d = true) (heq : separator '=' = true) (hc : c.Plain) (t : Text) :
    getWordOf separator (c.text ++ t) = (c.name, '=' :: (c.written ++ t)) := by
  obtain ⟨⟨hne, hname⟩, -⟩ := hc
  rw [text, List.append_assoc, List.cons_append]
  refine getWordOf_append hne (fun d hd => ?_) fun d hd => ?_
  · by_contra htrue
    have hhas := hsep d (by simpa using htrue)
    rw [(hname d hd).1] at hhas
    exact Bool.noConfusion hhas
  · rw [← Option.some.inj hd]
    exact heq

/-- The loops go on with the next parameter. -/
theorem nextParameter_text (hc : c.Plain) (hcs : ∀ d ∈ cs, d.Plain) :
    nextParameter ('=' :: (c.written ++ restText cs)) = bodyText cs := by
  have hspan : spanSkippingQuoted ',' false ('=' :: (c.written ++ restText cs)) =
      ('=' :: c.written, restText cs) := by
    rw [spanSkippingQuoted_cons_of_not (by decide), if_neg (by decide),
      span_written hc (ends_restText cs)]
  rw [nextParameter, goToCommaHeaderSeparator, hspan]
  cases cs with
  | nil => rfl
  | cons d cs =>
    show skipWSPCRLF (' ' :: (d.text ++ restText cs)) = _
    rw [skipWSPCRLF, List.dropWhile_cons_of_pos (by decide)]
    exact skipWSPCRLF_text (hcs d List.mem_cons_self) _

/-- A value in quotes, or a token, is read. -/
theorem getStringUnquoted_written (hc : c.Plain) : getStringUnquoted c.written = c.value := by
  have hquote := not_quote_of_plain hc
  obtain ⟨-, hvalue⟩ := hc
  unfold written
  split
  · exact getStringUnquoted_quoted hquote
  · rename_i hunquoted
    rw [if_neg hunquoted] at hvalue
    cases hv : c.value with
    | nil => rfl
    | cons d u =>
      have hchars : ∀ a ∈ d :: u, isChar a = true := fun a ha => (hvalue a (hv ▸ ha)).1
      have hd := hvalue d (by rw [hv]; exact List.mem_cons_self)
      have hget := getString_append (s := []) hchars (by simp) (List.cons_ne_nil d u)
      rw [List.append_nil] at hget
      have hdrop : (d :: u).dropWhile (!isChar ·) = d :: u :=
        List.dropWhile_cons_of_neg (by rw [hd.1]; decide)
      unfold getStringUnquoted
      rw [hdrop]
      split
      · rename_i heq
        exact absurd (List.cons.inj heq).1 hd.2.2
      · rw [hget]

/-- A value does not begin with a space. -/
theorem head_written (hc : c.Plain) (ht : Ends t) : ∀ d ∈ (c.written ++ t).head?, d ≠ ' ' := by
  obtain ⟨-, hvalue⟩ := hc
  unfold written
  intro d hd
  split at hd
  · rw [← Option.some.inj hd]
    decide
  · rename_i hunquoted
    rw [if_neg hunquoted] at hvalue
    cases hv : c.value with
    | nil =>
      rw [hv, List.nil_append] at hd
      obtain rfl | ⟨u, rfl⟩ := ht
      · cases hd
      · rw [← Option.some.inj hd]
        decide
    | cons a u =>
      rw [hv] at hd
      obtain rfl := Option.some.inj hd
      have hchar := (hvalue a (by rw [hv]; exact List.mem_cons_self)).1
      rintro rfl
      exact absurd hchar (by decide)

/-- **The value behind the name is read.** -/
theorem valueAt_written (hc : c.Plain) (ht : Ends t) :
    valueAt ('=' :: (c.written ++ t)) = c.value := by
  have hgo : goTo '=' ('=' :: (c.written ++ t)) = '=' :: (c.written ++ t) :=
    List.dropWhile_cons_of_neg (by decide)
  have hhead : ∀ d ∈ (c.written ++ t).head?, d ≠ ' ' := head_written hc ht
  have hskip : skipWSP (c.written ++ t) = c.written ++ t := by
    cases hs : c.written ++ t with
    | nil => rfl
    | cons d u =>
      have hne := hhead d (by rw [hs]; rfl)
      exact List.dropWhile_cons_of_neg (by simpa using hne)
  rw [valueAt, hgo, List.tail_cons, hskip, upToComma, span_written hc ht]
  exact getStringUnquoted_written hc

end One

/-! ## The loops -/

section Loops

variable {cs : List AddCall} {n : ℕ}

/-- **A loop over a list of parameters looks at one after another.** -/
theorem scan_text {α : Type} {separator : Char → Bool} {found : Text → Text → Option α}
    {f : AddCall → Option α} (hsep : ∀ d, separator d = true → isHasSeparator d = true)
    (heq : separator '=' = true) (hcs : ∀ c ∈ cs, c.Plain)
    (hf : ∀ c ∈ cs, ∀ t, Ends t → found c.name ('=' :: (c.written ++ t)) = f c)
    (hn : cs.length ≤ n) : scan separator found n (bodyText cs) = cs.findSome? f := by
  induction cs generalizing n with
  | nil =>
    cases n with
    | zero => rfl
    | succ n => rfl
  | cons c cs ih =>
    obtain ⟨n, rfl⟩ : ∃ n', n = n' + 1 := ⟨n - 1, by rw [List.length_cons] at hn; omega⟩
    obtain ⟨hc, hcs⟩ := List.forall_mem_cons.mp hcs
    obtain ⟨hfc, hf⟩ := List.forall_mem_cons.mp hf
    obtain ⟨d, u, hhead, -⟩ := head_text hc (restText cs)
    rw [List.length_cons] at hn
    rw [scan, if_neg (by rw [bodyText, hhead]; exact List.cons_ne_nil d u), bodyText]
    show (found (getWordOf separator _).1 (getWordOf separator _).2).or
      (scan separator found n (nextParameter (getWordOf separator _).2)) = _
    rw [getWordOf_text hsep heq hc, hfc _ (ends_restText cs), nextParameter_text hc hcs,
      ih hcs hf (by omega), List.findSome?_cons]
    cases f c <;> rfl

theorem namesLoop_text (hcs : ∀ c ∈ cs, c.Plain) (hn : cs.length ≤ n) :
    namesLoop n (bodyText cs) = cs.map AddCall.name := by
  induction cs generalizing n with
  | nil =>
    cases n with
    | zero => rfl
    | succ n => rfl
  | cons c cs ih =>
    obtain ⟨n, rfl⟩ : ∃ n', n = n' + 1 := ⟨n - 1, by rw [List.length_cons] at hn; omega⟩
    obtain ⟨hc, hcs⟩ := List.forall_mem_cons.mp hcs
    obtain ⟨d, u, hhead, -⟩ := head_text hc (restText cs)
    rw [List.length_cons] at hn
    rw [namesLoop, if_neg (by rw [bodyText, hhead]; exact List.cons_ne_nil d u), bodyText]
    show (getWordOf isGetSeparator _).1 :: namesLoop n (nextParameter (getWordOf isGetSeparator _).2) =
      _
    rw [getWordOf_text isHasSeparator_of_isGetSeparator rfl hc, nextParameter_text hc hcs,
      ih hcs (by omega), List.map_cons]

theorem length_le_restText (cs : List AddCall) : cs.length ≤ (restText cs).length := by
  induction cs with
  | nil => exact le_rfl
  | cons c cs ih =>
    have hcons : restText (c :: cs) = ',' :: ' ' :: (c.text ++ restText cs) := rfl
    rw [hcons, List.length_cons, List.length_cons, List.length_cons, List.length_append]
    omega

/-- There are at most as many parameters as characters. -/
theorem length_le_bodyText (cs : List AddCall) : cs.length ≤ (bodyText cs).length := by
  cases cs with
  | nil => exact le_rfl
  | cons c cs =>
    have hrest := length_le_restText cs
    rw [bodyText, text, List.length_append, List.length_append, List.length_cons, List.length_cons]
    omega

end Loops

/-! ## What was added -/

section Added

variable {h : AuthenticationHeader} {c : AddCall} {cs : List AddCall}

/-- **One parameter is added.** -/
theorem add_eq (hc : c.Plain) :
    h.add c = { h with value := h.value ++ h.separator ++ c.text } := by
  have hquote := not_quote_of_plain hc
  have hquoted (name value : Text) (hq : '"' ∉ value) : h.addQuotedParameter name value =
      { h with value := h.value ++ h.separator ++ (name ++ '=' :: '"' :: (value ++ ['"'])) } := by
    rw [addQuotedParameter, if_neg hq]
  unfold AddCall.text AddCall.written
  cases c with
  | parameter name value =>
    show addParameter h name value = { h with value := h.value ++ h.separator ++
      (name ++ '=' :: if isQuotedParameter name = true then _ else _) }
    unfold addParameter
    by_cases hname : isQuotedParameter name = true
    · rw [if_pos ⟨hquote, hname⟩, if_pos hname]
      exact hquoted name value hquote
    · rw [if_neg fun hand => hname hand.2, if_neg hname]
      rfl
  | unquoted name value => rfl
  | quoted name value => exact hquoted name value hquote

theorem mem_text (c : AddCall) : '=' ∈ c.text := List.mem_append_right _ List.mem_cons_self

/-- Behind the first parameter, each one has a comma in front. -/
theorem value_adds_of_mem (hmem : '=' ∈ h.value) (hcs : ∀ c ∈ cs, c.Plain) :
    cs.foldl add h = { h with value := h.value ++ restText cs } := by
  induction cs generalizing h with
  | nil =>
    show h = { h with value := h.value ++ [] }
    rw [List.append_nil]
  | cons c cs ih =>
    obtain ⟨hc, hcs⟩ := List.forall_mem_cons.mp hcs
    have hsep : h.separator = [',', ' '] := if_neg fun hnot => hnot hmem
    rw [List.foldl_cons, add_eq hc, ih (List.mem_append_right _ (mem_text c)) hcs, hsep]
    congr 1
    show h.value ++ [',', ' '] ++ c.text ++ restText cs =
      h.value ++ (',' :: ' ' :: c.text ++ restText cs)
    rw [List.append_assoc, List.append_assoc]
    rfl

theorem not_mem_of_fresh (hfresh : h.Fresh) : '=' ∉ h.value := by
  unfold Fresh at hfresh
  split at hfresh
  · exact fun hmem => (hfresh.2 '=' hmem).2 rfl
  · rw [hfresh]
    exact List.not_mem_nil

/-- **The text of the header.** -/
theorem value_adds (hfresh : h.Fresh) (hcs : ∀ c ∈ cs, c.Plain) :
    cs.foldl add h =
      { h with value := h.value ++ if cs = [] then [] else ' ' :: bodyText cs } := by
  cases cs with
  | nil =>
    show h = { h with value := h.value ++ [] }
    rw [List.append_nil]
  | cons c cs =>
    obtain ⟨hc, hcs⟩ := List.forall_mem_cons.mp hcs
    have hsep : h.separator = [' '] := if_pos (not_mem_of_fresh hfresh)
    rw [List.foldl_cons, add_eq hc, value_adds_of_mem (List.mem_append_right _ (mem_text c)) hcs,
      if_neg (List.cons_ne_nil c cs), hsep]
    congr 1
    show h.value ++ [' '] ++ c.text ++ restText cs = h.value ++ (' ' :: (c.text ++ restText cs))
    rw [List.append_assoc, List.append_assoc]
    rfl

/-- **The loops begin with the first parameter.** -/
theorem params_adds (hfresh : h.Fresh) (hcs : ∀ c ∈ cs, c.Plain) :
    (cs.foldl add h).params = bodyText cs := by
  have hskip : skipWSPCRLF (if cs = [] then [] else ' ' :: bodyText cs) = bodyText cs := by
    cases cs with
    | nil => rfl
    | cons c cs =>
      rw [if_neg (List.cons_ne_nil c cs), skipWSPCRLF, List.dropWhile_cons_of_pos (by decide)]
      exact skipWSPCRLF_text (List.forall_mem_cons.mp hcs).1 _
  rw [value_adds hfresh hcs, params]
  unfold Fresh at hfresh
  split at hfresh
  · rename_i hscheme
    have hget := getString_append (fun d hd => (hfresh.2 d hd).1)
      (s := if cs = [] then [] else ' ' :: bodyText cs) (by
        split
        · exact nofun
        · exact not_isChar_space _) hfresh.1
    rw [if_pos hscheme, hget]
    exact hskip
  · rename_i hscheme
    rw [if_neg hscheme, hfresh, List.nil_append]
    exact hskip

theorem hasParameter_adds (hfresh : h.Fresh) (hcs : ∀ c ∈ cs, c.Plain) (name : Text) :
    (cs.foldl add h).hasParameter name = true ↔ ∃ c ∈ cs, c.name = name := by
  rw [hasParameter, params_adds hfresh hcs,
    scan_text (f := fun c => if c.name = name then some () else none) (fun _ hd => hd) rfl hcs
      (fun _ _ _ _ => rfl) (length_le_bodyText cs), List.findSome?_isSome_iff]
  refine exists_congr fun c => and_congr_right fun _ => ?_
  by_cases hname : c.name = name
  · rw [if_pos hname]
    exact iff_of_true rfl hname
  · rw [if_neg hname]
    exact iff_of_false Bool.noConfusion hname

/-- **`getParameter` finds the first parameter of the name.** -/
theorem getParameter_adds (hfresh : h.Fresh) (hcs : ∀ c ∈ cs, c.Plain) (name : Text) :
    (cs.foldl add h).getParameter name =
      cs.findSome? fun c => if c.name = name then some c.value else none := by
  rw [getParameter, params_adds hfresh hcs]
  refine scan_text isHasSeparator_of_isGetSeparator rfl hcs (fun c hc t ht => ?_)
    (length_le_bodyText cs)
  rw [valueAt_written (hcs c hc) ht]

theorem getParameterNames_adds (hfresh : h.Fresh) (hcs : ∀ c ∈ cs, c.Plain) :
    (cs.foldl add h).getParameterNames = cs.map AddCall.name := by
  rw [getParameterNames, params_adds hfresh hcs, namesLoop_text hcs (length_le_bodyText cs)]

theorem findSome?_name (hnodup : (cs.map AddCall.name).Nodup) (hc : c ∈ cs) :
    (cs.findSome? fun d => if d.name = c.name then some d.value else none) = some c.value := by
  induction cs with
  | nil => cases hc
  | cons d cs ih =>
    rw [List.map_cons, List.nodup_cons] at hnodup
    rw [List.findSome?_cons]
    obtain rfl | hmem := List.mem_cons.mp hc
    · rw [if_pos rfl]
    · have hne : d.name ≠ c.name := fun heq =>
        hnodup.1 (heq ▸ List.mem_map.mpr ⟨c, hmem, rfl⟩)
      rw [if_neg hne]
      exact ih hnodup.2 hmem

/-- **What was added is what is read**, by all three methods. -/
theorem readBack_adds (h : AuthenticationHeader) (cs : List AddCall) (hfresh : h.Fresh)
    (hcs : ∀ c ∈ cs, c.Plain) (hnodup : (cs.map AddCall.name).Nodup) :
    (∀ c ∈ cs, (cs.foldl add h).getParameter c.name = some c.value) ∧
      (∀ name, (cs.foldl add h).hasParameter name = true ↔ name ∈ cs.map AddCall.name) ∧
      (cs.foldl add h).getParameterNames = cs.map AddCall.name := by
  refine ⟨fun c hc => ?_, fun name => ?_, getParameterNames_adds hfresh hcs⟩
  · rw [getParameter_adds hfresh hcs]
    exact findSome?_name hnodup hc
  · rw [hasParameter_adds hfresh hcs, List.mem_map]

/-- A header with separators in the quotes, and a name that is the end of another one. -/
def sampleCalls : List AddCall :=
  [.quoted "cnonce".toList "a, nonce=b".toList, .parameter "nonce".toList "= ,".toList,
    .unquoted "qop".toList "auth".toList]

theorem readBack_sampleCalls :
    (∀ c ∈ sampleCalls,
      (sampleCalls.foldl add ⟨true, "Digest".toList⟩).getParameter c.name = some c.value) ∧
      (∀ name, (sampleCalls.foldl add ⟨true, "Digest".toList⟩).hasParameter name = true ↔
        name ∈ sampleCalls.map AddCall.name) ∧
      (sampleCalls.foldl add ⟨true, "Digest".toList⟩).getParameterNames =
        sampleCalls.map AddCall.name :=
  readBack_adds ⟨true, "Digest".toList⟩ sampleCalls (by decide) (by decide) (by decide)

end Added

end AuthenticationHeader
end SoftPhone
