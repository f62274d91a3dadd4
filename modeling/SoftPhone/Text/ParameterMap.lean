import SoftPhone.Text.Commas
import SoftPhone.Text.EndPoints
import SoftPhone.Text.ParameterLoops
import SoftPhone.Text.Received

/-!
# The parameters of a header as a finite map

A parameter has a name, and a value that is a token or a quoted string, or none.  `getParameter`,
`hasParameter`, `setParameter` and `removeParameter` each go through the text on their own.  They agree
with a finite map from names to values (`finiteMap_iff`), where the quotes of every value are closed
for the scan and the name that is set is not found in quotes, if and only if

* the value that is set is one that is read again, so it is not null;
* the name occurs once at most, as `removeParameter` removes the first parameter of the name;
* the last parameter has a value, before and after the removal, or another one of its name stands
  before it: behind a name at the end of the text `getParameter` looks for the next character.
-/

namespace SoftPhone

open SipParser

namespace ParametricHeader

/-! ## Lists of parameters -/

/-- The value of a parameter: a token or a quoted string. -/
inductive IsValue : Text → Prop where
  | token (v : Text) (ne_nil : v ≠ []) (chars : ∀ c ∈ v, isParamSeparator c = false ∧ c ≠ '"') :
    IsValue v
  | quoted (content : List QuotedChar) : IsValue ('"' :: (quotedText content ++ ['"']))

theorem isValue_none : ∀ v ∈ (none : Option Text), IsValue v := by simp

/-- A value does not begin with a separator. -/
theorem IsValue.exists_cons {v : Text} (h : IsValue v) :
    ∃ c s, v = c :: s ∧ isParamSeparator c = false := by
  cases h with
  | token v hne hchars =>
    obtain ⟨c, s, rfl⟩ := List.exists_cons_of_ne_nil hne
    exact ⟨c, s, rfl, (hchars c (List.mem_cons_self ..)).1⟩
  | quoted content => exact ⟨'"', _, rfl, by decide⟩

theorem IsValue.getWordSkippingQuoted {v : Text} (h : IsValue v) :
    SipParser.getWordSkippingQuoted v = wordSkippingQuoted false v ∧
      SipParser.getWordSkippingQuoted v ≠ [] := by
  obtain ⟨c, s, rfl, hc⟩ := h.exists_cons
  have hdrop : (c :: s).dropWhile isParamSeparator = c :: s :=
    List.dropWhile_cons_of_neg (by simp [hc])
  unfold SipParser.getWordSkippingQuoted
  rw [hdrop]
  refine ⟨rfl, ?_⟩
  rw [wordSkippingQuoted, if_neg (by simp [hc])]
  exact List.cons_ne_nil _ _

/-- A text that is read as one value has no separator outside of quotes. -/
theorem skips_of_word {d : Char} (hd : isParamSeparator d = true) {v : Text} {inside : Bool}
    (h : wordSkippingQuoted inside v = v) : Skips d inside v := by
  induction v generalizing inside with
  | nil => exact skips_nil _ _
  | cons c v ih =>
    rw [wordSkippingQuoted] at h
    split at h
    · exact absurd h (by simp)
    · rename_i hsep
      refine skips_cons.mpr ⟨?_, ih (List.cons.inj h).2⟩
      rintro ⟨rfl, hinside⟩
      exact hsep ⟨hd, hinside⟩

/-- **The parameter in front is read.** -/
theorem findParameter_self {name : Text} (hp : name ≠ [])
    (hname : ∀ c ∈ name, isParamSeparator c = false) (value : Option Text) (n : ℕ) :
    findParameter name (n + 1) (name ++ ViaHeader.addedText value) =
      value.map fun v => some (getWordSkippingQuoted v) := by
  have hword : SipParser.getWord (name ++ ViaHeader.addedText value) =
      (name, ViaHeader.addedText value) := by
    have hnone : ∀ c ∈ ([] : Text), isParamSeparator c = true := by simp
    refine getWord_append hnone hname hp fun c hc => ?_
    cases value with
    | none => exact absurd hc (by simp [ViaHeader.addedText])
    | some v =>
      rw [← Option.some.inj hc]
      decide
  have hne : name ++ ViaHeader.addedText value ≠ [] := by simp [hp]
  simp only [findParameter, hne, if_false, hword, if_true]
  cases value <;> rfl

/-- At most one element is looked for, or there is one still when the first one is removed. -/
theorem length_filter_le_one_iff {α : Type} (p : α → Bool) (l : List α) :
    (l.filter p).length ≤ 1 ↔ ∀ a ∈ l.eraseP p, p a = false := by
  have hself := filter_eraseP_self p l
  constructor
  · intro hle a ha
    by_contra hp
    have hmem : a ∈ (l.eraseP p).filter p := List.mem_filter.mpr ⟨ha, by simpa using hp⟩
    rw [hself] at hmem
    have hpos := List.length_pos_of_mem hmem
    rw [List.length_tail] at hpos
    omega
  · intro hall
    have hnil : (l.eraseP p).filter p = [] :=
      List.filter_eq_nil_iff.mpr fun a ha => by simp [hall a ha]
    rw [hself] at hnil
    have hlength := congrArg List.length hnil
    rw [List.length_tail, List.length_nil] at hlength
    omega

end ParametricHeader

open ParametricHeader

/-- A parameter of a header. -/
structure HeaderParam where
  name : Text
  value : Option Text
  ne_nil : name ≠ []
  nameChars : ∀ c ∈ name, isParamSeparator c = false ∧ c ≠ '"'
  isValue : ∀ v ∈ value, IsValue v

namespace HeaderParam

def toText (p : HeaderParam) : Text := ';' :: (p.name ++ ViaHeader.addedText p.value)

/-- The text of a list of parameters. -/
def paramsText (params : List HeaderParam) : Text := params.flatMap toText

def segment (p : HeaderParam) : Segment := ⟨p.name, ViaHeader.addedText p.value⟩

/-- For the scan, which counts escaped quotes too, all semicolons of the value are in quotes, and no
quote is open behind it. -/
def Closed (p : HeaderParam) : Prop :=
  ∀ v ∈ p.value, Skips ';' false v ∧ endsInside false v = false

section Params

variable {p : HeaderParam} {params : List HeaderParam} {rest : Text}

theorem Closed.added (h : p.Closed) : Skips ';' false (ViaHeader.addedText p.value) ∧
    endsInside false (ViaHeader.addedText p.value) = false := by
  cases hvalue : p.value with
  | none => exact ⟨skips_nil _ _, rfl⟩
  | some v =>
    obtain ⟨hskips, hends⟩ := h v hvalue
    refine ⟨skips_cons.mpr ⟨by decide, ?_⟩, ?_⟩
    · rwa [if_neg (by decide)]
    · show endsInside false ('=' :: v) = false
      rwa [endsInside_cons, if_neg (by decide)]

theorem head_addedText (value : Option Text) :
    ∀ c ∈ (ViaHeader.addedText value).head?, c = '=' := by
  intro c hc
  cases value with
  | none => exact absurd hc (by simp [ViaHeader.addedText])
  | some v => exact (Option.some.inj hc).symm

/-- The parameter is a segment of the text. -/
theorem first_of_skips (hskips : Skips ';' false (ViaHeader.addedText p.value))
    (hrest : rest = [] ∨ endsInside false (ViaHeader.addedText p.value) = false ∧
      ∃ u, rest = ';' :: u) : First [] p.name (ViaHeader.addedText p.value) rest := by
  refine ⟨by simp, fun c hc => (p.nameChars c hc).1, p.ne_nil, fun c hc => ?_, hskips, hrest⟩
  cases hadded : ViaHeader.addedText p.value with
  | nil =>
    rw [hadded] at hc
    obtain rfl | ⟨-, u, rfl⟩ := hrest
    · exact absurd hc (by simp)
    · rw [← Option.some.inj hc]
      exact isParamSeparator_semi
  | cons a t =>
    rw [head_addedText p.value c (by rw [hadded] at hc ⊢; exact hc)]
    decide

theorem Closed.first (h : p.Closed) (hrest : rest = [] ∨ ∃ u, rest = ';' :: u) :
    First [] p.name (ViaHeader.addedText p.value) rest :=
  first_of_skips h.added.1 (hrest.imp_right fun hu => ⟨h.added.2, hu⟩)

/-- The parameters are none, or begin with a semicolon. -/
theorem paramsText_cases (params : List HeaderParam)
    (hrest : rest = [] ∨ ∃ u, rest = ';' :: u) :
    paramsText params ++ rest = [] ∨ ∃ u, paramsText params ++ rest = ';' :: u := by
  cases params with
  | nil => exact hrest
  | cons p params => exact .inr ⟨_, rfl⟩

theorem paramsText_begins (params : List HeaderParam) :
    paramsText params = [] ∨ ∃ u, paramsText params = ';' :: u := by
  have hcases := paramsText_cases params (.inl rfl)
  rwa [List.append_nil] at hcases

theorem toText_begins (p : HeaderParam) : p.toText = [] ∨ ∃ u, p.toText = ';' :: u :=
  .inr ⟨_, rfl⟩

theorem tail_paramsText_cons (p : HeaderParam) (params : List HeaderParam) (rest : Text) :
    (paramsText (p :: params) ++ rest).tail =
      p.name ++ (ViaHeader.addedText p.value ++ (paramsText params ++ rest)) := by
  show ((p.name ++ ViaHeader.addedText p.value) ++ paramsText params) ++ rest = _
  rw [List.append_assoc, List.append_assoc]

variable (hclosed : ∀ r ∈ params, r.Closed) (hrest : rest = [] ∨ ∃ u, rest = ';' :: u)

include hclosed hrest

/-- **The parameters of the list are the segments of the text.** -/
theorem segments_paramsText :
    segments (paramsText params ++ rest).tail = params.map segment ++ segments rest.tail := by
  induction params with
  | nil => rfl
  | cons p params ih =>
    have hfirst := (hclosed p (List.mem_cons_self ..)).first (paramsText_cases params hrest)
    rw [tail_paramsText_cons, List.map_cons, List.cons_append,
      ← ih fun r hr => hclosed r (List.mem_cons_of_mem _ hr)]
    exact segments_first hfirst

/-- What `getParameter` returns for a list: the value of the first parameter of the name, unless this
one has none and nothing stands behind it. -/
def readIn (name : Text) (last : Bool) (other : Option (Option Text)) :
    List HeaderParam → Option (Option Text)
  | [] => other
  | p :: params =>
    if p.name = name then
      if p.value = none ∧ params = [] ∧ last = true then none
      else some (p.value.map getWordSkippingQuoted)
    else readIn name last other params

/-- **What is read in the text of a list.** -/
theorem findParameter_paramsText {name : Text} (hp : name ≠ []) {n m : ℕ}
    (hn : (paramsText params ++ rest).tail.length ≤ n) (hm : rest.tail.length ≤ m) :
    findParameter name n (paramsText params ++ rest).tail =
      readIn name rest.isEmpty (findParameter name m rest.tail) params := by
  induction params generalizing n with
  | nil => exact findParameter_fuel hp hn hm
  | cons p params ih =>
    have hcases := paramsText_cases params hrest
    have h := (hclosed p (List.mem_cons_self ..)).first hcases
    have hlt := h.length_lt
    rw [tail_paramsText_cons] at hn ⊢
    rw [List.nil_append] at hlt
    obtain ⟨n, rfl⟩ : ∃ l, n = l + 1 := ⟨n - 1, by omega⟩
    rw [readIn]
    by_cases hname : p.name = name
    · subst hname
      have hget := h.getWord
      have hne := h.ne_nil_text
      rw [List.nil_append] at hget hne
      simp only [findParameter, hne, if_false, hget, if_true]
      cases hvalue : p.value with
      | none =>
        have hnil : ViaHeader.addedText none = [] := rfl
        rw [hnil, List.nil_append]
        obtain hempty | ⟨u, hu⟩ := hcases
        · obtain ⟨hparams, hrest⟩ := List.append_eq_nil_iff.mp hempty
          have hlist : params = [] := by
            cases params with
            | nil => rfl
            | cons q params => exact absurd hparams (List.cons_ne_nil _ _)
          rw [hempty, if_pos ⟨rfl, hlist, by rw [hrest]; rfl⟩]
          rfl
        · rw [if_neg, hu]
          · rfl
          · rintro ⟨-, hparams, hlast⟩
            rw [hparams, List.isEmpty_iff.mp hlast] at hu
            exact absurd hu (by simp [paramsText])
      | some v =>
        have hskip : skipWSP (ViaHeader.addedText p.value) = '=' :: v := by
          rw [hvalue]
          rfl
        have hword := h.getWordSkippingQuoted hskip (p.isValue v hvalue).getWordSkippingQuoted.2
        have hskips : skipWSP (ViaHeader.addedText p.value ++ (paramsText params ++ rest)) =
            '=' :: (v ++ (paramsText params ++ rest)) := skipWSP_append hskip
        rw [hvalue] at hskips
        rw [hskips, if_neg (by simp)]
        simp only [if_true, hword, Option.map_some]
    · have hstep := h.findParameter_of_ne hname n
      rw [List.nil_append] at hstep
      rw [if_neg hname, hstep]
      exact ih (fun r hr => hclosed r (List.mem_cons_of_mem _ hr)) (by omega)

end Params

section Removed

variable {params : List HeaderParam} (hclosed : ∀ r ∈ params, r.Closed)

include hclosed

/-- **Of the parameters, the first one of the name is removed**, when the name is not found behind a
semicolon of a value before. -/
theorem cutParameter_paramsText {name : Text} (hp : name ≠ [])
    (hclear : clear name (params.map segment) = true) {n : ℕ}
    (hn : (paramsText params).length ≤ n) (top : Text) :
    cutParameter name n top (paramsText params) =
      top ++ paramsText (params.eraseP (·.name == name)) := by
  induction params generalizing n top with
  | nil =>
    have hnil : paramsText [] = [] := rfl
    rw [List.eraseP_nil, hnil, cutParameter_nil, List.append_nil]
  | cons p params ih =>
    have hp' := hclosed p (List.mem_cons_self ..)
    have hcases := paramsText_begins params
    have h := hp'.first hcases
    have htext : paramsText (p :: params) =
        ';' :: (p.name ++ (ViaHeader.addedText p.value ++ paramsText params)) := by
      show ';' :: ((p.name ++ ViaHeader.addedText p.value) ++ paramsText params) = _
      rw [List.append_assoc]
    have hget := h.getWord
    rw [List.nil_append] at hget
    rw [htext] at hn ⊢
    rw [List.length_cons, List.length_append, List.length_append] at hn
    obtain ⟨n, rfl⟩ : ∃ l, n = l + 1 := ⟨n - 1, by omega⟩
    by_cases hname : p.name = name
    · subst hname
      rw [List.eraseP_cons_of_pos (by simp), cutParameter_of_eq hget]
      exact congrArg (top ++ ·) (congrArg Prod.snd h.span)
    · have htail : clearTail name (ViaHeader.addedText p.value) = true ∧
          clear name (params.map segment) = true := by
        rw [List.map_cons, clear] at hclear
        have hne : (p.segment.name == name) = false := by simpa [segment] using hname
        rwa [hne, Bool.false_or, Bool.and_eq_true] at hclear
      have hpass := cutFrom_pass htail.1 hp hcases
        (fun _ z hz => exists_not_separator h.skips hp'.added.2 hz) (n := n) (m := n)
        (by rw [List.length_append]; omega) (by omega) (top ++ ';' :: p.name)
      rw [List.eraseP_cons_of_neg (by simpa using hname), cutParameter_of_ne hget hname, hpass,
        ih (fun r hr => hclosed r (List.mem_cons_of_mem _ hr)) htail.2 (by omega)]
      simp [paramsText, toText]

end Removed

/-! ## Reading a list -/

section Read

/-- The value of the first parameter of the name. -/
def lookup (name : Text) (params : List HeaderParam) : Option Text :=
  (params.find? (·.name == name)).bind fun p => p.value.map getWordSkippingQuoted

/-- The last parameter has a value, or another one of its name stands before it. -/
def Ends (params : List HeaderParam) : Prop :=
  ∀ init r, params = init ++ [r] → r.value = none → ∃ q ∈ init, q.name = r.name

/-- What is read, when something stands behind the list. -/
theorem readIn_false (name : Text) (params : List HeaderParam) :
    readIn name false (some none) params = some (lookup name params) := by
  induction params with
  | nil => rfl
  | cons p params ih =>
    rw [readIn, lookup]
    by_cases hname : p.name = name
    · rw [if_pos hname, if_neg (by simp), List.find?_cons_of_pos (by simpa using hname)]
      rfl
    · rw [if_neg hname, List.find?_cons_of_neg (by simpa using hname), ih]
      rfl

/-- What is found before something else is read. -/
theorem readIn_of_mem {name : Text} {params : List HeaderParam} (hmem : ∃ r ∈ params, r.name = name)
    (other : Option (Option Text)) :
    readIn name false other params = some (lookup name params) := by
  induction params with
  | nil =>
    obtain ⟨r, hr, -⟩ := hmem
    exact absurd hr List.not_mem_nil
  | cons p params ih =>
    rw [readIn, lookup]
    by_cases hname : p.name = name
    · rw [if_pos hname, if_neg (by simp), List.find?_cons_of_pos (by simpa using hname)]
      rfl
    · obtain ⟨r, hr, heq⟩ := hmem
      have hr' : r ∈ params := by
        rcases List.mem_cons.mp hr with rfl | hr
        · exact absurd heq hname
        · exact hr
      rw [if_neg hname, List.find?_cons_of_neg (by simpa using hname), ih ⟨r, hr', heq⟩]
      rfl

/-- The name is not in the list. -/
theorem readIn_of_not_mem {name : Text} {params : List HeaderParam}
    (hnot : ∀ r ∈ params, r.name ≠ name) (last : Bool) (other : Option (Option Text)) :
    readIn name last other params = other := by
  induction params with
  | nil => rfl
  | cons p params ih =>
    rw [readIn, if_neg (hnot p (List.mem_cons_self ..))]
    exact ih fun r hr => hnot r (List.mem_cons_of_mem _ hr)

/-- One list behind the other. -/
theorem readIn_append (name : Text) (last : Bool) (other : Option (Option Text))
    (init : List HeaderParam) {params : List HeaderParam} (hne : params ≠ []) :
    readIn name last other (init ++ params) =
      readIn name false (readIn name last other params) init := by
  induction init with
  | nil => rfl
  | cons p init ih =>
    have happend : init ++ params ≠ [] := by simp [hne]
    rw [List.cons_append, readIn, readIn]
    by_cases hname : p.name = name
    · rw [if_pos hname, if_pos hname, if_neg (fun h => happend h.2.1),
        if_neg (fun h => Bool.false_ne_true h.2.2)]
    · rw [if_neg hname, if_neg hname, ih]

/-- **At the end of the text, a name is read if and only if** its first parameter is not the last one
without a value. -/
theorem readIn_true_iff (name : Text) (params : List HeaderParam) :
    readIn name true (some none) params = some (lookup name params) ↔
      ∀ init r, params = init ++ [r] → r.name = name → r.value = none →
        ∃ q ∈ init, q.name = name := by
  rcases List.eq_nil_or_concat params with rfl | ⟨init, r, hparams⟩
  · refine ⟨fun _ init r h => ?_, fun _ => rfl⟩
    exact absurd h.symm (by simp)
  rw [List.concat_eq_append] at hparams
  subst hparams
  have hone (last : Bool) : readIn name last (some none) [r] =
      if r.name = name then
        if r.value = none ∧ ([] : List HeaderParam) = [] ∧ last = true then none
        else some (r.value.map getWordSkippingQuoted)
      else some none := rfl
  rw [← readIn_false, readIn_append _ _ _ _ (List.cons_ne_nil _ _),
    readIn_append _ _ _ _ (List.cons_ne_nil _ _)]
  have hlast {init' : List HeaderParam} {r' : HeaderParam} (h : init ++ [r] = init' ++ [r']) :
      init = init' ∧ r = r' := by
    obtain ⟨hinit, hr⟩ := List.append_inj' h rfl
    exact ⟨hinit, (List.cons.inj hr).1⟩
  by_cases hmem : ∃ q ∈ init, q.name = name
  · rw [readIn_of_mem hmem, readIn_of_mem hmem]
    refine ⟨fun _ init' r' h _ _ => ?_, fun _ => rfl⟩
    rwa [← (hlast h).1]
  · have hnot : ∀ q ∈ init, q.name ≠ name := fun q hq hname => hmem ⟨q, hq, hname⟩
    rw [readIn_of_not_mem hnot, readIn_of_not_mem hnot, hone, hone]
    by_cases hname : r.name = name
    · rw [if_pos hname, if_pos hname]
      by_cases hvalue : r.value = none
      · rw [if_pos ⟨hvalue, rfl, rfl⟩, if_neg (fun h => Bool.false_ne_true h.2.2)]
        exact ⟨fun h => absurd h (by simp), fun h => absurd (h init r rfl hname hvalue) hmem⟩
      · rw [if_neg (fun h => hvalue h.1), if_neg (fun h => hvalue h.1)]
        refine ⟨fun _ init' r' h _ hvalue' => ?_, fun _ => rfl⟩
        rw [← (hlast h).2] at hvalue'
        exact absurd hvalue' hvalue
    · rw [if_neg hname, if_neg hname]
      refine ⟨fun _ init' r' h hname' => ?_, fun _ => rfl⟩
      rw [← (hlast h).2] at hname'
      exact absurd hname' hname

/-- **All names are read if and only if** the list ends well. -/
theorem ends_iff {params : List HeaderParam} :
    Ends params ↔ ∀ name, readIn name true (some none) params = some (lookup name params) := by
  constructor
  · intro h name
    refine (readIn_true_iff name params).mpr fun init r hparams hname hvalue => ?_
    obtain ⟨q, hq, heq⟩ := h init r hparams hvalue
    exact ⟨q, hq, heq.trans hname⟩
  · intro h init r hparams hvalue
    exact (readIn_true_iff r.name params).mp (h r.name) init r hparams rfl hvalue

/-- A name without a value at the end of the text is an index out of range. -/
theorem readIn_flag {init : List HeaderParam} {r : HeaderParam} (hvalue : r.value = none)
    (hnot : ∀ q ∈ init, q.name ≠ r.name) :
    readIn r.name true (some none) (init ++ [r]) = none := by
  rw [readIn_append _ _ _ _ (List.cons_ne_nil _ _), readIn_of_not_mem hnot, readIn, if_pos rfl,
    if_pos ⟨hvalue, rfl, rfl⟩]

/-- A list ends well, when its last name can be read. -/
theorem ends_of_read {params : List HeaderParam}
    (h : ∀ init r, params = init ++ [r] → (∀ q ∈ init, q.name ≠ r.name) → r.value = none →
      readIn r.name true (some none) params ≠ none) : Ends params := by
  intro init r hparams hvalue
  by_contra hnone
  have hinit : ∀ q ∈ init, q.name ≠ r.name := fun q hq hname => hnone ⟨q, hq, hname⟩
  refine h init r hparams hinit hvalue ?_
  rw [hparams]
  exact readIn_flag hvalue hinit

/-- Parameters of other names are found when one is removed. -/
theorem find_without {name other : Text} (hne : other ≠ name) (params : List HeaderParam) :
    (params.eraseP (·.name == name)).find? (·.name == other) = params.find? (·.name == other) := by
  have hfilter := filter_eraseP (p := fun r : HeaderParam => r.name == name)
    (q := fun r => r.name == other)
    (fun r hr => by rw [eq_of_beq hr]; simpa using Ne.symm hne) params
  rw [← List.head?_filter, ← List.head?_filter, hfilter]

theorem lookup_without {name other : Text} (hne : other ≠ name) (params : List HeaderParam) :
    lookup other (params.eraseP (·.name == name)) = lookup other params := by
  rw [lookup, find_without hne, lookup]

theorem any_without {name other : Text} (hne : other ≠ name) (params : List HeaderParam) :
    (params.eraseP (·.name == name)).any (·.name == other) = params.any (·.name == other) := by
  rw [← List.isSome_find?, ← List.isSome_find?, find_without hne]

end Read

end HeaderParam

/-! ## The methods on the whole value -/

open HeaderParam

/-- A value of a header: what stands in front of the parameters, and the parameters. -/
structure ParametricValue where
  head : Text
  params : List HeaderParam

namespace ParametricValue

def text (x : ParametricValue) : Text := x.head ++ paramsText x.params

/-- The first parameter of the name is not there any more. -/
def without (x : ParametricValue) (name : Text) : ParametricValue :=
  { x with params := x.params.eraseP (·.name == name) }

variable (semi : Text → Text × Text)

/-- The class finds the semicolon of the first parameter, in the value and in those that are made. -/
structure Found (x : ParametricValue) (p : HeaderParam) : Prop where
  value : semi x.text = (x.head, paramsText x.params)
  removed : semi (x.without p.name).text = (x.head, paramsText (x.without p.name).params)
  set : semi ((x.without p.name).text ++ p.toText) =
    (x.head, paramsText (x.without p.name).params ++ p.toText)

/-- **Parameters behave as a finite map**, when the parameter `p` is set, and when its name is
removed. -/
structure FiniteMap (x : ParametricValue) (p : HeaderParam) : Prop where
  set_get : getParameter semi p.name (setParameter semi p.name p.value x.text) = some p.value
  set_has : hasParameter semi p.name (setParameter semi p.name p.value x.text) = true
  set_others : ∀ name, name ≠ [] → name ≠ p.name →
    hasParameter semi name (setParameter semi p.name p.value x.text) =
        hasParameter semi name x.text ∧
      getParameter semi name (setParameter semi p.name p.value x.text) =
        getParameter semi name x.text
  removed_has : hasParameter semi p.name (removeParameter semi p.name x.text) = false
  removed_others : ∀ name, name ≠ [] → name ≠ p.name →
    hasParameter semi name (removeParameter semi p.name x.text) = hasParameter semi name x.text ∧
      getParameter semi name (removeParameter semi p.name x.text) = getParameter semi name x.text
  null : ∀ name, name ≠ [] → (∀ r ∈ x.params, r.name = name → r.value = none) →
    getParameter semi name x.text = some none

/-- The value of `p` is read again, its name occurs once at most, and the parameters end well, also
without it. -/
structure Fits (x : ParametricValue) (p : HeaderParam) : Prop where
  value : ∃ v, p.value = some v ∧ getWordSkippingQuoted v = v
  once : (x.params.filter (·.name == p.name)).length ≤ 1
  ends : Ends x.params
  ends_removed : Ends (x.without p.name).params

section Methods

variable {semi} {name value head u : Text}

/-- What `getParameter` goes through. -/
theorem getParameter_eq (hp : name ≠ []) (hsemi : semi value = (head, u)) :
    getParameter semi name value = findParameter name u.tail.length u.tail := by
  have hsplit : u.tail = u.tail.takeWhile (· == ' ') ++ skipWSP u.tail :=
    List.takeWhile_append_dropWhile.symm
  have hspace : ∀ c ∈ u.tail.takeWhile (· == ' '), isParamSeparator c = true := by
    intro c hc
    have hc' := List.mem_takeWhile_imp hc
    rw [eq_of_beq hc']
    decide
  have happend := findParameter_append_separators hp hspace (s := skipWSP u.tail)
    (n := u.tail.length) (by rw [← hsplit]) le_rfl
  rw [← hsplit] at happend
  unfold getParameter
  rw [hsemi]
  exact happend.symm

theorem hasParameter_eq (hp : name ≠ []) (hsemi : semi value = (head, u)) :
    hasParameter semi name value = (segments u.tail).any (·.name == name) := by
  unfold hasParameter
  rw [hsemi, ← ViaHeader.segments_skipWSP]
  exact anyParameter_eq hp le_rfl

end Methods

section Text

variable {semi} {x : ParametricValue} (hvalue : semi x.text = (x.head, paramsText x.params))
  (hclosed : ∀ r ∈ x.params, r.Closed)

include hvalue hclosed

theorem getParameter_text {name : Text} (hp : name ≠ []) :
    getParameter semi name x.text = readIn name true (some none) x.params := by
  have hread := findParameter_paramsText hclosed (.inl rfl) hp (m := 0) le_rfl le_rfl
  rw [List.append_nil] at hread
  rw [getParameter_eq hp hvalue, hread]
  rfl

theorem hasParameter_text {name : Text} (hp : name ≠ []) :
    hasParameter semi name x.text = x.params.any (·.name == name) := by
  have hsegments := segments_paramsText hclosed (.inl rfl)
  rw [List.append_nil] at hsegments
  have hnil : segments ([] : Text).tail = [] := rfl
  rw [hasParameter_eq hp hvalue, hsegments, hnil, List.append_nil, List.any_map]
  rfl

end Text

section Map

variable {semi} {x : ParametricValue} {p : HeaderParam} (hfound : Found semi x p)
  (hclosed : ∀ r ∈ x.params, r.Closed) (hclear : clear p.name (x.params.map HeaderParam.segment) = true)

include hfound hclosed hclear

theorem removeParameter_text : removeParameter semi p.name x.text = (x.without p.name).text := by
  unfold removeParameter
  rw [hfound.value]
  exact cutParameter_paramsText hclosed p.ne_nil hclear le_rfl x.head

theorem setParameter_text :
    setParameter semi p.name p.value x.text = (x.without p.name).text ++ p.toText := by
  have hset : setParameter semi p.name p.value x.text =
      (if hasParameter semi p.name x.text = true then removeParameter semi p.name x.text
        else x.text) ++ p.toText := by
    unfold setParameter toText ViaHeader.addedText
    cases p.value <;> simp
  rw [hset]
  split
  · rw [removeParameter_text hfound hclosed hclear]
  · rename_i hnot
    rw [hasParameter_text hfound.value hclosed p.ne_nil, List.any_eq_true] at hnot
    have herase : x.params.eraseP (·.name == p.name) = x.params :=
      List.eraseP_of_forall_not fun r hr hname => hnot ⟨r, hr, hname⟩
    rw [without, herase]

/-- **What is read of the name that was set**: the value, if it is one that is read again. -/
theorem getParameter_set (honce : ∀ r ∈ (x.without p.name).params, r.name ≠ p.name) :
    getParameter semi p.name (setParameter semi p.name p.value x.text) =
      p.value.map fun v => some (getWordSkippingQuoted v) := by
  have hclosed' : ∀ r ∈ (x.without p.name).params, r.Closed :=
    fun r hr => hclosed r (List.mem_of_mem_eraseP hr)
  have hread : findParameter p.name (p.toText.tail.length + 1) p.toText.tail =
      p.value.map fun v => some (getWordSkippingQuoted v) :=
    findParameter_self p.ne_nil (fun c hc => (p.nameChars c hc).1) p.value _
  rw [setParameter_text hfound hclosed hclear, getParameter_eq p.ne_nil hfound.set,
    findParameter_paramsText hclosed' p.toText_begins p.ne_nil le_rfl
      (Nat.le_succ _), readIn_of_not_mem honce, hread]

/-- The parameter that was set is there, and others are if they were. -/
theorem hasParameter_set (hskips : Skips ';' false (ViaHeader.addedText p.value)) {name : Text}
    (hp : name ≠ []) : hasParameter semi name (setParameter semi p.name p.value x.text) =
      ((x.params.eraseP (·.name == p.name)).any (·.name == name) || p.name == name) := by
  have hclosed' : ∀ r ∈ (x.without p.name).params, r.Closed :=
    fun r hr => hclosed r (List.mem_of_mem_eraseP hr)
  have hsegments : segments p.toText.tail = [p.segment] := by
    have h := segments_first (first_of_skips hskips (.inl rfl))
    rw [List.nil_append, List.append_nil] at h
    exact h
  rw [setParameter_text hfound hclosed hclear, hasParameter_eq hp hfound.set,
    segments_paramsText hclosed' p.toText_begins, hsegments, List.any_append,
    List.any_map, List.any_cons, List.any_nil, Bool.or_false]
  rfl

/-- **What is read of other names** is what is read in the list, behind which something stands. -/
theorem getParameter_set_of_ne (hskips : Skips ';' false (ViaHeader.addedText p.value)) {name : Text}
    (hp : name ≠ []) (hne : name ≠ p.name) :
    getParameter semi name (setParameter semi p.name p.value x.text) =
      some (lookup name x.params) := by
  have hclosed' : ∀ r ∈ (x.without p.name).params, r.Closed :=
    fun r hr => hclosed r (List.mem_of_mem_eraseP hr)
  have hfirst : First [] p.name (ViaHeader.addedText p.value) [] := first_of_skips hskips (.inl rfl)
  have hread : findParameter name (p.toText.tail.length + 1) p.toText.tail = some none := by
    have h := hfirst.findParameter_of_ne (Ne.symm hne) p.toText.tail.length
    rw [List.nil_append, List.append_nil, List.tail_nil, findParameter_nil] at h
    exact h
  rw [setParameter_text hfound hclosed hclear, getParameter_eq hp hfound.set,
    findParameter_paramsText hclosed' p.toText_begins hp le_rfl (Nat.le_succ _),
    hread]
  show readIn name false (some none) _ = _
  rw [readIn_false, ← lookup_without hne x.params]
  rfl

theorem hasParameter_removed {name : Text} (hp : name ≠ []) :
    hasParameter semi name (removeParameter semi p.name x.text) =
      (x.params.eraseP (·.name == p.name)).any (·.name == name) := by
  rw [removeParameter_text hfound hclosed hclear]
  exact hasParameter_text hfound.removed (fun r hr => hclosed r (List.mem_of_mem_eraseP hr)) hp

theorem getParameter_removed {name : Text} (hp : name ≠ []) :
    getParameter semi name (removeParameter semi p.name x.text) =
      readIn name true (some none) (x.without p.name).params := by
  rw [removeParameter_text hfound hclosed hclear]
  exact getParameter_text hfound.removed (fun r hr => hclosed r (List.mem_of_mem_eraseP hr)) hp

/-- What a finite map asks for. -/
theorem FiniteMap.fits (h : FiniteMap semi x p) : Fits x p := by
  have hnot : ∀ r ∈ (x.without p.name).params, r.name ≠ p.name := by
    have hnone := h.removed_has
    rw [hasParameter_removed hfound hclosed hclear p.ne_nil, List.any_eq_false] at hnone
    exact fun r hr hname => hnone r hr (by simpa using hname)
  have hends : Ends x.params := by
    refine ends_of_read fun init r hparams hinit hvalue => ?_
    have hnull := h.null r.name r.ne_nil fun q hq hname => by
      rw [hparams] at hq
      rcases List.mem_append.mp hq with hq | hq
      · exact absurd hname (hinit q hq)
      · rw [List.mem_singleton.mp hq]
        exact hvalue
    rw [← getParameter_text hfound.value hclosed r.ne_nil, hnull]
    exact Option.some_ne_none _
  refine ⟨?_, ?_, hends, ?_⟩
  · have hset := h.set_get
    rw [getParameter_set hfound hclosed hclear hnot] at hset
    cases hvalue : p.value with
    | none =>
      rw [hvalue] at hset
      exact absurd hset (by simp)
    | some v =>
      rw [hvalue] at hset
      exact ⟨v, rfl, Option.some.inj (Option.some.inj hset)⟩
  · exact (length_filter_le_one_iff _ x.params).mpr fun r hr => by simpa using hnot r hr
  · refine ends_of_read fun init r hparams _ _ => ?_
    have hr : r ∈ (x.without p.name).params := by
      rw [hparams]
      exact List.mem_append_right _ (List.mem_singleton.mpr rfl)
    have hother := (h.removed_others r.name r.ne_nil (hnot r hr)).2
    rw [getParameter_removed hfound hclosed hclear r.ne_nil,
      getParameter_text hfound.value hclosed r.ne_nil, ends_iff.mp hends] at hother
    rw [hother]
    exact Option.some_ne_none _

/-- Parameters that fit are a finite map. -/
theorem Fits.finiteMap (h : Fits x p) : FiniteMap semi x p := by
  obtain ⟨⟨v, hvalue, hread⟩, honce, hends, hends'⟩ := h
  have hnot : ∀ r ∈ (x.without p.name).params, r.name ≠ p.name := fun r hr => by
    simpa using (length_filter_le_one_iff _ x.params).mp honce r hr
  have hskips : Skips ';' false (ViaHeader.addedText p.value) := by
    rw [hvalue]
    refine skips_cons.mpr ⟨by decide, ?_⟩
    rw [if_neg (by decide)]
    rw [(p.isValue v hvalue).getWordSkippingQuoted.1] at hread
    exact skips_of_word isParamSeparator_semi hread
  have htext {name : Text} (hp : name ≠ []) :
      getParameter semi name x.text = some (lookup name x.params) := by
    rw [getParameter_text hfound.value hclosed hp, ends_iff.mp hends]
  refine ⟨?_, ?_, fun name hp hne => ?_, ?_, fun name hp hne => ⟨?_, ?_⟩, fun name hp hnone => ?_⟩
  · rw [getParameter_set hfound hclosed hclear hnot, hvalue, Option.map_some, hread]
  · rw [hasParameter_set hfound hclosed hclear hskips p.ne_nil, beq_self_eq_true, Bool.or_true]
  · have hfalse : (p.name == name) = false := by simpa using Ne.symm hne
    rw [hasParameter_set hfound hclosed hclear hskips hp, any_without hne, hfalse, Bool.or_false,
      hasParameter_text hfound.value hclosed hp, htext hp]
    exact ⟨rfl, getParameter_set_of_ne hfound hclosed hclear hskips hp hne⟩
  · rw [hasParameter_removed hfound hclosed hclear p.ne_nil, List.any_eq_false]
    exact fun r hr hname => hnot r hr (eq_of_beq hname)
  · rw [hasParameter_removed hfound hclosed hclear hp, hasParameter_text hfound.value hclosed hp,
      any_without hne]
  · rw [getParameter_removed hfound hclosed hclear hp, ends_iff.mp hends', htext hp]
    exact congrArg some (lookup_without hne x.params)
  · rw [htext hp, lookup]
    cases hfind : x.params.find? (·.name == name) with
    | none => rfl
    | some r =>
      have hname := List.find?_some hfind
      have hvalue := hnone r (List.mem_of_find?_eq_some hfind) (by simpa using hname)
      rw [Option.bind_some, hvalue]
      rfl

/-- **The parameters behave as a finite map if and only if** they fit. -/
theorem finiteMap_iff : FiniteMap semi x p ↔ Fits x p :=
  ⟨FiniteMap.fits hfound hclosed hclear, Fits.finiteMap hfound hclosed hclear⟩

end Map

/-! ## The classes -/

section Classes

variable {semi} {x : ParametricValue}

theorem found_of_divides
    (h : ∀ u, (u = [] ∨ ∃ w, u = ';' :: w) → semi (x.head ++ u) = (x.head, u)) (p : HeaderParam) :
    Found semi x p := by
  have hcases (params : List HeaderParam) {rest : Text} (hrest : rest = [] ∨ ∃ w, rest = ';' :: w) :
      semi (x.head ++ (paramsText params ++ rest)) = (x.head, paramsText params ++ rest) :=
    h _ (paramsText_cases params hrest)
  refine ⟨?_, ?_, ?_⟩
  · have hvalue := hcases x.params (.inl rfl)
    rwa [List.append_nil] at hvalue
  · have hvalue := hcases (x.without p.name).params (.inl rfl)
    rwa [List.append_nil] at hvalue
  · have hvalue := hcases (x.without p.name).params p.toText_begins
    rw [← List.append_assoc] at hvalue
    exact hvalue

/-- Neither quotes nor semicolons stand in front of the parameters. -/
theorem found_firstSemi (hsemi : ';' ∉ x.head) (hquote : '"' ∉ x.head) (p : HeaderParam) :
    Found firstSemi x p :=
  found_of_divides (fun _ hu => span_append (skips_of_not_mem hsemi false)
    (hu.imp_right fun hw => ⟨endsInside_of_not_mem hquote false, hw⟩)) p

/-- A name-address that can be written stands in front of the parameters. -/
theorem found_nameAddress {naddr : NameAddressText} {tag : Option Text}
    (h : EndPointHeader.Rewritable naddr tag) (hhead : x.head = naddr.toText) (p : HeaderParam) :
    Found NameAddressHeader.firstSemi x p := by
  refine found_of_divides (fun u hu => ?_) p
  rw [hhead]
  exact EndPointHeader.firstSemi_toText h hu

end Classes

/-- A Via value with a flag in front, and a semicolon in quotes. -/
def viaValue : ParametricValue where
  head := "SIP/2.0/UDP h:5060".toList
  params := [⟨"rport".toList, none, by decide, by decide, isValue_none⟩,
    ⟨"x".toList, some "\"a;b\"".toList, by decide, by decide, fun v hv => by
      rw [← Option.some.inj hv]
      exact .quoted [.plain 'a' (by decide), .plain ';' (by decide), .plain 'b' (by decide)]⟩]

/-- The port that the flag asks for. -/
def rportValue : HeaderParam where
  name := "rport".toList
  value := some "5060".toList
  ne_nil := by decide
  nameChars := by decide
  isValue v hv := by
    rw [← Option.some.inj hv]
    exact .token _ (by decide) (by decide)

theorem finiteMap_iff_viaValue : FiniteMap firstSemi viaValue rportValue := by
  refine (finiteMap_iff (found_firstSemi (by decide) (by decide) _) ?_ (by decide)).mpr
    ⟨⟨_, rfl, by decide⟩, by decide, ?_, ?_⟩
  · intro r hr v hv
    rcases List.mem_cons.mp hr with rfl | hr
    · exact absurd hv (by simp)
    · rw [List.mem_singleton.mp hr] at hv
      rw [← Option.some.inj hv]
      decide
  · intro init r hparams hvalue
    have hlast := congrArg List.getLast? hparams
    rw [List.getLast?_append_of_ne_nil _ (List.cons_ne_nil _ _), List.getLast?_singleton] at hlast
    rw [← Option.some.inj hlast] at hvalue
    exact absurd hvalue (by decide)
  · intro init r hparams hvalue
    have hlast := congrArg List.getLast? hparams
    rw [List.getLast?_append_of_ne_nil _ (List.cons_ne_nil _ _), List.getLast?_singleton] at hlast
    rw [← Option.some.inj hlast] at hvalue
    exact absurd hvalue (by decide)

/-- A Via value that asks for the port. -/
def flagValue : ParametricValue where
  head := "SIP/2.0/UDP h:5060".toList
  params := [⟨"rport".toList, none, by decide, by decide, isValue_none⟩]

/-- **The flag at the end is an index out of range**, also when `setParameter` has just set it; and a
name in quotes is removed with what stands behind it. -/
theorem flagValue_not_finiteMap :
    getParameter firstSemi "rport".toList flagValue.text = none ∧
      getParameter firstSemi "rport".toList (setParameter firstSemi "rport".toList none
        "SIP/2.0/UDP h:5060;rport=1".toList) = none ∧
      removeParameter firstSemi "p".toList "h;x=\"a;p=2\";p=1".toList = "h;x=\"a".toList ∧
      ¬FiniteMap firstSemi flagValue rportValue := by
  have hflag : getParameter firstSemi "rport".toList flagValue.text = none := by decide
  refine ⟨hflag, by decide, by decide, fun h => ?_⟩
  have hnull := h.null "rport".toList (by decide) fun r hr _ => by
    rw [List.mem_singleton.mp hr]
  rw [hflag] at hnull
  exact absurd hnull (by simp)

end ParametricValue
end SoftPhone
