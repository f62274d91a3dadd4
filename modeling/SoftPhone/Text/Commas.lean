import Mathlib.Algebra.Group.Nat.Even
import SoftPhone.Text.Routes

/-!
# Values that were joined, and divided again

The values of a field are name-addresses: a display name in quotes, which may have any character
behind a backslash, and a URI in brackets, which may have commas.  `toHeader` joins them, and
`MultipleHeader(Header)` and `MultipleHeader(Vector)` divide the text again.

`indexOfCommaHeaderSeparator` counts the quotes that it passes, also those behind a backslash, and
does not look at brackets.  Behind an odd number of escaped quotes it takes what is in quotes for
what is not.  So a comma divides a value in the display name behind an odd number of escaped quotes,
and in the URI behind an even number; and a value with an odd number is not divided from the next
one.  Otherwise the same values are found, however they are grouped (`rejoined_iff`).
-/

namespace SoftPhone

open SipParser

/-! ## Quoted strings -/

/-- A character of a quoted string: one that stands for itself, or one behind a backslash. -/
inductive QuotedChar where
  | plain (c : Char) (h : c ≠ '"' ∧ c ≠ '\\')
  | pair (c : Char)
  deriving DecidableEq

namespace QuotedChar

def toText : QuotedChar → Text
  | plain c _ => [c]
  | pair c => ['\\', c]

theorem skips_toText {d : Char} (hd : d ≠ '"' ∧ d ≠ '\\') {inside : Bool} {c : QuotedChar} :
    Skips d inside c.toText ↔ (d ∈ c.toText → inside = true) := by
  cases c with
  | plain c h =>
    rw [toText, skips_cons, List.mem_singleton]
    cases inside <;> simp [eq_comm]
  | pair c =>
    rw [toText, skips_cons, skips_cons, if_neg (by decide), List.mem_cons, List.mem_singleton]
    cases inside <;> simp [hd.2, eq_comm]

end QuotedChar

/-- What stands between the quotes. -/
def quotedText (q : List QuotedChar) : Text := q.flatMap QuotedChar.toText

/-- How many quotes stand behind a backslash. -/
def escapedQuotes (q : List QuotedChar) : ℕ := q.count (.pair '"')

theorem quotedText_cons (c : QuotedChar) (q : List QuotedChar) :
    quotedText (c :: q) = c.toText ++ quotedText q := List.flatMap_cons

/-- Each escaped quote turns the state of the scan over. -/
theorem endsInside_quotedText (inside : Bool) (q : List QuotedChar) :
    endsInside inside (quotedText q) = if Even (escapedQuotes q) then inside else !inside := by
  induction q generalizing inside with
  | nil => rfl
  | cons c q ih =>
    rw [quotedText_cons, endsInside_append, ih]
    cases c with
    | plain c h =>
      have hends : endsInside inside (QuotedChar.plain c h).toText = inside := by
        rw [QuotedChar.toText, endsInside_cons, if_neg h.1]
        rfl
      have hcount : escapedQuotes (.plain c h :: q) = escapedQuotes q :=
        List.count_cons_of_ne (by simp)
      rw [hends, hcount]
    | pair c =>
      by_cases hc : c = '"'
      · subst hc
        have hends : endsInside inside (QuotedChar.pair '"').toText = !inside := rfl
        have hcount : escapedQuotes (.pair '"' :: q) = escapedQuotes q + 1 :=
          List.count_cons_self
        rw [hends, hcount]
        by_cases heven : Even (escapedQuotes q)
        · rw [if_pos heven, if_neg fun hodd => Nat.even_add_one.mp hodd heven]
        · rw [if_neg heven, if_pos (Nat.even_add_one.mpr heven), Bool.not_not]
      · have hends : endsInside inside (QuotedChar.pair c).toText = inside := by
          rw [QuotedChar.toText, endsInside_cons, if_neg (by decide), endsInside_cons, if_neg hc]
          rfl
        have hcount : escapedQuotes (.pair c :: q) = escapedQuotes q :=
          List.count_cons_of_ne (by simpa using hc)
        rw [hends, hcount]

/-- Every comma stands behind an even number of escaped quotes. -/
def CommasEven (q : List QuotedChar) : Prop :=
  ∀ a c b, q = a ++ c :: b → ',' ∈ c.toText → Even (escapedQuotes a)

theorem skips_quotedText {inside : Bool} {q : List QuotedChar} :
    Skips ',' inside (quotedText q) ↔
      ∀ a c b, q = a ++ c :: b → ',' ∈ c.toText → endsInside inside (quotedText a) = true := by
  induction q generalizing inside with
  | nil => exact ⟨fun _ a c b h => absurd h (by simp), fun _ => skips_nil _ _⟩
  | cons d q ih =>
    rw [quotedText_cons, skips_append, QuotedChar.skips_toText (by decide), ih]
    constructor
    · rintro ⟨hd, hq⟩ a c b h hc
      cases a with
      | nil =>
        rw [List.nil_append] at h
        rw [(List.cons.inj h).1] at hd
        exact hd hc
      | cons e a =>
        rw [List.cons_append] at h
        obtain ⟨rfl, rfl⟩ := List.cons.inj h
        rw [quotedText_cons, endsInside_append]
        exact hq a c b rfl hc
    · intro h
      refine ⟨fun hd => h [] d q rfl hd, fun a c b hq hc => ?_⟩
      have hends := h (d :: a) c b (by rw [hq]; rfl) hc
      rwa [quotedText_cons, endsInside_append] at hends

theorem skips_quotedText_iff {q : List QuotedChar} :
    Skips ',' true (quotedText q) ↔ CommasEven q := by
  rw [skips_quotedText, CommasEven]
  simp only [endsInside_quotedText, Bool.not_true, Bool.if_false_right, Bool.and_true,
    decide_eq_true_eq]

/-! ## Name-addresses -/

/-- A display name in quotes, and the blanks behind it. -/
structure QuotedName where
  content : List QuotedChar
  blank : Text := [' ']
  isBlank : ∀ c ∈ blank, c = ' ' ∨ c = '\t' := by decide

/-- A name-address: the URI has neither quotes nor brackets of its own. -/
structure NameAddrValue where
  name : Option QuotedName := none
  uri : Text
  plain : ∀ c ∈ uri, c ≠ '"' ∧ c ≠ '<' ∧ c ≠ '>' := by decide

def QuotedName.toText (d : QuotedName) : Text := '"' :: (quotedText d.content ++ '"' :: d.blank)

namespace NameAddrValue

def toText (v : NameAddrValue) : Text :=
  (match v.name with
    | none => []
    | some d => d.toText) ++ '<' :: (v.uri ++ ['>'])

/-- The display name between the quotes. -/
def content (v : NameAddrValue) : List QuotedChar :=
  match v.name with
  | none => []
  | some d => d.content

/-- No comma of the value is taken for one between values: in the display name it stands behind an
even number of escaped quotes, and in the URI behind an odd one. -/
structure CommasKept (v : NameAddrValue) : Prop where
  name : CommasEven v.content
  uri : ',' ∈ v.uri → ¬Even (escapedQuotes v.content)

variable (v : NameAddrValue)

theorem not_quote_uri : '"' ∉ v.uri := fun h => (v.plain _ h).1 rfl

theorem skips_bracketed {inside : Bool} :
    Skips ',' inside ('<' :: (v.uri ++ ['>'])) ↔ (',' ∈ v.uri → inside = true) := by
  have hquote : '"' ∉ '<' :: (v.uri ++ ['>']) := by
    simpa using v.not_quote_uri
  rw [skips_of_unquoted hquote]
  simp

theorem endsInside_bracketed (inside : Bool) :
    endsInside inside ('<' :: (v.uri ++ ['>'])) = inside := by
  refine endsInside_of_not_mem ?_ inside
  simpa using v.not_quote_uri

/-- **The code takes the value for one value** if and only if its commas are kept. -/
theorem skips_toText : Skips ',' false v.toText ↔ v.CommasKept := by
  have hkept : v.CommasKept ↔
      CommasEven v.content ∧ (',' ∈ v.uri → ¬Even (escapedQuotes v.content)) :=
    ⟨fun h => ⟨h.name, h.uri⟩, fun h => ⟨h.1, h.2⟩⟩
  rw [hkept, toText, content]
  cases hname : v.name with
  | none =>
    dsimp only
    rw [List.nil_append, v.skips_bracketed]
    refine ⟨fun h => ⟨fun a c b hnil => absurd hnil (by simp), fun hc => ?_⟩, fun h hc => ?_⟩
    · exact absurd (h hc) (by decide)
    · exact absurd Even.zero (h.2 hc)
  | some d =>
    have hblank : '"' ∉ d.blank ∧ ',' ∉ d.blank := by
      constructor <;> intro h <;> rcases d.isBlank _ h with h | h <;> exact absurd h (by decide)
    dsimp only
    rw [QuotedName.toText, List.cons_append, List.append_assoc, List.cons_append, skips_cons,
      if_pos rfl, Bool.not_false, skips_append, skips_quotedText_iff, endsInside_quotedText, skips_cons,
      if_pos rfl, skips_append, v.skips_bracketed, endsInside_of_not_mem hblank.1]
    have hskips (inside : Bool) : Skips ',' inside d.blank := skips_of_not_mem hblank.2 inside
    by_cases heven : Even (escapedQuotes d.content) <;> simp [heven, hskips]

/-- **A quote is open behind the value** if and only if it has an odd number of escaped quotes. -/
theorem endsInside_toText :
    endsInside false v.toText = false ↔ Even (escapedQuotes v.content) := by
  rw [toText, content]
  cases hname : v.name with
  | none =>
    dsimp only
    rw [List.nil_append, v.endsInside_bracketed]
    exact ⟨fun _ => Even.zero, fun _ => rfl⟩
  | some d =>
    have hblank : '"' ∉ d.blank := by
      intro h
      rcases d.isBlank _ h with h | h <;> exact absurd h (by decide)
    dsimp only
    rw [QuotedName.toText, List.cons_append, List.append_assoc, List.cons_append, endsInside_cons,
      if_pos rfl, endsInside_append, endsInside_quotedText, endsInside_cons, if_pos rfl,
      endsInside_append, endsInside_of_not_mem hblank, v.endsInside_bracketed]
    by_cases heven : Even (escapedQuotes d.content) <;> simp [heven]

/-- The value begins and ends with a visible character. -/
theorem head_toText : ∃ c s, v.toText = c :: s ∧ ¬c ≤ ' ' := by
  rw [toText]
  cases v.name with
  | none => exact ⟨'<', _, rfl, by decide⟩
  | some d => exact ⟨'"', _, rfl, by decide⟩

theorem trim_toText : trim v.toText = v.toText := by
  obtain ⟨c, s, heq, hc⟩ := v.head_toText
  have hlast : v.toText.getLast? = some '>' := by
    rw [toText, ← List.cons_append, ← List.append_assoc, List.getLast?_concat]
  refine trim_eq_self (fun d hd => ?_) fun d hd => ?_
  · rw [heq] at hd
    rw [← Option.some.inj hd]
    exact hc
  · rw [hlast] at hd
    rw [← Option.some.inj hd]
    decide

end NameAddrValue

/-! ## Joining and dividing -/

section Parts

variable {inside : Bool} {s : Text}

/-- A text without a comma belongs to the first part. -/
theorem commaParts_append_of_skips (h : Skips ',' inside s) (t : Text) :
    ∃ p ps, commaParts (endsInside inside s) t = p :: ps ∧
      commaParts inside (s ++ t) = (s ++ p) :: ps := by
  induction s generalizing inside with
  | nil =>
    obtain ⟨p, ps, heq, -, -⟩ := skips_commaParts inside t
    exact ⟨p, ps, heq, heq⟩
  | cons c s ih =>
    obtain ⟨hc, hs⟩ := skips_cons.mp h
    obtain ⟨p, ps, heq, hcons⟩ := ih hs
    refine ⟨p, ps, heq, ?_⟩
    rw [List.cons_append, commaParts, if_neg hc, hcons]
    rfl

/-- Where a quote is open, the comma behind the text belongs to the first part, too. -/
theorem commaParts_open (h : Skips ',' inside s) (hopen : endsInside inside s = true) (t : Text) :
    ∃ p ps, commaParts inside (s ++ ',' :: t) = (s ++ ',' :: p) :: ps := by
  obtain ⟨q, qs, heq, happend⟩ := commaParts_append_of_skips h (',' :: t)
  have hquoted : ¬(',' = ',' ∧ true = false) := fun hcomma => Bool.noConfusion hcomma.2
  obtain ⟨p, ps, -, hcons⟩ := commaParts_cons hquoted t
  rw [hopen, hcons] at heq
  obtain ⟨rfl, rfl⟩ := List.cons.inj heq
  exact ⟨p, ps, happend⟩

/-- What stands behind a visible character is trimmed at the right only. -/
theorem trim_append_cons {a : Text} {c : Char} (ha : ∃ d s, a = d :: s ∧ ¬d ≤ ' ') (hc : ¬c ≤ ' ')
    (b : Text) : ∃ x, trim (a ++ c :: b) = a ++ c :: x := by
  obtain ⟨d, s, rfl, hd⟩ := ha
  have hreverse : (d :: s ++ c :: b).reverse = b.reverse ++ c :: (d :: s).reverse := by simp
  refine ⟨(b.reverse.dropWhile (· ≤ ' ')).reverse, ?_⟩
  rw [trim, List.cons_append, List.dropWhile_cons_of_neg (by simpa using hd), ← List.cons_append,
    hreverse, List.dropWhile_append]
  split
  · rename_i hnil
    rw [List.isEmpty_iff.mp hnil, List.dropWhile_cons_of_neg (by simpa using hc)]
    simp
  · simp

end Parts

namespace MultipleHeader

/-- `MultipleHeader(Header)`. -/
def ofHeader (hd : Header) : MultipleHeader :=
  ⟨hd.name, (commaParts false hd.value).map trim, true⟩

end MultipleHeader

/-- The header line with these values. -/
def lineOf (hname : Text) (vs : List NameAddrValue) : Header :=
  MultipleHeader.toHeader ⟨hname, vs.map NameAddrValue.toText, true⟩

/-- The values that are joined are found again, in one header and in any groups. -/
structure Rejoined (hname : Text) (vs : List NameAddrValue) : Prop where
  joined : (MultipleHeader.ofHeader (lineOf hname vs)).values = vs.map NameAddrValue.toText
  grouped : ∀ g gs, (g :: gs).flatten = vs → [] ∉ g :: gs →
    (MultipleHeader.ofHeaders (lineOf hname g) (gs.map (lineOf hname))).values =
      vs.map NameAddrValue.toText

section Rejoined

variable {hname : Text} {vs : List NameAddrValue}

theorem mem_dropLast_flatten {α : Type*} {gs : List (List α)} {g : List α} {v : α} (hg : g ∈ gs)
    (hv : v ∈ g.dropLast) (hne : [] ∉ gs) : v ∈ gs.flatten.dropLast := by
  induction gs with
  | nil => exact absurd hg List.not_mem_nil
  | cons g' gs ih =>
    rw [List.mem_cons, not_or] at hne
    rw [List.flatten_cons]
    rcases List.mem_cons.mp hg with rfl | hg
    · by_cases hnil : gs.flatten = []
      · rw [hnil, List.append_nil]
        exact hv
      · rw [List.dropLast_append_of_ne_nil hnil]
        exact List.mem_append_left _ (List.mem_of_mem_dropLast hv)
    · have hmem := ih hg hne.2
      have hnil : gs.flatten ≠ [] := fun hnil => absurd hmem (by simp [hnil])
      rw [List.dropLast_append_of_ne_nil hnil]
      exact List.mem_append_right _ hmem

/-- When the values come out of one header, no quote is open behind any of them but the last. -/
theorem closed_of_joined (hskips : ∀ v ∈ vs, Skips ',' false v.toText)
    (h : (commaParts false (MultipleHeader.joined (vs.map NameAddrValue.toText))).map trim =
      vs.map NameAddrValue.toText) :
    ∀ v ∈ vs.dropLast, endsInside false v.toText = false := by
  induction vs with
  | nil => exact fun v hv => absurd hv List.not_mem_nil
  | cons v vs ih =>
    obtain ⟨hv, hvs⟩ := List.forall_mem_cons.mp hskips
    cases vs with
    | nil => exact fun w hw => absurd hw List.not_mem_nil
    | cons w vs =>
      rw [List.map_cons, List.map_cons, MultipleHeader.joined_cons_cons] at h
      rw [List.dropLast_cons_cons]
      cases hends : endsInside false v.toText with
      | true =>
        -- the first value would go on with the comma
        obtain ⟨p, ps, hparts⟩ :=
          commaParts_open hv hends (' ' :: MultipleHeader.joined (w.toText :: vs.map _))
        obtain ⟨x, hx⟩ := trim_append_cons v.head_toText (by decide : ¬(',' ≤ ' ')) p
        rw [hparts, List.map_cons, hx] at h
        have hlength := congrArg List.length (List.cons.inj h).1
        rw [List.length_append, List.length_cons] at hlength
        omega
      | false =>
        rw [commaParts_append hv hends, List.map_cons, map_trim_space] at h
        refine List.forall_mem_cons.mpr ⟨hends, ih hvs ?_⟩
        rw [List.map_cons]
        exact (List.cons.inj h).2

/-- In values that are found again no comma is taken for one between values. -/
theorem Rejoined.skips (h : Rejoined hname vs) : ∀ v ∈ vs, Skips ',' false v.toText := by
  intro v hv
  have hmem := List.mem_map_of_mem (f := NameAddrValue.toText) hv
  rw [← h.joined] at hmem
  obtain ⟨p, hp, heq⟩ := List.mem_map.mp hmem
  obtain ⟨q, qs, hparts, hq, hqs⟩ := skips_commaParts false (lineOf hname vs).value
  rw [hparts] at hp
  rw [← heq]
  exact skips_trim (List.forall_mem_cons.mpr ⟨hq, hqs⟩ p hp)

/-- The values of a line. -/
theorem values_lineOf {l : List NameAddrValue} (hne : l ≠ [])
    (hskips : ∀ v ∈ l, Skips ',' false v.toText)
    (hclosed : ∀ v ∈ l.dropLast, endsInside false v.toText = false) :
    (lineOf hname l).values = l.map NameAddrValue.toText := by
  refine MultipleHeader.values_joined ?_ (List.forall_mem_map.mpr hskips) ?_
    (List.forall_mem_map.mpr fun v _ => v.trim_toText) _
  · exact fun hnil => hne (List.map_eq_nil_iff.mp hnil)
  · rw [← List.map_dropLast]
    exact List.forall_mem_map.mpr hclosed

theorem rejoined_of (hne : vs ≠ []) (hskips : ∀ v ∈ vs, Skips ',' false v.toText)
    (hclosed : ∀ v ∈ vs.dropLast, endsInside false v.toText = false) : Rejoined hname vs := by
  constructor
  · have hparts := MultipleHeader.map_trim_joined (by simpa using hne)
      (List.forall_mem_map.mpr hskips)
      (by rw [← List.map_dropLast]; exact List.forall_mem_map.mpr hclosed)
    have htrim : ∀ t ∈ vs.map NameAddrValue.toText, trim t = t :=
      List.forall_mem_map.mpr fun v _ => v.trim_toText
    exact hparts.trans ((List.map_congr_left htrim).trans (List.map_id _))
  · intro g gs hflatten hgroups
    have hvalues : ∀ l ∈ g :: gs, (lineOf hname l).values = l.map NameAddrValue.toText := by
      intro l hl
      refine values_lineOf ?_ (fun v hv => hskips v ?_) fun v hv => hclosed v ?_
      · rintro rfl
        exact hgroups hl
      · rw [← hflatten]
        exact List.mem_flatten_of_mem hl hv
      · rw [← hflatten]
        exact mem_dropLast_flatten hl hv hgroups
    show (lineOf hname g :: gs.map (lineOf hname)).flatMap Header.values = _
    rw [← List.map_cons, List.flatMap_map, List.flatMap_congr hvalues, ← hflatten,
      List.map_flatten, List.flatMap_def]

/-- **The values are found again if and only if** there are any, no comma of a value is taken for one
between values, and no value but the last has an odd number of escaped quotes. -/
theorem rejoined_iff (hname : Text) (vs : List NameAddrValue) :
    Rejoined hname vs ↔ vs ≠ [] ∧ (∀ v ∈ vs, v.CommasKept) ∧
      ∀ v ∈ vs.dropLast, Even (escapedQuotes v.content) := by
  constructor
  · intro h
    refine ⟨?_, fun v hv => v.skips_toText.mp (h.skips v hv), fun v hv => ?_⟩
    · rintro rfl
      exact List.cons_ne_nil _ _ h.joined
    · exact v.endsInside_toText.mp (closed_of_joined h.skips h.joined v hv)
  · rintro ⟨hne, hkept, heven⟩
    exact rejoined_of hne (fun v hv => v.skips_toText.mpr (hkept v hv))
      fun v hv => v.endsInside_toText.mpr (heven v hv)

/-- **A comma in brackets divides the URI, and behind an escaped quote two values are one.** -/
theorem not_rejoined :
    ¬Rejoined SipHeaders.route [{ uri := "sip:a,b@h".toList }] ∧
      ¬Rejoined SipHeaders.route
        [{ name := some { content := [.pair '"'] }, uri := "sip:a@h".toList },
          { uri := "sip:b@h".toList }] :=
  ⟨fun h => absurd h.joined (by decide), fun h => absurd h.joined (by decide)⟩

end Rejoined

end SoftPhone
