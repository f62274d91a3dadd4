import SoftPhone.Text.NameAddress
import SoftPhone.Text.Segments

/-!
# A name-address that was read and is written again

`EndPointHeader.getNameAddress` reads a display name and a URI; `new EndPointHeader` writes them
with quotes and brackets, and the tag behind.  When the name leaves no quote open and the URI has
neither separators nor a parameter tag or expires, the same name-address and the same tag are
read from what was written (`getNameAddress_ofNameAddress`, `getTag_ofNameAddress`).
-/

namespace SoftPhone

open SipParser

namespace SipParser

/-! ## Going to one of several strings -/

/-- None of the strings begins in the text `a`, with `b` behind it. -/
def Free (ss : List Text) (a b : Text) : Prop := ∀ y, y <:+ a → y ≠ [] → ∀ t ∈ ss, ¬t <+: y ++ b

section SpanTo

variable {ss : List Text}

theorem any_isPrefixOf {s : Text} : ss.any (·.isPrefixOf s) = true ↔ ∃ t ∈ ss, t <+: s := by
  rw [List.any_eq_true]
  simp only [List.isPrefixOf_iff_prefix]

theorem Free.cons {c : Char} {a b : Text} (h : Free ss (c :: a) b) : Free ss a b :=
  fun y hy => h y (hy.trans (List.suffix_cons c a))

/-- **What is skipped, and what is left.** -/
theorem spanTo_eq (ss : List Text) (s : Text) :
    (spanTo ss s).1 ++ (spanTo ss s).2 = s ∧ Free ss (spanTo ss s).1 (spanTo ss s).2 ∧
      ((spanTo ss s).2 = [] ∨ ∃ t ∈ ss, t <+: (spanTo ss s).2) := by
  induction s with
  | nil =>
    refine ⟨rfl, ?_, .inl rfl⟩
    intro y hy hne
    exact absurd (List.suffix_nil.mp hy) hne
  | cons c s ih =>
    by_cases hany : ss.any (·.isPrefixOf (c :: s)) = true
    · rw [spanTo, if_pos hany]
      refine ⟨rfl, ?_, .inr (any_isPrefixOf.mp hany)⟩
      intro y hy hne
      exact absurd (List.suffix_nil.mp hy) hne
    · rw [spanTo, if_neg hany]
      obtain ⟨happend, hfree, hnext⟩ := ih
      refine ⟨congrArg (c :: ·) happend, ?_, hnext⟩
      intro y hy hne t ht hpre
      rcases List.suffix_cons_iff.mp hy with rfl | hy
      · refine hany (any_isPrefixOf.mpr ⟨t, ht, ?_⟩)
        rwa [List.cons_append, happend] at hpre
      · exact hfree y hy hne t ht hpre

/-- Where a text is divided, when the parts are known. -/
theorem spanTo_append {a b : Text} (hfree : Free ss a b) (hb : ∃ t ∈ ss, t <+: b) (hne : b ≠ []) :
    spanTo ss (a ++ b) = (a, b) := by
  induction a with
  | nil =>
    cases b with
    | nil => exact absurd rfl hne
    | cons c b => rw [List.nil_append, spanTo, if_pos (any_isPrefixOf.mpr hb)]
  | cons c a ih =>
    have hnot : ¬ss.any (·.isPrefixOf (c :: (a ++ b))) = true := by
      intro hany
      obtain ⟨t, ht, hpre⟩ := any_isPrefixOf.mp hany
      exact hfree (c :: a) List.suffix_rfl (List.cons_ne_nil _ _) t ht hpre
    rw [List.cons_append, spanTo, if_neg hnot, ih hfree.cons]

/-- A string that is there is found. -/
theorem spanTo_ne_nil {t a b : Text} (ht : t ∈ ss) (hpre : t <+: b) (hne : t ≠ []) :
    (spanTo ss (a ++ b)).2 ≠ [] := by
  intro hnil
  obtain ⟨happend, hfree, -⟩ := spanTo_eq ss (a ++ b)
  rw [hnil, List.append_nil] at happend
  rw [happend, hnil] at hfree
  have hb : b ≠ [] := fun hb => hne (List.prefix_nil.mp (hb ▸ hpre))
  refine hfree b (List.suffix_append a b) hb t ht ?_
  rwa [List.append_nil]

end SpanTo

end SipParser

/-! ## What is read -/

namespace NameAddressText

/-- The URI begins with a scheme, and the display name has no bracket in front of one. -/
structure WasRead (naddr : NameAddressText) : Prop where
  scheme : ∃ t ∈ uriSchemes, t <+: naddr.uri
  ne_nil : naddr.name ≠ some []
  free : ∀ name ∈ naddr.name, Free naddrUriSchemes name []

end NameAddressText

namespace SipParser

theorem trim_part (s : Text) : trim s <:+: s := by
  have hsuffix := List.dropWhile_suffix (l := s) (· ≤ ' ')
  have hpre : trim s <+: s.dropWhile (· ≤ ' ') := by
    rw [← List.reverse_suffix]
    unfold trim
    rw [List.reverse_reverse]
    exact List.dropWhile_suffix _
  exact hpre.isInfix.trans hsuffix.isInfix

/-- The display name is a part of the text. -/
theorem displayName_part {text : Text} {name : Option Text} (h : displayName text = some name) :
    name ≠ some [] ∧ ∀ n ∈ name, n <:+: text := by
  unfold displayName at h
  obtain ⟨u, hu, h⟩ := Option.map_eq_some_iff.mp h
  have hpart : u <:+: text := by
    refine List.IsInfix.trans ?_ (trim_part text)
    split at hu
    · rw [← Option.some.inj hu]
      exact List.nil_infix
    · rename_i c s heq
      rw [heq]
      split at hu
      · split at hu
        · exact absurd hu (by simp)
        · rw [← Option.some.inj hu]
          exact (List.dropLast_prefix s).isInfix.trans (List.suffix_cons c s).isInfix
      · obtain rfl := Option.some.inj hu
        exact List.infix_rfl
  by_cases hnil : u = []
  · rw [if_pos hnil] at h
    rw [← h]
    exact ⟨nofun, fun n hn => absurd hn (by simp)⟩
  · rw [if_neg hnil] at h
    rw [← h]
    refine ⟨fun heq => hnil (Option.some.inj heq), fun n hn => ?_⟩
    rw [← Option.some.inj hn]
    exact hpart

/-- No scheme has a separator in it. -/
theorem not_separator_of_scheme {t : Text} (ht : t ∈ uriSchemes) :
    ∀ c ∈ t, isUriSeparator c = false ∧ c ≠ ';' := by
  revert t
  decide

theorem prefix_takeWhile {p : Char → Bool} {t s : Text} (ht : t <+: s) (hp : ∀ c ∈ t, p c = true) :
    t <+: s.takeWhile p := by
  obtain ⟨u, rfl⟩ := ht
  rw [List.takeWhile_append_of_pos hp]
  exact List.prefix_append _ _

/-- A URI begins with a scheme. -/
theorem scheme_of_getURI {s uri : Text} (h : getURI s = some uri) : ∃ t ∈ uriSchemes, t <+: uri := by
  unfold getURI at h
  obtain ⟨-, -, hnext⟩ := spanTo_eq uriSchemes s
  cases hs : (spanTo uriSchemes s).2 with
  | nil =>
    rw [hs] at h
    exact absurd h (by simp)
  | cons c rest =>
    rw [hs] at h hnext
    obtain ⟨t, ht, hpre⟩ := hnext.resolve_left (List.cons_ne_nil _ _)
    rw [← Option.some.inj h]
    refine ⟨t, ht, prefix_takeWhile hpre fun d hd => ?_⟩
    rw [(not_separator_of_scheme ht d hd).1]
    rfl

/-- **A URI is read**, where no scheme stands before it. -/
theorem getURI_append {a uri rest : Text} (hscheme : ∃ t ∈ uriSchemes, t <+: uri)
    (huri : ∀ c ∈ uri, isUriSeparator c = false)
    (hrest : ∀ c ∈ rest.head?, isUriSeparator c = true) (hfree : Free uriSchemes a (uri ++ rest)) :
    getURI (a ++ (uri ++ rest)) = some uri := by
  obtain ⟨t, ht, hpre⟩ := hscheme
  have hne : uri ++ rest ≠ [] := by
    have hall : ∀ t ∈ uriSchemes, t ≠ [] := by decide
    intro hnil
    rw [(List.append_eq_nil_iff.mp hnil).1] at hpre
    exact hall t ht (List.prefix_nil.mp hpre)
  have hspan : spanTo uriSchemes (a ++ (uri ++ rest)) = (a, uri ++ rest) :=
    spanTo_append hfree ⟨t, ht, hpre.trans (List.prefix_append _ _)⟩ hne
  have htake : (uri ++ rest).takeWhile (!isUriSeparator ·) = uri :=
    (takeWhile_run (fun c hc => by rw [huri c hc]; rfl) (fun c hc => by rw [hrest c hc]; rfl)).1
  unfold getURI
  rw [hspan]
  cases hs : uri ++ rest with
  | nil => exact absurd hs hne
  | cons c s =>
    rw [hs] at htake
    exact congrArg some htake

theorem scheme_sipURI (uri : Text) : ∃ t ∈ uriSchemes, t <+: sipURI uri := by
  unfold sipURI
  split
  · rename_i h
    rcases h with h | h
    · exact ⟨"sips:".toList, by decide, List.isPrefixOf_iff_prefix.mp h⟩
    · exact ⟨"sip:".toList, by decide, List.isPrefixOf_iff_prefix.mp h⟩
  · exact ⟨"sip:".toList, by decide, List.prefix_append _ _⟩

/-- A scheme behind a bracket. -/
theorem bracket_of_naddr {t : Text} (ht : t ∈ naddrUriSchemes) :
    ∃ t' ∈ uriSchemes, t = '<' :: t' ∧ t' ≠ [] := by
  revert t
  decide

/-- **What `getNameAddress` reads.** -/
theorem wasRead_getNameAddress {s : Text} {naddr : NameAddressText}
    (h : getNameAddress s = some naddr) : naddr.WasRead := by
  unfold getNameAddress at h
  obtain ⟨happend, hfree, hnext⟩ := spanTo_eq naddrUriSchemes s
  by_cases hnil : (spanTo naddrUriSchemes s).2 = []
  · rw [if_pos hnil] at h
    rw [← Option.some.inj h]
    refine ⟨?_, nofun, nofun⟩
    show ∃ t ∈ uriSchemes, t <+: (getURI s).getD (sipURI (getString s).1)
    cases huri : getURI s with
    | none => exact scheme_sipURI _
    | some uri => exact scheme_of_getURI huri
  · rw [if_neg hnil] at h
    obtain ⟨name, hname, h⟩ := Option.map_eq_some_iff.mp h
    obtain ⟨t, ht, hpre⟩ := hnext.resolve_left hnil
    obtain ⟨hne, hpart⟩ := displayName_part hname
    rw [← h]
    refine ⟨?_, hne, ?_⟩
    · obtain ⟨t', ht', rfl, hne'⟩ := bracket_of_naddr ht
      obtain ⟨u, hu⟩ := hpre
      have hfound : (spanTo uriSchemes (spanTo naddrUriSchemes s).2).2 ≠ [] := by
        rw [← hu]
        exact spanTo_ne_nil (a := ['<']) ht' (List.prefix_append t' u) hne'
      show ∃ t ∈ uriSchemes, t <+: (getURI (spanTo naddrUriSchemes s).2).getD []
      cases huri : getURI (spanTo naddrUriSchemes s).2 with
      | some uri => exact scheme_of_getURI huri
      | none =>
        unfold getURI at huri
        split at huri
        · rename_i heq
          exact absurd heq hfound
        · exact absurd huri (by simp)
    · intro n hn y hy hne t ht hpre
      obtain ⟨a, b, hab⟩ := hpart n hn
      refine hfree (y ++ b) ?_ (by simp [hne]) t ht ?_
      · rw [← hab]
        obtain ⟨x, rfl⟩ := hy
        exact ⟨a ++ x, by simp⟩
      · rw [List.append_nil] at hpre
        rw [List.append_assoc]
        exact hpre.trans (List.prefix_append _ _)

end SipParser

namespace EndPointHeader

theorem cutParameter_front (pname : Text) (n : ℕ) (top s : Text) :
    top <+: ParametricHeader.cutParameter pname n top s := by
  induction n generalizing top s with
  | zero => exact List.prefix_append _ _
  | succ n ih =>
    rw [ParametricHeader.cutParameter]
    split
    · exact List.prefix_rfl
    · dsimp only
      split
      · exact List.prefix_append _ _
      · exact (List.prefix_append _ _).trans (ih _ _)

/-- The scheme of a URI stays. -/
theorem wasRead_withoutParameter {naddr : NameAddressText} (h : naddr.WasRead) (param : Text) :
    (withoutParameter param naddr).WasRead := by
  unfold withoutParameter
  split
  · refine ⟨?_, h.ne_nil, h.free⟩
    obtain ⟨t, ht, hpre⟩ := h.scheme
    refine ⟨t, ht, List.IsPrefix.trans ?_ (cutParameter_front _ _ _ _)⟩
    refine prefix_takeWhile hpre fun c hc => ?_
    rw [bne_iff_ne]
    exact (not_separator_of_scheme ht c hc).2
  · exact h

theorem wasRead_of_getNameAddress {value : Text} {naddr : NameAddressText}
    (h : getNameAddress value = some naddr) : naddr.WasRead := by
  obtain ⟨naddr', hread, rfl⟩ := Option.map_eq_some_iff.mp h
  exact wasRead_withoutParameter (wasRead_withoutParameter (wasRead_getNameAddress hread) _) _

/-! ## What is written is read again -/

/-- A name-address and a tag that can be written: no quote of the display name is open, the URI
has no separator and no parameter tag or expires, and the tag is a token. -/
structure Rewritable (naddr : NameAddressText) (tag : Option Text) : Prop where
  name : ∀ name ∈ naddr.name,
    Skips '>' true (name ++ ['"']) ∧ endsInside true (name ++ ['"']) = false
  uri : ∀ c ∈ naddr.uri, isUriSeparator c = false ∧ c ≠ '"'
  parameters : GenericURI.hasParameter tagParam naddr.uri = false ∧
    GenericURI.hasParameter expiresParam naddr.uri = false
  tag : ∀ t ∈ tag, t ≠ [] ∧ ∀ c ∈ t, isParamSeparator c = false ∧ c ≠ '"'

instance (naddr : NameAddressText) (tag : Option Text) : Decidable (Rewritable naddr tag) :=
  decidable_of_iff ((∀ name ∈ naddr.name,
      Skips '>' true (name ++ ['"']) ∧ endsInside true (name ++ ['"']) = false) ∧
    (∀ c ∈ naddr.uri, isUriSeparator c = false ∧ c ≠ '"') ∧
    (GenericURI.hasParameter tagParam naddr.uri = false ∧
      GenericURI.hasParameter expiresParam naddr.uri = false) ∧
    ∀ t ∈ tag, t ≠ [] ∧ ∀ c ∈ t, isParamSeparator c = false ∧ c ≠ '"')
    ⟨fun h => ⟨h.1, h.2.1, h.2.2.1, h.2.2.2⟩, fun h => ⟨h.name, h.uri, h.parameters, h.tag⟩⟩

/-- What stands in front of the bracket. -/
def opening (naddr : NameAddressText) : Text :=
  match naddr.name with
  | none => []
  | some name => '"' :: (name ++ ['"', ' '])

theorem toText_eq (naddr : NameAddressText) :
    naddr.toText = opening naddr ++ ('<' :: (naddr.uri ++ ['>'])) := by
  unfold NameAddressText.toText opening
  cases naddr.name <;> simp

theorem prefix_of_not_mem {c : Char} {t a b : Text} (h : t <+: a ++ c :: b) (hc : c ∉ t) :
    t <+: a := by
  rcases List.prefix_or_prefix_of_prefix h (List.prefix_append a (c :: b)) with ha | ⟨z, rfl⟩
  · exact ha
  · cases z with
    | nil => rw [List.append_nil]
    | cons d z =>
      rw [List.prefix_append_right_inj, List.cons_prefix_cons] at h
      refine absurd (List.mem_append_right a ?_) hc
      rw [h.1]
      exact List.mem_cons_self ..

section Rewritable

variable {naddr : NameAddressText} {tag : Option Text}

/-- No bracket in front of a scheme is in the display name. -/
theorem free_opening (hread : naddr.WasRead) (b : Text) :
    Free naddrUriSchemes (opening naddr) b := by
  intro y hy hne t ht hpre
  obtain ⟨t', -, rfl, -⟩ := bracket_of_naddr ht
  have hquote : '"' ∉ '<' :: t' := by
    have hall : ∀ t ∈ naddrUriSchemes, '"' ∉ t := by decide
    exact hall _ ht
  have hhead {d : Char} (hd : d ≠ '<') {u : Text} : ¬('<' :: t' <+: d :: u) := by
    rw [List.cons_prefix_cons]
    exact fun h => hd h.1.symm
  unfold opening at hy
  cases hname : naddr.name with
  | none =>
    rw [hname] at hy
    exact hne (List.suffix_nil.mp hy)
  | some name =>
    rw [hname] at hy
    rcases List.suffix_cons_iff.mp hy with rfl | hy
    · exact hhead (by decide) hpre
    · rcases List.suffix_or_suffix_of_suffix hy (List.suffix_append name ['"', ' ']) with
        hy | ⟨y', rfl⟩
      · have hcases : y = ['"', ' '] ∨ y = [' '] := by
          rcases List.suffix_cons_iff.mp hy with rfl | hy
          · exact .inl rfl
          · rcases List.suffix_cons_iff.mp hy with rfl | hy
            · exact .inr rfl
            · exact absurd (List.suffix_nil.mp hy) hne
        rcases hcases with rfl | rfl
        · exact hhead (by decide) hpre
        · exact hhead (by decide) hpre
      · obtain ⟨x, hx⟩ := hy
        rw [← List.append_assoc, List.append_left_inj] at hx
        rw [List.append_assoc] at hpre
        have hy' := prefix_of_not_mem hpre hquote
        refine hread.free name hname y' ⟨x, hx⟩ ?_ _ ht ?_
        · rintro rfl
          exact List.cons_ne_nil _ _ (List.prefix_nil.mp hy')
        · rwa [List.append_nil]

theorem displayName_opening (hread : naddr.WasRead) :
    displayName (opening naddr) = some naddr.name := by
  unfold opening
  cases hname : naddr.name with
  | none => rfl
  | some name =>
    have htrim : trim ('"' :: (name ++ ['"', ' '])) = '"' :: (name ++ ['"']) := by
      unfold trim
      rw [List.dropWhile_cons_of_neg (by decide)]
      have hreverse : ('"' :: (name ++ ['"', ' '])).reverse = ' ' :: '"' :: (name.reverse ++ ['"']) := by
        simp
      rw [hreverse, List.dropWhile_cons_of_pos (by decide), List.dropWhile_cons_of_neg (by decide)]
      simp
    have hne : name ≠ [] := fun hnil => hread.ne_nil (by rw [hname, hnil])
    have hlast : ('"' :: (name ++ ['"'])).getLast? = some '"' := by
      rw [← List.cons_append, List.getLast?_concat]
    unfold displayName
    rw [htrim]
    dsimp only
    rw [if_pos ⟨rfl, hlast⟩, if_neg (by simp), List.dropLast_concat]
    exact congrArg some (if_neg hne)

/-- **The parser reads the name-address that was written**, whatever stands behind it. -/
theorem parse_toText (hread : naddr.WasRead) (hsep : ∀ c ∈ naddr.uri, isUriSeparator c = false)
    (rest : Text) : SipParser.getNameAddress (naddr.toText ++ rest) = some naddr := by
  obtain ⟨t, ht, hpre⟩ := hread.scheme
  have hbracket : ∃ t ∈ naddrUriSchemes, t <+: '<' :: (naddr.uri ++ '>' :: rest) := by
    have hall : ∀ t ∈ uriSchemes, '<' :: t ∈ naddrUriSchemes := by decide
    exact ⟨'<' :: t, hall t ht, List.cons_prefix_cons.mpr
      ⟨rfl, hpre.trans (List.prefix_append _ _)⟩⟩
  have hspan : spanTo naddrUriSchemes (naddr.toText ++ rest) =
      (opening naddr, '<' :: (naddr.uri ++ '>' :: rest)) := by
    rw [toText_eq, List.append_assoc]
    rw [List.cons_append, List.append_assoc]
    exact spanTo_append (free_opening hread _) hbracket (List.cons_ne_nil _ _)
  have huri : getURI ('<' :: (naddr.uri ++ '>' :: rest)) = some naddr.uri := by
    have hone : Free uriSchemes ['<'] (naddr.uri ++ '>' :: rest) := by
      intro y hy hne t ht hp
      have hhead : ∀ t ∈ uriSchemes, t.head? ≠ some '<' ∧ t ≠ [] := by decide
      rcases List.suffix_cons_iff.mp hy with rfl | hy
      · obtain ⟨hnot, hnil⟩ := hhead t ht
        cases t with
        | nil => exact hnil rfl
        | cons d t => exact hnot (congrArg some (List.cons_prefix_cons.mp hp).1)
      · exact hne (List.suffix_nil.mp hy)
    exact getURI_append (a := ['<']) hread.scheme hsep
      (fun c hc => by rw [← Option.some.inj hc]; rfl) hone
  unfold SipParser.getNameAddress
  rw [hspan]
  dsimp only
  rw [if_neg (List.cons_ne_nil _ _), displayName_opening hread, huri]
  rfl

/-- What stands behind the name-address does not matter. -/
theorem getNameAddress_toText (hread : naddr.WasRead) (h : Rewritable naddr tag) (rest : Text) :
    getNameAddress (naddr.toText ++ rest) = some naddr := by
  have hplain : withoutParameters naddr = naddr := by
    unfold withoutParameters withoutParameter
    rw [h.parameters.1, if_neg Bool.false_ne_true, h.parameters.2, if_neg Bool.false_ne_true]
  rw [getNameAddress, parse_toText hread (fun c hc => (h.uri c hc).1)]
  exact congrArg some hplain

/-- The bracket that closes the URI is found. -/
theorem span_toText (h : Rewritable naddr tag) (rest : Text) :
    spanSkippingQuoted '>' false (naddr.toText ++ rest) =
      (opening naddr ++ '<' :: naddr.uri, '>' :: rest) := by
  have hopening : Skips '>' false (opening naddr) ∧ endsInside false (opening naddr) = false := by
    unfold opening
    cases hname : naddr.name with
    | none => exact ⟨skips_nil _ _, rfl⟩
    | some name =>
      obtain ⟨hskips, hends⟩ := h.name name hname
      have hsplit : name ++ ['"', ' '] = (name ++ ['"']) ++ [' '] := by simp
      dsimp only
      rw [skips_cons, endsInside_cons, hsplit, if_pos rfl]
      refine ⟨⟨by decide, skips_append.mpr ⟨hskips, ?_⟩⟩, ?_⟩
      · exact skips_of_not_mem (by decide) _
      · show endsInside true ((name ++ ['"']) ++ [' ']) = false
        rw [endsInside_append, hends]
        rfl
  have hnot {c : Char} (hc : isUriSeparator c = true ∨ c = '"') (hbracket : c ≠ '<') :
      c ∉ '<' :: naddr.uri := by
    rw [List.mem_cons, not_or]
    refine ⟨hbracket, fun hmem => ?_⟩
    obtain ⟨hsep, hquote⟩ := h.uri c hmem
    rcases hc with hc | hc
    · rw [hsep] at hc
      exact Bool.noConfusion hc
    · exact hquote hc
  have hquote : '"' ∉ '<' :: naddr.uri := hnot (.inr rfl) (by decide)
  have hclose : '>' ∉ '<' :: naddr.uri := hnot (.inl (by decide)) (by decide)
  have hsplit : naddr.toText ++ rest = (opening naddr ++ '<' :: naddr.uri) ++ '>' :: rest := by
    rw [toText_eq]
    simp
  rw [hsplit]
  refine span_append (skips_append.mpr ⟨hopening.1, ?_⟩) (.inr ⟨?_, rest, rfl⟩)
  · exact skips_of_not_mem hclose _
  · rw [endsInside_append, endsInside_of_not_mem hquote]
    exact hopening.2

/-- The parameters stand behind the bracket. -/
theorem firstSemi_toText (h : Rewritable naddr tag) {rest : Text}
    (hrest : rest = [] ∨ ∃ u, rest = ';' :: u) :
    NameAddressHeader.firstSemi (naddr.toText ++ rest) = (naddr.toText, rest) := by
  have hnext : spanSkippingQuoted ';' false ('>' :: rest) = (['>'], rest) := by
    refine span_append (s := ['>']) (by decide) ?_
    rcases hrest with rfl | ⟨u, rfl⟩
    · exact .inl rfl
    · exact .inr ⟨rfl, u, rfl⟩
  unfold NameAddressHeader.firstSemi
  rw [span_toText h]
  dsimp only
  rw [if_neg (List.cons_ne_nil _ _), hnext, toText_eq]
  simp

theorem firstSemi_plain (h : Rewritable naddr tag) :
    NameAddressHeader.firstSemi naddr.toText = (naddr.toText, []) := by
  have hnil := firstSemi_toText h (.inl rfl)
  rwa [List.append_nil] at hnil

/-- The tag is written behind the name-address. -/
theorem setTag_toText (h : Rewritable naddr tag) (t : Text) :
    setTag t naddr.toText = naddr.toText ++ ';' :: (tagParam ++ '=' :: t) := by
  have hnot : ParametricHeader.hasParameter NameAddressHeader.firstSemi tagParam naddr.toText =
      false := by
    unfold ParametricHeader.hasParameter
    rw [firstSemi_plain h]
    rfl
  unfold setTag ParametricHeader.setParameter
  dsimp only
  rw [hnot, if_neg Bool.false_ne_true]
  simp

/-- **The same tag is read.** -/
theorem getTag_ofNameAddress (h : Rewritable naddr tag) :
    getTag (ofNameAddress naddr tag) = some tag := by
  cases tag with
  | none =>
    unfold getTag ofNameAddress ParametricHeader.getParameter
    dsimp only
    rw [firstSemi_plain h]
    rfl
  | some t =>
    obtain ⟨hne, ht⟩ := h.tag t rfl
    have hset : ofNameAddress naddr (some t) = naddr.toText ++ ';' :: (tagParam ++ '=' :: t) :=
      setTag_toText h t
    have hadded : ParametricHeader.Added tagParam ('=' :: t) := by
      refine ⟨by decide, by decide, ?_, ?_, ?_⟩
      · intro c hc
        rw [← Option.some.inj hc]
        decide
      · rw [List.mem_cons, not_or]
        exact ⟨by decide, fun hmem => absurd (ht _ hmem).1 (by decide)⟩
      · rw [List.mem_append, List.mem_cons, not_or, not_or]
        exact ⟨by decide, by decide, fun hmem => (ht _ hmem).2 rfl⟩
    have hsegments := ParametricHeader.segments_added_nil hadded
    unfold getTag ParametricHeader.getParameter
    rw [hset, firstSemi_toText h (.inr ⟨_, rfl⟩)]
    refine ParametricHeader.findParameter_eq le_rfl (a := ⟨tagParam, '=' :: t⟩) ?_
      (ParametricHeader.ownValue_token (fun c hc => (ht c hc).1) hne fun hmem => (ht _ hmem).2 rfl)
    show ParametricHeader.find tagParam (ParametricHeader.segments (tagParam ++ '=' :: t)) = _
    rw [hsegments]
    rfl

/-- **The same name-address is read**, with or without a tag behind it. -/
theorem getNameAddress_ofNameAddress (hread : naddr.WasRead) (h : Rewritable naddr tag) :
    getNameAddress (ofNameAddress naddr tag) = some naddr := by
  cases tag with
  | none =>
    have hnil := getNameAddress_toText hread h []
    rwa [List.append_nil] at hnil
  | some t =>
    have hset : ofNameAddress naddr (some t) = naddr.toText ++ ';' :: (tagParam ++ '=' :: t) :=
      setTag_toText h t
    rw [hset]
    exact getNameAddress_toText hread h _

end Rewritable

end EndPointHeader
end SoftPhone
