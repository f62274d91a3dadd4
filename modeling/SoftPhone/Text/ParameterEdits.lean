import SoftPhone.Text.StrictRoute
import SoftPhone.Text.DisplayName

/-!
# Edits of the parameters of a header

`setParameter`, `removeParameter` and `setTag` begin at the semicolon that `indexOfFirstSemi` finds,
and what stands before it they leave as it is.  `removeParameters` asks `indexOfFirstSemi` only
whether there are parameters, and then cuts the value at its very first semicolon, be this one of the
display name or of the URI.  So all edits keep the display name and the URI if and only if no
semicolon is in either of them or the header has no parameters (`unchanged_iff`).

What stands behind the bracket that closes the URI plays no part in what the parser reads
(`getNameAddress_append`).
-/

namespace SoftPhone

open SipParser

namespace SipParser

/-! ## What the parser reads -/

/-- What is found in front of a bracket is found whatever stands behind it. -/
theorem spanTo_closed {ss : List Text} (hss : ∀ t ∈ ss, '>' ∉ t) {z : Text}
    (hne : (spanTo ss (z ++ ['>'])).2 ≠ []) :
    ∃ a b, (∃ t ∈ ss, t <+: b) ∧
      ∀ rest, spanTo ss (z ++ '>' :: rest) = (a, b ++ '>' :: rest) := by
  obtain ⟨happend, hfree, hnext⟩ := spanTo_eq ss (z ++ ['>'])
  generalize spanTo ss (z ++ ['>']) = p at happend hfree hnext hne
  obtain ⟨a, q⟩ := p
  dsimp only at happend hfree hnext hne
  obtain ⟨t, ht, hpre⟩ := hnext.resolve_left hne
  -- the bracket is the last character of what is left
  obtain ⟨b, d, hb⟩ := (List.eq_nil_or_concat _).resolve_left hne
  rw [List.concat_eq_append] at hb
  rw [hb, ← List.append_assoc] at happend
  obtain ⟨rfl, hd⟩ := List.append_inj' happend rfl
  obtain rfl : d = '>' := List.singleton_inj.mp hd
  rw [hb] at hfree hpre
  have hpre := EndPointHeader.prefix_of_not_mem hpre (hss t ht)
  refine ⟨a, b, ⟨t, ht, hpre⟩, fun rest => ?_⟩
  rw [List.append_assoc]
  refine spanTo_append ?_ ⟨t, ht, hpre.trans (List.prefix_append _ _)⟩ (by simp)
  intro y hy hyne u hu hup
  rw [← List.append_assoc] at hup
  refine hfree y hy hyne u hu ((EndPointHeader.prefix_of_not_mem hup (hss u hu)).trans ?_)
  rw [← List.append_assoc]
  exact List.prefix_append _ _

/-- The URI in front of a bracket is read whatever stands behind it. -/
theorem getURI_closed {z : Text} (hne : (spanTo uriSchemes (z ++ ['>'])).2 ≠ []) (rest : Text) :
    getURI (z ++ '>' :: rest) = getURI (z ++ ['>']) := by
  obtain ⟨a, b, -, hspan⟩ := spanTo_closed (by decide) hne
  have htake (rest : Text) : (b ++ '>' :: rest).takeWhile (!isUriSeparator ·) =
      b.takeWhile (!isUriSeparator ·) := by
    rw [List.takeWhile_append, List.takeWhile_cons_of_neg (by decide), List.append_nil]
    split
    · rename_i hall
      exact ((List.takeWhile_prefix _).eq_of_length hall).symm
    · rfl
  have hget (rest : Text) : getURI (z ++ '>' :: rest) =
      some (b.takeWhile (!isUriSeparator ·)) := by
    unfold getURI
    rw [hspan rest, ← htake rest]
    cases b with
    | nil => rfl
    | cons c b => rfl
  rw [hget, hget]

/-- **What stands behind the URI in brackets plays no part in what is read.** -/
theorem getNameAddress_append {display uri : Text} (huri : IsUri uri) (rest : Text) :
    getNameAddress (display ++ bracketed uri ++ rest) =
      getNameAddress (display ++ bracketed uri) := by
  obtain ⟨t, ht, u, hu⟩ := huri.scheme
  have hbracket : ∀ t ∈ uriSchemes, '<' :: t ∈ naddrUriSchemes ∧ t ≠ [] := by decide
  have hshape (rest : Text) : display ++ bracketed uri ++ rest =
      (display ++ '<' :: uri) ++ '>' :: rest := by
    simp [bracketed, NameAddressText.toText]
  have hfound : (spanTo naddrUriSchemes ((display ++ '<' :: uri) ++ ['>'])).2 ≠ [] := by
    rw [List.append_assoc, ← hu]
    exact spanTo_ne_nil (hbracket t ht).1 ⟨u ++ ['>'], by simp⟩ (by simp)
  obtain ⟨a, b, ⟨t', ht', hpre⟩, hspan⟩ := spanTo_closed (by decide) hfound
  have hscheme : (spanTo uriSchemes (b ++ ['>'])).2 ≠ [] := by
    obtain ⟨t'', ht'', rfl, hne⟩ := bracket_of_naddr ht'
    obtain ⟨w, rfl⟩ := hpre
    exact spanTo_ne_nil (a := ['<']) ht'' ⟨w ++ ['>'], by simp⟩ hne
  have hget (rest : Text) : getNameAddress (display ++ bracketed uri ++ rest) =
      (displayName a).map fun name => { name := name, uri := (getURI (b ++ ['>'])).getD [] } := by
    unfold getNameAddress
    rw [hshape, hspan]
    dsimp only
    rw [if_neg (by simp), getURI_closed hscheme rest]
  have hnil := hget []
  rw [List.append_nil] at hnil
  rw [hget, hnil]

end SipParser

namespace ParametricHeader

section Semi

variable (semi : Text → Text × Text)

/-- `hasParameters`. -/
def hasParameters (value : Text) : Bool := (semi value).2 != []

/-- `removeParameters`. -/
def removeParameters (value : Text) : Text :=
  if hasParameters semi value then value.takeWhile (· != ';') else value

/-- The first semicolon divides the value. -/
def Divides : Prop :=
  ∀ value, (semi value).1 ++ (semi value).2 = value ∧
    ((semi value).2 = [] ∨ ∃ u, (semi value).2 = ';' :: u)

variable {semi} {front value : Text}

/-! ## What stands in front of the parameters -/

/-- A text without semicolons stands in front of the parameters. -/
theorem Divides.prefix_of_not_mem (hsemi : Divides semi) (hfront : front <+: value)
    (hnot : ';' ∉ front) : front <+: (semi value).1 := by
  obtain ⟨happend, hrest⟩ := hsemi value
  rw [← happend] at hfront
  rcases hrest with hnil | ⟨u, hu⟩
  · rwa [hnil, List.append_nil] at hfront
  · rw [hu] at hfront
    exact EndPointHeader.prefix_of_not_mem hfront hnot

/-- Without parameters the whole value stands in front of them. -/
theorem Divides.eq_of_hasParameters (hsemi : Divides semi)
    (hnone : hasParameters semi value = false) : (semi value).1 = value := by
  have hnil : (semi value).2 = [] := by simpa [hasParameters] using hnone
  have happend := (hsemi value).1
  rwa [hnil, List.append_nil] at happend

/-- `removeParameter` leaves it as it is. -/
theorem prefix_removeParameter (hfront : front <+: (semi value).1) (pname : Text) :
    front <+: removeParameter semi pname value :=
  hfront.trans (EndPointHeader.cutParameter_front pname _ _ _)

/-- `setParameter` leaves it as it is. -/
theorem prefix_setParameter (hsemi : Divides semi) (hfront : front <+: (semi value).1)
    (pname : Text) (pvalue : Option Text) : front <+: setParameter semi pname pvalue value := by
  have hvalue : front <+: value := by
    rw [← (hsemi value).1]
    exact hfront.trans (List.prefix_append _ _)
  unfold setParameter
  dsimp only
  rw [List.append_assoc]
  split
  · exact (prefix_removeParameter hfront pname).trans (List.prefix_append _ _)
  · exact hvalue.trans (List.prefix_append _ _)

/-- **`removeParameters` leaves it as it is if and only if** there are no parameters or it has no
semicolon. -/
theorem prefix_removeParameters_iff (hfront : front <+: value) :
    front <+: removeParameters semi value ↔ ';' ∉ front ∨ hasParameters semi value = false := by
  unfold removeParameters
  by_cases hany : hasParameters semi value = true
  · rw [if_pos hany, hany]
    simp only [Bool.true_eq_false, or_false]
    constructor
    · intro hpre hmem
      have hne := List.mem_takeWhile_imp (hpre.subset hmem)
      exact absurd hne (by decide)
    · intro hnot
      exact prefix_takeWhile hfront (bne_of_not_mem hnot)
  · rw [if_neg hany]
    exact ⟨fun _ => .inr (Bool.eq_false_iff.mpr hany), fun _ => hfront⟩

end Semi

end ParametricHeader

namespace NameAddressHeader

/-- `indexOfFirstSemi` finds a semicolon, or none. -/
theorem divides_firstSemi : ParametricHeader.Divides firstSemi := by
  have hspan (c : Char) (s : Text) : (spanSkippingQuoted c false s).1 ++
      (spanSkippingQuoted c false s).2 = s ∧ ((spanSkippingQuoted c false s).2 = [] ∨
        ∃ u, (spanSkippingQuoted c false s).2 = c :: u) := by
    obtain ⟨happend, -, hrest⟩ := span_eq c false s
    exact ⟨happend, hrest.imp_right (·.2)⟩
  intro value
  unfold firstSemi
  dsimp only
  split
  · exact hspan ';' value
  · obtain ⟨happend, hrest⟩ := hspan ';' (spanSkippingQuoted '>' false value).2
    refine ⟨?_, hrest⟩
    rw [List.append_assoc, happend]
    exact (hspan '>' value).1

/-! ## The edits -/

/-- An edit of the parameters. -/
inductive Edit where
  | setParameter (pname : Text) (pvalue : Option Text)
  | removeParameter (pname : Text)
  | removeParameters
  | setTag (tag : Text)

/-- What an edit makes of a value. -/
def Edit.apply : Edit → Text → Text
  | .setParameter pname pvalue => ParametricHeader.setParameter firstSemi pname pvalue
  | .removeParameter pname => ParametricHeader.removeParameter firstSemi pname
  | .removeParameters => ParametricHeader.removeParameters firstSemi
  | .setTag tag => EndPointHeader.setTag tag

/-- The display name and the URI, with its parameters, are those of `v` still. -/
structure Unchanged (display uri v v' : Text) : Prop where
  text : display ++ bracketed uri <+: v'
  parser : SipParser.getNameAddress v' = SipParser.getNameAddress v
  endPoint : EndPointHeader.getNameAddress v' = EndPointHeader.getNameAddress v

section Edits

variable {display uri : Text}

/-- What the text in front of the parameters says is also what is read. -/
theorem unchanged_of_prefix (huri : IsUri uri) {params v' : Text}
    (hfront : display ++ bracketed uri <+: v') :
    Unchanged display uri (display ++ bracketed uri ++ params) v' := by
  have hread : SipParser.getNameAddress v' =
      SipParser.getNameAddress (display ++ bracketed uri ++ params) := by
    obtain ⟨rest, rfl⟩ := hfront
    rw [getNameAddress_append huri, getNameAddress_append huri]
  refine ⟨hfront, hread, ?_⟩
  unfold EndPointHeader.getNameAddress
  rw [hread]

/-- **All edits of the parameters keep the display name and the URI if and only if** neither has a
semicolon or there are no parameters. -/
theorem unchanged_iff (huri : IsUri uri) (params : Text) :
    (∀ e : Edit, Unchanged display uri (display ++ bracketed uri ++ params)
        (e.apply (display ++ bracketed uri ++ params))) ↔
      ';' ∉ display ++ bracketed uri ∨
        ParametricHeader.hasParameters firstSemi (display ++ bracketed uri ++ params) = false := by
  have hvalue : display ++ bracketed uri <+: display ++ bracketed uri ++ params :=
    List.prefix_append _ _
  constructor
  · intro h
    exact (ParametricHeader.prefix_removeParameters_iff hvalue).mp (h .removeParameters).text
  · intro h e
    have hfront : display ++ bracketed uri <+:
        (firstSemi (display ++ bracketed uri ++ params)).1 := by
      rcases h with hnot | hnone
      · exact divides_firstSemi.prefix_of_not_mem hvalue hnot
      · rwa [divides_firstSemi.eq_of_hasParameters hnone]
    refine unchanged_of_prefix huri ?_
    cases e with
    | setParameter pname pvalue =>
      exact ParametricHeader.prefix_setParameter divides_firstSemi hfront pname pvalue
    | removeParameter pname => exact ParametricHeader.prefix_removeParameter hfront pname
    | removeParameters => exact (ParametricHeader.prefix_removeParameters_iff hvalue).mpr h
    | setTag tag => exact ParametricHeader.prefix_setParameter divides_firstSemi hfront _ (some tag)

/-- A From value with a parameter of the URI and a tag. -/
def taggedValue : Text := "\"A\" <sip:a@h>;tag=1".toList

theorem unchanged_iff_taggedValue : Unchanged "\"A\" ".toList "sip:a@h".toList taggedValue
    (Edit.removeParameters.apply taggedValue) :=
  (unchanged_iff ⟨⟨"sip:".toList, by decide, by decide⟩, by decide⟩ ";tag=1".toList).mpr
    (.inl (by decide)) .removeParameters

/-- **The parameters of the header are removed, and with them a parameter of the URI and the
bracket.** -/
theorem removeParameters_cut :
    Edit.removeParameters.apply "<sip:a@h;x=1>;tag=2".toList = "<sip:a@h".toList ∧
      ¬Unchanged [] "sip:a@h;x=1".toList "<sip:a@h;x=1>;tag=2".toList
        (Edit.removeParameters.apply "<sip:a@h;x=1>;tag=2".toList) := by
  have hparser : SipParser.getNameAddress
      (Edit.removeParameters.apply "<sip:a@h;x=1>;tag=2".toList) ≠
        SipParser.getNameAddress "<sip:a@h;x=1>;tag=2".toList := by decide
  exact ⟨by decide, fun h => hparser h.parser⟩

end Edits

end NameAddressHeader
end SoftPhone
