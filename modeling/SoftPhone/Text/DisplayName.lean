import SoftPhone.Text.EndPoints

/-!
# The text of a name-address, and the parser

`NameAddress.toString` writes the display name in quotes.  The parser looks for the first bracket in
front of a known scheme, in quotes or not, and takes what stands before it for the display name.  So
a display name that has such a bracket is not read again, and neither is an empty one, which the
parser takes for none (`wasRead_iff`).

From a text in quotes the parser takes the first character away and the last one.  When the text is a
single quote these are the same, and the index is out of range.  This is the only exception
(`getNameAddress_eq_none`).
-/

namespace SoftPhone

open SipParser

namespace SipParser

/-! ## The round trip -/

/-- No suffix of the text begins with one of the strings if and only if none is in the text. -/
theorem free_nil_iff {ss : List Text} (hss : [] ∉ ss) {a : Text} :
    Free ss a [] ↔ ∀ t ∈ ss, ¬t <:+: a := by
  constructor
  · intro h t ht hin
    obtain ⟨y, hpre, hsuf⟩ := List.infix_iff_prefix_suffix.mp hin
    refine h y hsuf ?_ t ht (by rwa [List.append_nil])
    rintro rfl
    exact hss (List.prefix_nil.mp hpre ▸ ht)
  · intro h y hy _ t ht hpre
    rw [List.append_nil] at hpre
    exact h t ht (List.infix_iff_prefix_suffix.mpr ⟨y, hpre, hy⟩)

/-- The scheme of a URI, and no character that ends it. -/
structure IsUri (uri : Text) : Prop where
  scheme : ∃ t ∈ uriSchemes, t <+: uri
  plain : ∀ c ∈ uri, isUriSeparator c = false

/-- **A name-address is read again if and only if** the display name is not empty and has no bracket
in front of a scheme. -/
theorem wasRead_iff {naddr : NameAddressText} (huri : IsUri naddr.uri) :
    getNameAddress naddr.toText = some naddr ↔
      naddr.name ≠ some [] ∧ ∀ n ∈ naddr.name, ∀ t ∈ naddrUriSchemes, ¬t <:+: n := by
  constructor
  · intro h
    have hread := wasRead_getNameAddress h
    exact ⟨hread.ne_nil, fun n hn => (free_nil_iff (by decide)).mp (hread.free n hn)⟩
  · rintro ⟨hne, hfree⟩
    have hread : naddr.WasRead :=
      ⟨huri.scheme, hne, fun n hn => (free_nil_iff (by decide)).mpr (hfree n hn)⟩
    have hparse := EndPointHeader.parse_toText hread huri.plain []
    rwa [List.append_nil] at hparse

/-! ## The exception -/

/-- What is trimmed are blanks. -/
theorem mem_trim_or_le {c : Char} {s : Text} (h : c ∈ s) : c ∈ trim s ∨ c ≤ ' ' := by
  have hblank {s : Text} (hc : c ∈ s) : c ∈ s.dropWhile (· ≤ ' ') ∨ c ≤ ' ' := by
    rw [← List.takeWhile_append_dropWhile (p := (· ≤ ' ')) (l := s)] at hc
    rcases List.mem_append.mp hc with hc | hc
    · exact .inr (by simpa using List.mem_takeWhile_imp hc)
    · exact .inl hc
  rcases hblank h with hc | hc
  · rcases hblank (List.mem_reverse.mpr hc) with hc | hc
    · exact .inl (List.mem_reverse.mpr hc)
    · exact .inr hc
  · exact .inr hc

theorem displayName_eq_none {text : Text} : displayName text = none ↔ trim text = ['"'] := by
  unfold displayName
  rw [Option.map_eq_none_iff]
  split
  · rename_i hnil
    rw [hnil]
    exact ⟨fun h => absurd h (by simp), fun h => absurd h (by simp)⟩
  · rename_i c s heq
    rw [heq]
    by_cases hquoted : c = '"' ∧ (c :: s).getLast? = some '"'
    · rw [if_pos hquoted]
      obtain ⟨rfl, -⟩ := hquoted
      by_cases hs : s = []
      · rw [if_pos hs, hs]
        exact ⟨fun _ => rfl, fun _ => rfl⟩
      · rw [if_neg hs]
        exact ⟨fun h => absurd h (by simp), fun h => absurd (List.cons.inj h).2 hs⟩
    · rw [if_neg hquoted]
      refine ⟨fun h => absurd h (by simp), fun h => absurd ?_ hquoted⟩
      obtain ⟨rfl, rfl⟩ := List.cons.inj h
      exact ⟨rfl, rfl⟩

/-- **The parser throws an exception if and only if** a single quote, with or without blanks around
it, stands in front of the first bracket before a scheme. -/
theorem getNameAddress_eq_none {s : Text} :
    getNameAddress s = none ↔
      ∃ a t b, s = a ++ (t ++ b) ∧ t ∈ naddrUriSchemes ∧ trim a = ['"'] := by
  unfold getNameAddress
  constructor
  · intro h
    obtain ⟨happend, -, hnext⟩ := spanTo_eq naddrUriSchemes s
    by_cases hnil : (spanTo naddrUriSchemes s).2 = []
    · rw [if_pos hnil] at h
      exact absurd h (by simp)
    · rw [if_neg hnil, Option.map_eq_none_iff] at h
      obtain ⟨t, ht, b, hb⟩ := hnext.resolve_left hnil
      exact ⟨_, t, b, by rw [hb, happend], ht, displayName_eq_none.mp h⟩
  · rintro ⟨a, t, b, rfl, ht, ha⟩
    obtain ⟨t', -, rfl, -⟩ := bracket_of_naddr ht
    have hfree : Free naddrUriSchemes a ('<' :: t' ++ b) := by
      intro y hy hne u hu hpre
      obtain ⟨u', -, rfl, -⟩ := bracket_of_naddr hu
      obtain ⟨c, y, rfl⟩ := List.exists_cons_of_ne_nil hne
      -- the bracket would stand between the blanks and the quote
      obtain rfl : '<' = c := (List.cons_prefix_cons.mp hpre).1
      rcases mem_trim_or_le (hy.subset (List.mem_cons_self ..)) with hc | hc
      · rw [ha] at hc
        exact absurd hc (by decide)
      · exact absurd hc (by decide)
    rw [spanTo_append hfree ⟨_, ht, List.prefix_append _ _⟩ (by simp)]
    dsimp only
    rw [if_neg (by simp), displayName_eq_none.mpr ha]
    rfl

/-- **When a name-address is read again, and when the parser throws no exception.** -/
theorem getNameAddress_iff {naddr : NameAddressText} (huri : IsUri naddr.uri) (s : Text) :
    (getNameAddress naddr.toText = some naddr ↔
        naddr.name ≠ some [] ∧ ∀ n ∈ naddr.name, ∀ t ∈ naddrUriSchemes, ¬t <:+: n) ∧
      (getNameAddress s ≠ none ↔
        ¬∃ a t b, s = a ++ (t ++ b) ∧ t ∈ naddrUriSchemes ∧ trim a = ['"']) :=
  ⟨wasRead_iff huri, not_congr getNameAddress_eq_none⟩

/-- A display name with brackets, a semicolon and a comma. -/
def bracketedName : NameAddressText where
  name := some "<a>; b, c".toList
  uri := "tel:+1".toList

theorem getNameAddress_iff_bracketedName :
    getNameAddress bracketedName.toText = some bracketedName ∧
      getNameAddress "\" <im:a>".toList ≠ none := by
  have huri : IsUri bracketedName.uri := ⟨⟨"tel:".toList, by decide, by decide⟩, by decide⟩
  obtain ⟨hread, hparsed⟩ := getNameAddress_iff huri "\" <im:a>".toList
  refine ⟨hread.mpr ⟨by decide, ?_⟩, hparsed.mpr ?_⟩
  · intro n hn
    rw [← Option.some.inj hn]
    decide
  · rintro ⟨a, t, b, hs, ht, -⟩
    have hall : ∀ t ∈ naddrUriSchemes, ¬t <:+: "\" <im:a>".toList := by decide
    exact hall t ht ⟨a, b, by rw [hs, List.append_assoc]⟩

/-- **An empty display name is read as none, a name with a scheme in it is cut, and a single quote is
an exception.** -/
theorem displayName_lost :
    getNameAddress (NameAddressText.toText { name := some [], uri := "sip:a@h".toList }) =
        some { uri := "sip:a@h".toList } ∧
      getNameAddress (NameAddressText.toText
        { name := some "x <sip:y".toList, uri := "sip:a@h".toList }) =
        some { name := some "\"x".toList, uri := "sip:y\"".toList } ∧
      getNameAddress "\"<sip:a@h>".toList = none := by
  decide

end SipParser
end SoftPhone
