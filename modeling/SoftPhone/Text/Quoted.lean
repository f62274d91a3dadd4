import SoftPhone.Text.Parser

/-!
# Text in quotes

Going through a text, each `"` opens or closes a quoted part.  `endsInside` is whether a part is
open at the end, and `Skips c` that the character `c` only stands in quotes, so that
`goToSkippingQuoted(c)` runs to the end.

`spanSkippingQuoted` divides a text at the first `c` that is not in quotes; `span_eq` is the
whole of it: what is skipped has no such `c`, and what is left begins with it.
-/

namespace SoftPhone
namespace SipParser

/-- A quoted part is open behind the text. -/
def endsInside (inside : Bool) (s : Text) : Bool :=
  s.foldl (fun inside a => if a = '"' then !inside else inside) inside

/-- Every `c` in the text is in quotes. -/
def Skips (c : Char) (inside : Bool) (s : Text) : Prop := (spanSkippingQuoted c inside s).2 = []

instance (c : Char) (inside : Bool) (s : Text) : Decidable (Skips c inside s) :=
  inferInstanceAs (Decidable (_ = _))

theorem endsInside_cons (inside : Bool) (a : Char) (s : Text) :
    endsInside inside (a :: s) = endsInside (if a = '"' then !inside else inside) s := rfl

theorem endsInside_append (inside : Bool) (s t : Text) :
    endsInside inside (s ++ t) = endsInside (endsInside inside s) t := List.foldl_append

/-- Without quotes, nothing is opened or closed. -/
theorem endsInside_of_not_mem {s : Text} (hs : '"' ∉ s) (inside : Bool) :
    endsInside inside s = inside := by
  induction s with
  | nil => rfl
  | cons a s ih =>
    rw [List.mem_cons, not_or] at hs
    obtain ⟨ha, hs⟩ := hs
    rw [endsInside_cons, if_neg (Ne.symm ha), ih hs]

/-- A quoted part that is closed has a quote. -/
theorem mem_of_endsInside {s : Text} (hs : endsInside true s = false) : '"' ∈ s := by
  by_contra hnot
  rw [endsInside_of_not_mem hnot] at hs
  exact absurd hs (by decide)

/-- A character is passed. -/
theorem spanSkippingQuoted_cons_of_not {c a : Char} {inside : Bool} (h : ¬(a = c ∧ inside = false))
    (s : Text) :
    spanSkippingQuoted c inside (a :: s) =
      (a :: (spanSkippingQuoted c (if a = '"' then !inside else inside) s).1,
        (spanSkippingQuoted c (if a = '"' then !inside else inside) s).2) := by
  rw [spanSkippingQuoted, if_neg h]

@[simp] theorem spanSkippingQuoted_self (c : Char) (s : Text) :
    spanSkippingQuoted c false (c :: s) = ([], c :: s) := by
  rw [spanSkippingQuoted, if_pos ⟨rfl, rfl⟩]

@[simp] theorem skips_nil (c : Char) (inside : Bool) : Skips c inside [] := rfl

theorem skips_cons {c a : Char} {inside : Bool} {s : Text} :
    Skips c inside (a :: s) ↔
      ¬(a = c ∧ inside = false) ∧ Skips c (if a = '"' then !inside else inside) s := by
  unfold Skips
  by_cases h : a = c ∧ inside = false
  · rw [spanSkippingQuoted, if_pos h]
    exact ⟨fun hnil => absurd hnil (List.cons_ne_nil _ _), fun hnot => absurd h hnot.1⟩
  · rw [spanSkippingQuoted_cons_of_not h]
    exact ⟨fun hnil => ⟨h, hnil⟩, fun hnil => hnil.2⟩

theorem skips_append {c : Char} {inside : Bool} {s t : Text} :
    Skips c inside (s ++ t) ↔ Skips c inside s ∧ Skips c (endsInside inside s) t := by
  induction s generalizing inside with
  | nil => simp [endsInside]
  | cons a s ih =>
    rw [List.cons_append, skips_cons, skips_cons, ih, and_assoc, endsInside_cons]

/-- A character that is not in the text is skipped. -/
theorem skips_of_not_mem {c : Char} {s : Text} (hs : c ∉ s) (inside : Bool) :
    Skips c inside s := by
  induction s generalizing inside with
  | nil => exact skips_nil c inside
  | cons a s ih =>
    rw [List.mem_cons, not_or] at hs
    obtain ⟨ha, hs⟩ := hs
    exact skips_cons.mpr ⟨fun h => ha h.1.symm, ih hs _⟩

/-- A character of a text without quotes is skipped when the whole text is in quotes. -/
theorem skips_of_unquoted {c : Char} {inside : Bool} {s : Text} (hs : '"' ∉ s) :
    Skips c inside s ↔ (c ∈ s → inside = true) := by
  cases inside with
  | true =>
    have hskips : Skips c true s := by
      induction s with
      | nil => exact skips_nil _ _
      | cons a s ih =>
        rw [List.mem_cons, not_or] at hs
        rw [skips_cons, if_neg (Ne.symm hs.1)]
        exact ⟨fun h => Bool.noConfusion h.2, ih hs.2⟩
    exact ⟨fun _ _ => rfl, fun _ => hskips⟩
  | false =>
    refine ⟨fun h hc => ?_, fun h => skips_of_not_mem (fun hc => Bool.noConfusion (h hc)) _⟩
    obtain ⟨a, b, rfl⟩ := List.append_of_mem hc
    have ha : '"' ∉ a := fun hmem => hs (List.mem_append_left _ hmem)
    rw [skips_append, endsInside_of_not_mem ha, skips_cons] at h
    exact absurd ⟨rfl, rfl⟩ h.2.1

/-- A text without the character is passed as a whole. -/
theorem span_append_of_skips {c : Char} {inside : Bool} {s : Text} (hs : Skips c inside s)
    (t : Text) :
    spanSkippingQuoted c inside (s ++ t) =
      (s ++ (spanSkippingQuoted c (endsInside inside s) t).1,
        (spanSkippingQuoted c (endsInside inside s) t).2) := by
  induction s generalizing inside with
  | nil => rfl
  | cons a s ih =>
    obtain ⟨ha, hs⟩ := skips_cons.mp hs
    rw [List.cons_append, spanSkippingQuoted_cons_of_not ha, ih hs, endsInside_cons]
    rfl

/-- **The text is divided at the first `c` that is not in quotes.** -/
theorem span_eq (c : Char) (inside : Bool) (s : Text) :
    (spanSkippingQuoted c inside s).1 ++ (spanSkippingQuoted c inside s).2 = s ∧
      Skips c inside (spanSkippingQuoted c inside s).1 ∧
      ((spanSkippingQuoted c inside s).2 = [] ∨
        endsInside inside (spanSkippingQuoted c inside s).1 = false ∧
          ∃ t, (spanSkippingQuoted c inside s).2 = c :: t) := by
  induction s generalizing inside with
  | nil => exact ⟨rfl, rfl, .inl rfl⟩
  | cons a s ih =>
    by_cases h : a = c ∧ inside = false
    · obtain ⟨rfl, rfl⟩ := h
      rw [spanSkippingQuoted_self]
      exact ⟨rfl, rfl, .inr ⟨rfl, s, rfl⟩⟩
    · rw [spanSkippingQuoted_cons_of_not h]
      obtain ⟨happend, hskips, hrest⟩ := ih (if a = '"' then !inside else inside)
      exact ⟨congrArg (a :: ·) happend, skips_cons.mpr ⟨h, hskips⟩, hrest⟩

/-- Where a text is divided, when the parts are known. -/
theorem span_append {c : Char} {inside : Bool} {s t : Text} (hs : Skips c inside s)
    (ht : t = [] ∨ endsInside inside s = false ∧ ∃ u, t = c :: u) :
    spanSkippingQuoted c inside (s ++ t) = (s, t) := by
  rw [span_append_of_skips hs]
  rcases ht with rfl | ⟨hends, u, rfl⟩
  · exact Prod.ext (List.append_nil s) rfl
  · rw [hends, spanSkippingQuoted_self]
    exact Prod.ext (List.append_nil s) rfl

end SipParser
end SoftPhone
