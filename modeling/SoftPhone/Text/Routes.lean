import SoftPhone.Text.EndPoints
import SoftPhone.Text.Headers
import Mathlib.Data.List.Count

/-!
# Several values in one header

`MultipleHeader.toHeader` writes the values behind one another, with a comma and a space between
them.  The accessors divide the text again, at the commas that are not in quotes.  When the values
have no commas of their own, the same values are found, unless one of them leaves a quoted part open
and is not the last one (`values_joined`); then fewer values are found (`length_joined_lt`).
-/

namespace SoftPhone

open SipParser

/-! ## Commas -/

section CommaParts

variable {inside : Bool} {s : Text}

/-- A character that divides nothing belongs to the first part. -/
theorem commaParts_cons {c : Char} {inside : Bool} (h : ¬(c = ',' ∧ inside = false)) (s : Text) :
    ∃ p ps, commaParts (if c = '"' then !inside else inside) s = p :: ps ∧
      commaParts inside (c :: s) = (c :: p) :: ps := by
  obtain ⟨p, ps, heq, -, -⟩ := skips_commaParts (if c = '"' then !inside else inside) s
  refine ⟨p, ps, heq, ?_⟩
  rw [commaParts, if_neg h, heq]

theorem length_commaParts_cons {c : Char} (h : ¬(c = ',' ∧ inside = false)) (s : Text) :
    (commaParts inside (c :: s)).length =
      (commaParts (if c = '"' then !inside else inside) s).length := by
  obtain ⟨p, ps, heq, hcons⟩ := commaParts_cons h s
  rw [heq, hcons]
  rfl

/-- Without a comma there is one part. -/
theorem commaParts_of_skips (h : Skips ',' inside s) : commaParts inside s = [s] := by
  induction s generalizing inside with
  | nil => rfl
  | cons c s ih =>
    obtain ⟨hc, hs⟩ := skips_cons.mp h
    rw [commaParts, if_neg hc, ih hs]

/-- The first comma divides the text. -/
theorem commaParts_append (h : Skips ',' inside s) (hends : endsInside inside s = false)
    (t : Text) : commaParts inside (s ++ ',' :: t) = s :: commaParts false t := by
  induction s generalizing inside with
  | nil =>
    obtain rfl : inside = false := hends
    rw [List.nil_append, commaParts, if_pos ⟨rfl, rfl⟩]
  | cons c s ih =>
    obtain ⟨hc, hs⟩ := skips_cons.mp h
    rw [List.cons_append, commaParts, if_neg hc, ih hs hends]

theorem length_commaParts_append (h : ',' ∉ s) (inside : Bool) (t : Text) :
    (commaParts inside (s ++ t)).length = (commaParts (endsInside inside s) t).length := by
  induction s generalizing inside with
  | nil => rfl
  | cons c s ih =>
    rw [List.mem_cons, not_or] at h
    rw [List.cons_append, length_commaParts_cons (fun hc => h.1 hc.1.symm), ih h.2]
    rfl

/-- There are at most as many parts as the commas allow. -/
theorem length_commaParts_le (inside : Bool) (s : Text) :
    (commaParts inside s).length ≤ s.count ',' + 1 := by
  induction s generalizing inside with
  | nil => exact le_rfl
  | cons c s ih =>
    by_cases h : c = ',' ∧ inside = false
    · obtain ⟨rfl, rfl⟩ := h
      rw [commaParts, if_pos ⟨rfl, rfl⟩, List.length_cons, List.count_cons_self]
      have hle := ih false
      omega
    · rw [length_commaParts_cons h]
      have hle := ih (if c = '"' then !inside else inside)
      have hcount : s.count ',' ≤ (c :: s).count ',' := List.count_le_count_cons
      omega

theorem Header.length_values (h : Header) :
    h.values.length = (commaParts false h.value).length := by
  rw [Header.values]
  split
  · exact List.length_map ..
  · rename_i hnot
    rw [commaParts_of_skips (Header.skips_of_not_separated hnot)]

/-- The space behind a comma is no part of a value. -/
theorem map_trim_space (s : Text) :
    (commaParts false (' ' :: s)).map trim = (commaParts false s).map trim := by
  have hspace : ¬(' ' = ',' ∧ false = false) := by decide
  obtain ⟨p, ps, heq, hcons⟩ := commaParts_cons hspace s
  have htrim : trim (' ' :: p) = trim p := by
    rw [trim, trim, List.dropWhile_cons_of_pos (by decide)]
  have heq' : commaParts false s = p :: ps := heq
  rw [hcons, heq', List.map_cons, List.map_cons, htrim]

end CommaParts

/-! ## The values, one behind the other -/

namespace MultipleHeader

/-- The value of `toHeader`. -/
def joined (vs : List Text) : Text := (vs.intersperse [',', ' ']).flatten

theorem joined_singleton (v : Text) : joined [v] = v := List.append_nil v

theorem joined_cons_cons (v w : Text) (vs : List Text) :
    joined (v :: w :: vs) = v ++ ',' :: ' ' :: joined (w :: vs) := rfl

section Joined

variable {vs : List Text}

/-- The commas are those between the values. -/
theorem count_joined (h : ∀ v ∈ vs, ',' ∉ v) : (joined vs).count ',' = vs.length - 1 := by
  induction vs with
  | nil => rfl
  | cons v vs ih =>
    obtain ⟨hv, hvs⟩ := List.forall_mem_cons.mp h
    cases vs with
    | nil => rw [joined_singleton, List.count_eq_zero.mpr hv, List.length_singleton]
    | cons w vs =>
      rw [joined_cons_cons, List.count_append, List.count_eq_zero.mpr hv, List.count_cons_self,
        List.count_cons_of_ne (by decide), ih hvs]
      simp only [List.length_cons]
      omega

/-- When no value but the last one leaves a quoted part open, the values are the parts. -/
theorem map_trim_joined (hne : vs ≠ []) (h : ∀ v ∈ vs, Skips ',' false v)
    (hclosed : ∀ v ∈ vs.dropLast, endsInside false v = false) :
    (commaParts false (joined vs)).map trim = vs.map trim := by
  induction vs with
  | nil => exact absurd rfl hne
  | cons v vs ih =>
    obtain ⟨hv, hvs⟩ := List.forall_mem_cons.mp h
    cases vs with
    | nil => rw [joined_singleton, commaParts_of_skips hv]
    | cons w vs =>
      rw [List.dropLast_cons_cons] at hclosed
      obtain ⟨hends, hothers⟩ := List.forall_mem_cons.mp hclosed
      rw [joined_cons_cons, commaParts_append hv hends, List.map_cons, map_trim_space,
        ih (List.cons_ne_nil _ _) hvs hothers]
      rfl

/-- **The same values are found.** -/
theorem values_joined (hne : vs ≠ []) (h : ∀ v ∈ vs, Skips ',' false v)
    (hclosed : ∀ v ∈ vs.dropLast, endsInside false v = false) (htrim : ∀ v ∈ vs, trim v = v)
    (n : Text) : Header.values ⟨n, joined vs⟩ = vs := by
  have hparts := map_trim_joined hne h hclosed
  have hself : vs.map trim = vs := (List.map_congr_left htrim).trans (List.map_id vs)
  rw [hself] at hparts
  rw [Header.values]
  split
  · exact hparts
  · rename_i hnot
    rw [commaParts_of_skips (Header.skips_of_not_separated hnot)] at hparts
    obtain ⟨v, rfl⟩ : ∃ v, vs = [v] := ⟨_, hparts.symm⟩
    rw [joined_singleton]

/-- **There are fewer** when one of them leaves a quoted part open. -/
theorem length_joined_lt (h : ∀ v ∈ vs, ',' ∉ v)
    (hopen : ∃ v ∈ vs.dropLast, endsInside false v = true) (n : Text) :
    (Header.values ⟨n, joined vs⟩).length < vs.length := by
  rw [Header.length_values]
  show (commaParts false (joined vs)).length < _
  induction vs with
  | nil =>
    obtain ⟨v, hv, -⟩ := hopen
    exact absurd hv List.not_mem_nil
  | cons v vs ih =>
    obtain ⟨hv, hvs⟩ := List.forall_mem_cons.mp h
    cases vs with
    | nil =>
      obtain ⟨v, hv, -⟩ := hopen
      exact absurd hv List.not_mem_nil
    | cons w vs =>
      have hspace (inside : Bool) : (commaParts inside (' ' :: joined (w :: vs))).length =
          (commaParts inside (joined (w :: vs))).length := by
        rw [length_commaParts_cons (fun hc => absurd hc.1 (by decide))]
        rfl
      rw [joined_cons_cons, length_commaParts_append hv]
      cases hends : endsInside false v with
      | true =>
        -- the comma behind it is in quotes
        rw [length_commaParts_cons (fun hc => Bool.noConfusion hc.2)]
        show (commaParts true (' ' :: joined (w :: vs))).length < _
        have hle := length_commaParts_le true (joined (w :: vs))
        rw [count_joined hvs] at hle
        rw [hspace]
        simp only [List.length_cons] at hle ⊢
        omega
      | false =>
        have hopen' : ∃ v ∈ (w :: vs).dropLast, endsInside false v = true := by
          obtain ⟨u, hu, hopen⟩ := hopen
          rw [List.dropLast_cons_cons] at hu
          rcases List.mem_cons.mp hu with rfl | hu
          · rw [hends] at hopen
            exact Bool.noConfusion hopen
          · exact ⟨u, hu, hopen⟩
        have hlt := ih hvs hopen'
        rw [commaParts, if_pos ⟨rfl, rfl⟩, List.length_cons, hspace, List.length_cons]
        omega

end Joined

end MultipleHeader

/-! ## Name-addresses -/

namespace NameAddressText

theorem trim_toText (naddr : NameAddressText) : trim naddr.toText = naddr.toText := by
  have hlast : naddr.toText.getLast? = some '>' := List.getLast?_concat ..
  refine trim_eq_self (fun c hc => ?_) fun c hc => ?_
  · obtain ⟨name, uri⟩ := naddr
    cases name with
    | none =>
      rw [← Option.some.inj hc]
      decide
    | some name =>
      rw [← Option.some.inj hc]
      decide
  · rw [hlast] at hc
    rw [← Option.some.inj hc]
    decide

theorem bracket_mem_toText (naddr : NameAddressText) : '>' ∈ naddr.toText :=
  List.mem_append_right _ (List.mem_singleton_self _)

end NameAddressText

end SoftPhone
