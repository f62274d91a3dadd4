import Mathlib.Data.Int.Notation
import Mathlib.Data.List.Chain

/-!
# Delivering a numbered stream in order

Things with numbers arrive in any order, some twice and some not at all.  The receiver
takes the first one, and from then on only the one with the next number: that is
`inOrder`.  What it takes is numbered without gaps (`isChain_inOrder`).

`lastFrom` is the number that the receiver has taken last; with it, taking from a longer
stream goes on where it stopped (`inOrderFrom_append`).
-/

namespace SoftPhone
namespace Machine

variable {α : Type*} (num : α → Option ℤ)

/-- `a` may be taken after the number `last`. -/
def IsNext (last : Option ℤ) (a : α) : Prop := ∀ k ∈ last, num a = some (k + 1)

instance (last : Option ℤ) (a : α) : Decidable (IsNext num last a) :=
  match last with
  | none => isTrue fun _ h => nomatch h
  | some k => decidable_of_iff (num a = some (k + 1)) (by simp [IsNext])

/-- What is taken of a stream, when `last` was taken before. -/
def inOrderFrom : Option ℤ → List α → List α
  | _, [] => []
  | last, a :: as =>
    if IsNext num last a then a :: inOrderFrom (num a) as else inOrderFrom last as

/-- The number taken last. -/
def lastFrom : Option ℤ → List α → Option ℤ
  | last, [] => last
  | last, a :: as => if IsNext num last a then lastFrom (num a) as else lastFrom last as

/-- What is taken of a stream. -/
def inOrder (as : List α) : List α := inOrderFrom num none as

variable {num}

theorem inOrderFrom_append (last : Option ℤ) (as bs : List α) :
    inOrderFrom num last (as ++ bs) =
      inOrderFrom num last as ++ inOrderFrom num (lastFrom num last as) bs := by
  induction as generalizing last with
  | nil => rfl
  | cons a as ih =>
    rw [List.cons_append, inOrderFrom, inOrderFrom, lastFrom]
    split
    · rw [ih, List.cons_append]
    · exact ih last

theorem lastFrom_append (last : Option ℤ) (as bs : List α) :
    lastFrom num last (as ++ bs) = lastFrom num (lastFrom num last as) bs := by
  induction as generalizing last with
  | nil => rfl
  | cons a as ih =>
    rw [List.cons_append, lastFrom, lastFrom]
    split
    · exact ih (num a)
    · exact ih last

@[simp] theorem isNext_none (a : α) : IsNext num none a := fun _ h => nomatch h

/-- The first one is taken. -/
theorem head?_inOrder (as : List α) : (inOrder num as).head? = as.head? := by
  cases as with
  | nil => rfl
  | cons a as => rw [inOrder, inOrderFrom, if_pos (isNext_none a)]; rfl

/-- One thing comes right after another. -/
def Follows (num : α → Option ℤ) (a b : α) : Prop := ∃ k, num a = some k ∧ num b = some (k + 1)

theorem isChain_inOrderFrom {a : α} {as : List α} (ha : (num a).isSome)
    (has : ∀ b ∈ as, (num b).isSome) :
    (a :: inOrderFrom num (num a) as).IsChain (Follows num) := by
  induction as generalizing a with
  | nil => exact .singleton a
  | cons b as ih =>
    have has' : ∀ c ∈ as, (num c).isSome := fun c hc => has c (List.mem_cons_of_mem b hc)
    rw [inOrderFrom]
    split
    · next hnext =>
      obtain ⟨k, hk⟩ := Option.isSome_iff_exists.mp ha
      exact .cons_cons ⟨k, hk, hnext k hk⟩ (ih (has b (List.mem_cons_self ..)) has')
    · exact ih ha has'

/-- What is taken is numbered without gaps. -/
theorem isChain_inOrder {as : List α} (has : ∀ a ∈ as, (num a).isSome) :
    (inOrder num as).IsChain (Follows num) := by
  cases as with
  | nil => exact .nil
  | cons a as =>
    rw [inOrder, inOrderFrom, if_pos (isNext_none a)]
    exact isChain_inOrderFrom (has a (List.mem_cons_self ..))
      fun b hb => has b (List.mem_cons_of_mem a hb)

end Machine
end SoftPhone
