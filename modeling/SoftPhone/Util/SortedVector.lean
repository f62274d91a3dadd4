import Mathlib.Data.List.Perm.Basic
import Mathlib.Data.List.Sort
import Mathlib.Tactic.Common
import SoftPhone.Machine.Run

/-!
# Sorted vectors

A `SortedVector` is to keep its elements in ascending order, by a `Comparator` or by the natural
order of the elements.  The constructor with a collection sorts it, and `addElement` looks for the
place of the new element from the end of the vector.  `addElements` puts its elements at the end as
they are; the call of the sort is there as a comment only.

* `addElement_eq`: a new element comes after all elements that are not greater, and in front of
  greater ones only; a vector in order stays in order.
* `sortedVector_run`: a run keeps the order throughout if and only if what each `addElements` puts at
  the end is in order there.
-/

namespace SoftPhone
namespace Sorting

open Machine

variable {α : Type*}

/-! ## Orders by an integer -/

/-- `compare` gives a total preorder: the sign turns round with the arguments, and `≤` is
transitive. -/
structure TotalPreorder (compare : α → α → ℤ) : Prop where
  swap : ∀ a b, compare a b < 0 ↔ 0 < compare b a
  trans : ∀ a b c, compare a b ≤ 0 → compare b c ≤ 0 → compare a c ≤ 0

/-- The elements are in ascending order. -/
def Ascending (compare : α → α → ℤ) (v : List α) : Prop := v.Pairwise fun a b => compare a b ≤ 0

instance (compare : α → α → ℤ) (v : List α) : Decidable (Ascending compare v) :=
  inferInstanceAs (Decidable (v.Pairwise fun a b => compare a b ≤ 0))

section

variable {compare : α → α → ℤ} {v before after : List α} {obj : α}

theorem TotalPreorder.le_of_not_lt (h : TotalPreorder compare) {a b : α} (hab : ¬ compare a b < 0) :
    compare b a ≤ 0 := by
  have hswap := h.swap a b
  omega

theorem TotalPreorder.le_of_lt (h : TotalPreorder compare) {a b : α} (hab : ¬ compare b a ≤ 0) :
    compare a b ≤ 0 := by
  have hswap := h.swap a b
  omega

/-- Sorting, which is stable, puts the elements in ascending order. -/
theorem ascending_mergeSort (h : TotalPreorder compare) (v : List α) :
    Ascending compare (v.mergeSort fun a b => compare a b ≤ 0) := by
  have hsorted := @List.pairwise_mergeSort _ (fun a b => decide (compare a b ≤ 0))
    (fun a b c hab hbc => decide_eq_true (h.trans a b c (of_decide_eq_true hab)
      (of_decide_eq_true hbc)))
    (fun a b => by
      rcases le_or_gt (compare a b) 0 with hle | hlt
      · exact Bool.or_eq_true_iff.mpr (Or.inl (decide_eq_true hle))
      · exact Bool.or_eq_true_iff.mpr (Or.inr (decide_eq_true (h.le_of_lt (by omega))))) v
  exact hsorted.imp fun hab => of_decide_eq_true hab

end

/-! ## The methods -/

/-- The fields of a `SortedVector`; without a comparator the natural order counts. -/
structure SortedVector (α : Type*) where
  comparator : Option (α → α → ℤ)
  v : List α

namespace SortedVector

variable (compareTo : α → α → ℤ)

/-- `new SortedVector()`. -/
def new : SortedVector α := ⟨none, []⟩

/-- `new SortedVector(elements)`. -/
def ofCollection (elements : List α) : SortedVector α :=
  ⟨none, elements.mergeSort fun a b => compareTo a b ≤ 0⟩

/-- `new SortedVector(comparator)`. -/
def ofComparator (comparator : Option (α → α → ℤ)) : SortedVector α := ⟨comparator, []⟩

/-- The order of the vector. -/
def compare (s : SortedVector α) : α → α → ℤ := s.comparator.getD compareTo

/-- `addElements(elements)`, of a collection or an array. -/
def addElements (s : SortedVector α) (elements : List α) : SortedVector α :=
  elements.foldl (fun s obj => { s with v := s.v ++ [obj] }) s

/-- `while (i>0 && compare(obj,v.elementAt(i-1))<0) i--`. -/
def place (compare : α → α → ℤ) (obj : α) (v : List α) : ℕ → ℕ
  | 0 => 0
  | i + 1 => if ∃ x ∈ v[i]?, compare obj x < 0 then place compare obj v i else i + 1

/-- `addElement(obj)`. -/
def addElement (s : SortedVector α) (obj : α) : SortedVector α :=
  { s with v := s.v.insertIdx (place (s.compare compareTo) obj s.v s.v.length) obj }

/-- `removeElementAt(i)`; outside the vector it throws and changes nothing. -/
def removeElementAt (s : SortedVector α) (i : ℤ) : SortedVector α :=
  if 0 ≤ i ∧ i < s.v.length then { s with v := s.v.eraseIdx i.toNat } else s

end SortedVector

open SortedVector

section

variable {compareTo compare : α → α → ℤ} {s : SortedVector α} {obj : α} {v before after : List α}

theorem addElements_eq (elements : List α) :
    s.addElements elements = { s with v := s.v ++ elements } := by
  induction elements generalizing s with
  | nil => rw [addElements, List.foldl_nil, List.append_nil]
  | cons x elements ih =>
    have ih := ih (s := { s with v := s.v ++ [x] })
    rw [List.append_assoc, List.singleton_append] at ih
    exact ih

/-- The scan stops behind the last element that is not greater. -/
theorem place_eq (i : ℕ) (hi : i ≤ v.length) :
    ∃ before after, v.take i = before ++ after ∧ place compare obj v i = before.length ∧
      (∀ x ∈ after, compare obj x < 0) ∧ ∀ x ∈ before.getLast?, ¬ compare obj x < 0 := by
  induction i with
  | zero => exact ⟨[], [], rfl, rfl, by simp, by simp⟩
  | succ i ih =>
    have hlt : i < v.length := hi
    have htake : v.take (i + 1) = v.take i ++ [v[i]] := List.take_succ_eq_append_getElem hlt
    have hget : v[i]? = some v[i] := List.getElem?_eq_getElem hlt
    rw [place, hget]
    by_cases hless : compare obj v[i] < 0
    · obtain ⟨before, after, heq, hplace, hafter, hbefore⟩ := ih (by omega)
      refine ⟨before, after ++ [v[i]], by rw [htake, heq, List.append_assoc], ?_, ?_, hbefore⟩
      · rw [if_pos ⟨v[i], rfl, hless⟩, hplace]
      · intro x hx
        rcases List.mem_append.mp hx with hx | hx
        · exact hafter x hx
        · rw [List.mem_singleton.mp hx]
          exact hless
    · refine ⟨v.take (i + 1), [], (List.append_nil _).symm, ?_, by simp, ?_⟩
      · rw [if_neg, List.length_take_of_le hi]
        rintro ⟨x, hx, hxless⟩
        rw [← Option.some_inj.mp hx] at hxless
        exact hless hxless
      · intro x hx
        rw [htake, List.getLast?_concat] at hx
        rwa [← Option.some_inj.mp hx]

theorem insertIdx_append (before after : List α) :
    (before ++ after).insertIdx before.length obj = before ++ obj :: after := by
  induction before with
  | nil => rfl
  | cons x before ih => rw [List.cons_append, List.length_cons, List.insertIdx_succ_cons, ih,
      List.cons_append]

/-- **Where a new element goes**: behind it are greater elements only, and in front of it is an
element that is not greater. -/
theorem addElement_eq (s : SortedVector α) (obj : α) :
    ∃ before after, s.v = before ++ after ∧
      s.addElement compareTo obj = { s with v := before ++ obj :: after } ∧
      (∀ x ∈ after, s.compare compareTo obj x < 0) ∧
        ∀ x ∈ before.getLast?, ¬ s.compare compareTo obj x < 0 := by
  obtain ⟨before, after, heq, hplace, hafter, hbefore⟩ :=
    @place_eq _ (s.compare compareTo) obj s.v s.v.length (le_refl _)
  rw [List.take_length] at heq
  refine ⟨before, after, heq, ?_, hafter, hbefore⟩
  rw [addElement, hplace, heq, insertIdx_append]

/-- A list in ascending order stays in order around an element between its two parts. -/
theorem ascending_insert (h : TotalPreorder compare) (hv : Ascending compare (before ++ after))
    (hafter : ∀ x ∈ after, compare obj x < 0)
    (hbefore : ∀ x ∈ before.getLast?, ¬ compare obj x < 0) :
    Ascending compare (before ++ obj :: after) := by
  obtain ⟨hbefores, hafters, hcross⟩ := List.pairwise_append.mp hv
  have hle : ∀ x ∈ before, compare x obj ≤ 0 := by
    intro x hx
    obtain ⟨init, last, rfl⟩ : ∃ init last, before = init ++ [last] :=
      ⟨before.dropLast, before.getLast (List.ne_nil_of_mem hx),
        (List.dropLast_append_getLast _).symm⟩
    have hlast : compare last obj ≤ 0 :=
      h.le_of_not_lt (hbefore last List.getLast?_concat)
    rcases List.mem_append.mp hx with hx | hx
    · exact h.trans x last obj
        ((List.pairwise_append.mp hbefores).2.2 x hx last (List.mem_singleton_self _)) hlast
    · rwa [List.mem_singleton.mp hx]
  refine List.pairwise_append.mpr ⟨hbefores, List.pairwise_cons.mpr ⟨?_, hafters⟩, ?_⟩
  · exact fun x hx => (hafter x hx).le
  · intro x hx y hy
    rcases List.mem_cons.mp hy with rfl | hy
    · exact hle x hx
    · exact hcross x hx y hy

end

/-! ## Runs -/

/-- A call of a constructor. -/
inductive Construction (α : Type*)
  | new
  | ofCollection (elements : List α)
  | ofComparator (comparator : Option (α → α → ℤ))

/-- The elements of a new vector. -/
def Construction.elements : Construction α → List α
  | .new => []
  | .ofCollection elements => elements
  | .ofComparator _ => []

/-- The vector that a constructor makes. -/
def construct (compareTo : α → α → ℤ) : Construction α → SortedVector α
  | .new => SortedVector.new
  | .ofCollection elements => SortedVector.ofCollection compareTo elements
  | .ofComparator comparator => SortedVector.ofComparator comparator

/-- A call of a method. -/
inductive Call (α : Type*)
  | addElements (elements : List α)
  | addElement (obj : α)
  | removeElementAt (i : ℤ)

/-- The elements that a call adds. -/
def Call.added : Call α → List α
  | .addElements elements => elements
  | .addElement obj => [obj]
  | .removeElementAt _ => []

/-- The vector after a call. -/
def step (compareTo : α → α → ℤ) (s : SortedVector α) : Call α → SortedVector α
  | .addElements elements => s.addElements elements
  | .addElement obj => s.addElement compareTo obj
  | .removeElementAt i => s.removeElementAt i

/-- The element that a call removes. -/
def removed (s : SortedVector α) : Call α → List α
  | .addElements _ => []
  | .addElement _ => []
  | .removeElementAt i => if 0 ≤ i then s.v[i.toNat]?.toList else []

/-- What `addElements` puts at the end is in order there. -/
def AddsInOrder (compareTo : α → α → ℤ) (s : SortedVector α) : Call α → Prop
  | .addElements elements => Ascending (s.compare compareTo) (s.v ++ elements)
  | .addElement _ => True
  | .removeElementAt _ => True

instance (compareTo : α → α → ℤ) (s : SortedVector α) :
    ∀ c, Decidable (AddsInOrder compareTo s c)
  | .addElements elements =>
    inferInstanceAs (Decidable (Ascending (s.compare compareTo) (s.v ++ elements)))
  | .addElement _ => isTrue trivial
  | .removeElementAt _ => isTrue trivial

section

variable {compareTo : α → α → ℤ} {s : SortedVector α}

theorem step_comparator (c : Call α) : (step compareTo s c).comparator = s.comparator := by
  cases c with
  | addElements elements => rw [step, addElements_eq]
  | addElement obj => rfl
  | removeElementAt i =>
    rw [step, removeElementAt]
    split <;> rfl

theorem step_perm (c : Call α) :
    ((step compareTo s c).v ++ removed s c).Perm (s.v ++ c.added) := by
  cases c with
  | addElements elements => rw [step, addElements_eq, removed, Call.added, List.append_nil]
  | addElement obj =>
    obtain ⟨before, after, heq, hadd, -, -⟩ := @addElement_eq _ compareTo s obj
    rw [step, hadd, removed, Call.added, heq, List.append_nil, List.append_assoc]
    exact (@List.perm_append_comm _ [obj] _).append_left before
  | removeElementAt i =>
    rw [step, removeElementAt, removed, Call.added, List.append_nil]
    split
    · rename_i hi
      have hlt : i.toNat < s.v.length := by omega
      rw [if_pos hi.1, List.getElem?_eq_getElem hlt, Option.toList_some]
      exact List.perm_append_comm.trans (List.getElem_cons_eraseIdx_perm hlt)
    · rename_i hi
      have hnone : (if 0 ≤ i then s.v[i.toNat]?.toList else []) = [] := by
        split
        · rw [List.getElem?_eq_none (by omega), Option.toList_none]
        · rfl
      rw [hnone, List.append_nil]

/-- **A call keeps the order if and only if it adds its elements in order.** -/
theorem ascending_step (h : TotalPreorder (s.compare compareTo))
    (hs : Ascending (s.compare compareTo) s.v) (c : Call α) :
    Ascending (s.compare compareTo) (step compareTo s c).v ↔ AddsInOrder compareTo s c := by
  cases c with
  | addElements elements => rw [step, addElements_eq, AddsInOrder]
  | addElement obj =>
    obtain ⟨before, after, heq, hadd, hafter, hbefore⟩ := @addElement_eq _ compareTo s obj
    refine iff_of_true ?_ trivial
    rw [step, hadd]
    exact ascending_insert h (heq ▸ hs) hafter hbefore
  | removeElementAt i =>
    refine iff_of_true ?_ trivial
    rw [step, removeElementAt]
    split
    · exact hs.sublist (List.eraseIdx_sublist ..)
    · exact hs

theorem ascending_construct {con : Construction α}
    (h : TotalPreorder ((construct compareTo con).compare compareTo)) :
    Ascending ((construct compareTo con).compare compareTo) (construct compareTo con).v := by
  cases con with
  | new => exact List.Pairwise.nil
  | ofCollection elements => exact ascending_mergeSort h elements
  | ofComparator comparator => exact List.Pairwise.nil

theorem construct_perm (con : Construction α) : (construct compareTo con).v.Perm con.elements := by
  cases con with
  | new => exact List.Perm.refl _
  | ofCollection elements => exact List.mergeSort_perm elements _
  | ofComparator comparator => exact List.Perm.refl _

end

/-- **Runs of a sorted vector.**  The elements are in ascending order after every call if and only
if each `addElements` puts its elements in order at the end.  In any run the elements are those
that were added without those that were removed, and a new element comes after all that are equal
to it. -/
theorem sortedVector_run (compareTo : α → α → ℤ) (con : Construction α)
    (h : TotalPreorder ((construct compareTo con).compare compareTo)) (calls : List (Call α)) :
    (Meets (step compareTo) (AddsInOrder compareTo) (construct compareTo con) calls ↔
      ∀ done, done <+: calls → Ascending ((construct compareTo con).compare compareTo)
        (run (step compareTo) (construct compareTo con) done).v) ∧
    ((run (step compareTo) (construct compareTo con) calls).v ++
        outputs (step compareTo) removed (construct compareTo con) calls).Perm
      (con.elements ++ calls.flatMap Call.added) ∧
    ∀ obj, ∃ before after,
      (run (step compareTo) (construct compareTo con) calls).v = before ++ after ∧
      ((run (step compareTo) (construct compareTo con) calls).addElement compareTo obj).v =
        before ++ obj :: after ∧
      ∀ x ∈ after, (construct compareTo con).compare compareTo obj x < 0 := by
  have hcomparator : ∀ done : List (Call α),
      (run (step compareTo) (construct compareTo con) done).comparator =
        (construct compareTo con).comparator := fun done =>
    run_invariant (I := fun s : SortedVector α => s.comparator = (construct compareTo con).comparator)
      (fun s c hs => (step_comparator c).trans hs) done rfl
  refine ⟨?_, ?_, fun obj => ?_⟩
  · have hmeets : Meets (step compareTo) (AddsInOrder compareTo) (construct compareTo con) calls ↔
        ∀ done, done <+: calls →
          (run (step compareTo) (construct compareTo con) done).comparator =
              (construct compareTo con).comparator ∧
            Ascending ((run (step compareTo) (construct compareTo con) done).compare compareTo)
              (run (step compareTo) (construct compareTo con) done).v := by
      refine meets_iff_forall_prefix
        (I := fun s : SortedVector α => s.comparator = (construct compareTo con).comparator ∧
          Ascending (s.compare compareTo) s.v) (fun s c hs => ?_) ⟨rfl, ascending_construct h⟩ calls
      have hcompare : TotalPreorder (s.compare compareTo) := by
        rw [SortedVector.compare, hs.1]
        exact h
      have hstep := ascending_step hcompare hs.2 c
      rw [step_comparator, SortedVector.compare, step_comparator]
      exact ⟨fun hnext => hstep.mp hnext.2, fun hadds => ⟨hs.1, hstep.mpr hadds⟩⟩
    refine hmeets.trans ⟨fun hall done hdone => ?_, fun hall done hdone => ⟨hcomparator done, ?_⟩⟩
    · have hdone := (hall done hdone).2
      rwa [SortedVector.compare, hcomparator] at hdone
    · rw [SortedVector.compare, hcomparator]
      exact hall done hdone
  · refine outputs_invariant
      (I := fun cs os (s : SortedVector α) =>
        (s.v ++ os).Perm (con.elements ++ cs.flatMap Call.added)) ?_ ?_ calls
    · rw [List.append_nil, List.flatMap_nil, List.append_nil]
      exact construct_perm con
    · intro cs os s c hs
      rw [List.flatMap_append, List.flatMap_singleton, ← List.append_assoc, ← List.append_assoc]
      have hmove : ((step compareTo s c).v ++ os ++ removed s c).Perm
          ((step compareTo s c).v ++ removed s c ++ os) := by
        rw [List.append_assoc, List.append_assoc]
        exact List.perm_append_comm.append_left _
      have hswap : (s.v ++ c.added ++ os).Perm (s.v ++ os ++ c.added) := by
        rw [List.append_assoc, List.append_assoc]
        exact List.perm_append_comm.append_left _
      exact hmove.trans (((step_perm c).append_right os).trans (hswap.trans (hs.append_right _)))
  · obtain ⟨before, after, heq, hadd, hafter, -⟩ := @addElement_eq _ compareTo
      (run (step compareTo) (construct compareTo con) calls) obj
    refine ⟨before, after, heq, by rw [hadd], ?_⟩
    rwa [SortedVector.compare, hcomparator] at hafter

/-- Numbers are compared by their difference. -/
theorem totalPreorder_sub : TotalPreorder fun a b : ℤ => a - b :=
  ⟨fun a b => by omega, fun a b c hab hbc => by omega⟩

theorem sortedVector_run_three :
    Ascending (fun a b => a - b)
      (run (step fun a b => a - b) (construct (fun a b => a - b) .new)
        [Call.addElement (3 : ℤ), .addElements [4, 5], .removeElementAt 0]).v :=
  (sortedVector_run (fun a b : ℤ => a - b) .new totalPreorder_sub
    [.addElement 3, .addElements [4, 5], .removeElementAt 0]).1.mp (by decide) _ List.prefix_rfl

/-- Two elements in the wrong order stay there. -/
theorem addElements_not_ascending :
    ¬ Ascending (fun a b => a - b)
      (run (step fun a b => a - b) (construct (fun a b => a - b) .new)
        [Call.addElements [(2 : ℤ), 1]]).v := by
  decide

end Sorting
end SoftPhone
