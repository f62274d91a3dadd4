import Mathlib.Data.Nat.Notation
import Mathlib.Logic.Function.Basic
import Mathlib.Order.Basic
import Mathlib.Tactic.ByContra

/-!
# A heap of objects

Objects are reached through references, and a reference is a number.  The heap
gives out fresh numbers in order, so `get r` is `none` from `next` on --- a
field of the structure, not a fact to be carried along.

`put` writes an object under a reference that is already given out, or under one
chosen by the caller; `new` writes it under the next one; `modify` changes the
object under a reference.

`Extends f h h' bs` compares two heaps by a view `f` of their objects: the objects of
`h` look the same in `h'`, and the new ones of `h'` look, in order, like `bs`.
-/

namespace SoftPhone
namespace Machine

variable {α : Type*}

/-- Objects under the references `0, …, next - 1`. -/
structure Heap (α : Type*) where
  /-- The next reference to be given out. -/
  next : ℕ
  /-- The object under a reference. -/
  get : ℕ → Option α
  /-- Nothing lies beyond the references given out. -/
  get_of_le : ∀ r, next ≤ r → get r = none

namespace Heap

/-- The heap without objects. -/
def empty : Heap α := ⟨0, fun _ => none, fun _ _ => rfl⟩

/-- Write `a` under `r`. -/
def put (h : Heap α) (r : ℕ) (a : α) : Heap α where
  next := max h.next (r + 1)
  get := Function.update h.get r (some a)
  get_of_le := by
    intro s hs
    have hne : s ≠ r := by omega
    rw [Function.update_of_ne hne]
    exact h.get_of_le s (by omega)

/-- Write `a` under a fresh reference. -/
def new (h : Heap α) (a : α) : Heap α :=
  h.put h.next a

/-- Apply `f` to the object under `r`, if there is one. -/
def modify (h : Heap α) (r : ℕ) (f : α → α) : Heap α where
  next := h.next
  get := Function.update h.get r ((h.get r).map f)
  get_of_le := by
    intro s hs
    by_cases hsr : s = r
    · rw [hsr, Function.update_self, ← hsr, h.get_of_le s hs, Option.map_none]
    · rw [Function.update_of_ne hsr]
      exact h.get_of_le s hs

@[simp] theorem get_empty (r : ℕ) : (empty : Heap α).get r = none := rfl

@[simp] theorem get_put_self (h : Heap α) (r : ℕ) (a : α) : (h.put r a).get r = some a :=
  Function.update_self ..

theorem get_put_of_ne (h : Heap α) {r s : ℕ} (hne : s ≠ r) (a : α) :
    (h.put r a).get s = h.get s :=
  Function.update_of_ne hne ..

/-- What a heap holds after one write: the object written, or what was there. -/
theorem get_put (h : Heap α) (r s : ℕ) (a : α) :
    (h.put r a).get s = if s = r then some a else h.get s := by
  by_cases hsr : s = r
  · rw [if_pos hsr, hsr, get_put_self]
  · rw [if_neg hsr, get_put_of_ne h hsr]

/-- An object of which `P` holds is still there after a write that keeps `P`. -/
theorem exists_get_put {h : Heap α} {P : α → Prop} {r s : ℕ} {a b : α} (hget : h.get r = some a)
    (hkeep : s = r → P a → P b) (hs : ∃ c, h.get s = some c ∧ P c) :
    ∃ c, (h.put r b).get s = some c ∧ P c := by
  obtain ⟨c, hc, hP⟩ := hs
  by_cases hsr : s = r
  · subst hsr
    obtain rfl := Option.some.inj (hget.symm.trans hc)
    exact ⟨b, get_put_self .., hkeep rfl hP⟩
  · exact ⟨c, (get_put_of_ne h hsr b).trans hc, hP⟩

@[simp] theorem get_new_self (h : Heap α) (a : α) : (h.new a).get h.next = some a :=
  get_put_self ..

theorem get_new (h : Heap α) (s : ℕ) (a : α) :
    (h.new a).get s = if s = h.next then some a else h.get s :=
  get_put ..

/-- What a heap holds after one object was changed. -/
theorem get_modify (h : Heap α) (r s : ℕ) (f : α → α) :
    (h.modify r f).get s = if s = r then (h.get r).map f else h.get s := by
  by_cases hsr : s = r
  · rw [if_pos hsr, hsr]
    exact Function.update_self ..
  · rw [if_neg hsr]
    exact Function.update_of_ne hsr ..

@[ext] theorem ext {h h' : Heap α} (hnext : h.next = h'.next) (hget : h.get = h'.get) : h = h' := by
  cases h
  cases h'
  subst hnext hget
  rfl

theorem lt_next_of_get {h : Heap α} {r : ℕ} {a : α} (hr : h.get r = some a) : r < h.next := by
  by_contra hle
  rw [h.get_of_le r (Nat.not_lt.mp hle)] at hr
  exact absurd hr (by simp)

/-- Changing an object is writing it again. -/
theorem modify_of_get {h : Heap α} {r : ℕ} {a : α} (hr : h.get r = some a) (f : α → α) :
    h.modify r f = h.put r (f a) := by
  have hlt : r < h.next := lt_next_of_get hr
  ext1
  · show h.next = max h.next (r + 1)
    omega
  · show Function.update h.get r ((h.get r).map f) = Function.update h.get r (some (f a))
    rw [hr, Option.map_some]

theorem modify_of_none {h : Heap α} {r : ℕ} (hr : h.get r = none) (f : α → α) :
    h.modify r f = h := by
  ext1
  · rfl
  · show Function.update h.get r ((h.get r).map f) = h.get
    rw [hr, Option.map_none, ← hr, Function.update_eq_self]

/-- A fresh object takes the place of no other. -/
theorem get_new_of_get {h : Heap α} {r : ℕ} {b : α} (hr : h.get r = some b) (a : α) :
    (h.new a).get r = some b := by
  rw [get_new, if_neg (Nat.ne_of_lt (lt_next_of_get hr))]
  exact hr

/-- A fresh object is written again. -/
theorem put_new (h : Heap α) (a b : α) : (h.new a).put h.next b = h.new b := by
  ext1
  · show max (max h.next (h.next + 1)) (h.next + 1) = max h.next (h.next + 1)
    omega
  · exact Function.update_idem ..

/-- A property of every object survives the write of an object that has it. -/
theorem forall_put {P : ℕ → α → Prop} {h : Heap α} {r : ℕ} {a : α}
    (hall : ∀ s b, h.get s = some b → P s b) (ha : P r a) :
    ∀ s b, (h.put r a).get s = some b → P s b := by
  intro s b hb
  rw [get_put] at hb
  split at hb
  · next hsr =>
    rw [hsr, ← Option.some.inj hb]
    exact ha
  · exact hall s b hb

/-- A property of every object survives a change that keeps it. -/
theorem forall_modify {P : ℕ → α → Prop} {h : Heap α} {r : ℕ} {f : α → α}
    (hall : ∀ s b, h.get s = some b → P s b) (hf : ∀ a, P r a → P r (f a)) :
    ∀ s b, (h.modify r f).get s = some b → P s b := by
  intro s b hb
  rw [get_modify] at hb
  split at hb
  · next hsr =>
    obtain ⟨a, ha, rfl⟩ := Option.map_eq_some_iff.mp hb
    rw [hsr]
    exact hf a (hall r a ha)
  · exact hall s b hb

/-- The same for a fresh object. -/
theorem forall_new {P : ℕ → α → Prop} {h : Heap α} {a : α}
    (hall : ∀ s b, h.get s = some b → P s b) (ha : P h.next a) :
    ∀ s b, (h.new a).get s = some b → P s b :=
  forall_put hall ha

/-! ## Heaps that grow -/

variable {β : Type*} {f : α → β} {h h' h'' : Heap α} {bs cs : List β}

/-- The old objects keep their views, and the new ones have the views `bs`, in order. -/
structure Extends (f : α → β) (h h' : Heap α) (bs : List β) : Prop where
  next : h'.next = h.next + bs.length
  old : ∀ r < h.next, (h'.get r).map f = (h.get r).map f
  new : ∀ i, (h'.get (h.next + i)).map f = bs[i]?

theorem Extends.refl (f : α → β) (h : Heap α) : Extends f h h [] :=
  ⟨rfl, fun _ _ => rfl, fun i => by rw [h.get_of_le _ (Nat.le_add_right ..)]; rfl⟩

theorem Extends.trans (h₁ : Extends f h h' bs) (h₂ : Extends f h' h'' cs) :
    Extends f h h'' (bs ++ cs) := by
  have hnext := h₁.next
  refine ⟨?_, fun r hr => ?_, fun i => ?_⟩
  · rw [h₂.next, hnext, List.length_append, Nat.add_assoc]
  · rw [h₂.old r (by omega), h₁.old r hr]
  · by_cases hi : i < bs.length
    · rw [h₂.old _ (by omega), h₁.new, List.getElem?_append_left hi]
    · have hshift : h.next + i = h'.next + (i - bs.length) := by omega
      rw [hshift, h₂.new, List.getElem?_append_right (by omega)]

/-- An object is changed and keeps its view. -/
theorem extends_put {r : ℕ} {a b : α} (hget : h.get r = some a) (hview : f b = f a) :
    Extends f h (h.put r b) [] := by
  have hr : r < h.next := lt_next_of_get hget
  refine ⟨?_, fun s _ => ?_, fun i => ?_⟩
  · show max h.next (r + 1) = h.next
    omega
  · rw [get_put]
    split
    · next hsr => rw [hsr, hget, Option.map_some, Option.map_some, hview]
    · rfl
  · rw [get_put, if_neg (by omega), h.get_of_le _ (Nat.le_add_right ..)]
    rfl

theorem extends_modify (h : Heap α) (r : ℕ) {g : α → α} (hview : ∀ a, f (g a) = f a) :
    Extends f h (h.modify r g) [] := by
  have hmap (s : ℕ) : ((h.modify r g).get s).map f = (h.get s).map f := by
    rw [get_modify]
    split
    · next hsr =>
      rw [hsr, Option.map_map, show f ∘ g = f from funext hview]
    · rfl
  refine ⟨rfl, fun s _ => hmap s, fun i => ?_⟩
  rw [hmap, h.get_of_le _ (Nat.le_add_right ..)]
  rfl

theorem extends_new (h : Heap α) (a : α) : Extends f h (h.new a) [f a] := by
  refine ⟨?_, fun r hr => ?_, fun i => ?_⟩
  · show max h.next (h.next + 1) = h.next + 1
    omega
  · rw [get_new, if_neg (Nat.ne_of_lt hr)]
  · rw [get_new]
    cases i with
    | zero => rw [if_pos (Nat.add_zero _)]; rfl
    | succ i =>
      rw [if_neg (by omega), h.get_of_le _ (Nat.le_add_right ..)]
      rfl

/-- An object of the grown heap is an old one or one of the new ones. -/
theorem Extends.cases (hext : Extends f h h' bs) {r : ℕ} {a : α} (hget : h'.get r = some a) :
    (∃ b, h.get r = some b ∧ f b = f a) ∨ ∃ i, r = h.next + i ∧ bs[i]? = some (f a) := by
  by_cases hr : r < h.next
  · left
    have hold := hext.old r hr
    rw [hget, Option.map_some] at hold
    exact Option.map_eq_some_iff.mp hold.symm
  · right
    refine ⟨r - h.next, by omega, ?_⟩
    rw [← hext.new, show h.next + (r - h.next) = r by omega, hget, Option.map_some]

/-- A property of the views of all objects survives when the new ones have it. -/
theorem Extends.forall {P : β → Prop} (hext : Extends f h h' bs)
    (hold : ∀ r a, h.get r = some a → P (f a)) (hnew : ∀ b ∈ bs, P b) :
    ∀ r a, h'.get r = some a → P (f a) := by
  intro r a ha
  rcases hext.cases ha with ⟨b, hb, heq⟩ | ⟨i, -, hi⟩
  · exact heq ▸ hold r b hb
  · exact hnew _ (List.mem_of_getElem? hi)

/-- No two objects of the heap agree in `g`. -/
def Distinct {γ : Type*} (g : α → γ) (h : Heap α) : Prop :=
  ∀ r s a b, h.get r = some a → h.get s = some b → g a = g b → r = s

/-- A new object that agrees in `g` with no old one. -/
theorem Extends.distinct {γ : Type*} {g : β → γ} (hext : Extends f h h' bs)
    (hold : Distinct (g ∘ f) h) (hone : bs.length ≤ 1)
    (hnew : ∀ b ∈ bs, ∀ r a, h.get r = some a → g (f a) ≠ g b) : Distinct (g ∘ f) h' := by
  intro r s a b ha hb heq
  rcases hext.cases ha with ⟨a', ha', hfa⟩ | ⟨i, hi, hai⟩ <;>
    rcases hext.cases hb with ⟨b', hb', hfb⟩ | ⟨j, hj, hbj⟩
  · refine hold r s a' b' ha' hb' ?_
    rw [Function.comp_apply, Function.comp_apply, hfa, hfb]
    exact heq
  · refine absurd ?_ (hnew _ (List.mem_of_getElem? hbj) r a' ha')
    rw [hfa]
    exact heq
  · refine absurd ?_ (hnew _ (List.mem_of_getElem? hai) s b' hb')
    rw [hfb]
    exact heq.symm
  · have hi' : i < bs.length := (List.getElem?_eq_some_iff.mp hai).1
    have hj' : j < bs.length := (List.getElem?_eq_some_iff.mp hbj).1
    omega

/-- The objects from the reference `n` on, in order. -/
def since (h : Heap α) (n : ℕ) : List α :=
  (List.range' n (h.next - n)).filterMap h.get

theorem filterMap_getElem?_range (bs : List β) :
    (List.range bs.length).filterMap (fun i => bs[i]?) = bs := by
  induction bs with
  | nil => rfl
  | cons b bs ih =>
    rw [List.length_cons, List.range_succ_eq_map, List.filterMap_cons, List.filterMap_map]
    exact congrArg (b :: ·) ih

/-- The new objects are the ones since the old heap. -/
theorem Extends.since (hext : Extends f h h' bs) : (h'.since h.next).map f = bs := by
  have hlen : h'.next - h.next = bs.length := by
    rw [hext.next]
    omega
  have hget : (fun r => (h'.get r).map f) ∘ (h.next + ·) = fun i => bs[i]? := funext hext.new
  rw [Heap.since, hlen, List.map_filterMap, List.range'_eq_map_range, List.filterMap_map, hget]
  exact filterMap_getElem?_range bs

/-- An old object is still there. -/
theorem Extends.get (hext : Extends f h h' bs) {r : ℕ} {a : α} (hget : h.get r = some a) :
    ∃ b, h'.get r = some b ∧ f b = f a := by
  have hold := hext.old r (lt_next_of_get hget)
  rw [hget, Option.map_some] at hold
  exact Option.map_eq_some_iff.mp hold

end Heap
end Machine
end SoftPhone
