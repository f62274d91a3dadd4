import Mathlib.Data.List.Basic
import Mathlib.Logic.Function.Basic

/-!
# A table that its owners write by key

Owners put themselves into a table under a key and take the key out again.  Writing is by key
alone: putting in replaces whoever is there, and taking out does not look at who is there.

An owner keeps its own account of the keys that it holds, from what it has written itself
(`account`).  The table is `Owned` when it agrees with every account.  `owned_writes_iff` says
when it stays so: exactly when the owner that writes uses no key that somebody else holds.
-/

namespace SoftPhone
namespace Machine

variable {κ ο : Type*} [DecidableEq κ]

/-- What an owner asks of the table. -/
inductive Write (κ : Type*) where
  | add (k : κ)
  | remove (k : κ)
  deriving DecidableEq, Repr

namespace Write

/-- The key that is written. -/
def key : Write κ → κ
  | add k => k
  | remove k => k

/-- What one write of the owner `o` makes of the table. -/
def table (o : ο) (t : κ → Option ο) : Write κ → κ → Option ο
  | add k => Function.update t k (some o)
  | remove k => Function.update t k none

/-- What one write makes of the keys that its owner holds. -/
def account (H : κ → Prop) : Write κ → κ → Prop
  | add k => fun j => j = k ∨ H j
  | remove k => fun j => j ≠ k ∧ H j

end Write

/-- The table after the writes of the owner `o`. -/
def writes (o : ο) (t : κ → Option ο) (ws : List (Write κ)) : κ → Option ο :=
  ws.foldl (Write.table o) t

/-- The keys that an owner holds after its writes. -/
def account (H : κ → Prop) (ws : List (Write κ)) : κ → Prop :=
  ws.foldl Write.account H

@[simp] theorem writes_nil (o : ο) (t : κ → Option ο) : writes o t [] = t := rfl

@[simp] theorem writes_cons (o : ο) (t : κ → Option ο) (w : Write κ) (ws : List (Write κ)) :
    writes o t (w :: ws) = writes o (w.table o t) ws := rfl

omit [DecidableEq κ] in
@[simp] theorem account_nil (H : κ → Prop) : account H [] = H := rfl

omit [DecidableEq κ] in
@[simp] theorem account_cons (H : κ → Prop) (w : Write κ) (ws : List (Write κ)) :
    account H (w :: ws) = account (w.account H) ws := rfl

/-! ## What the writes of one owner leave alone -/

/-- A key that is not written keeps its entry. -/
theorem writes_of_forall_ne (o : ο) (t : κ → Option ο) {ws : List (Write κ)} {k : κ}
    (h : ∀ w ∈ ws, w.key ≠ k) : writes o t ws k = t k := by
  induction ws generalizing t with
  | nil => rfl
  | cons w ws ih =>
    have hne : k ≠ w.key := (h w (List.mem_cons_self ..)).symm
    have hrest : ∀ v ∈ ws, v.key ≠ k := fun v hv => h v (List.mem_cons_of_mem _ hv)
    rw [writes_cons, ih (w.table o t) hrest]
    cases w with
    | add j => exact Function.update_of_ne hne ..
    | remove j => exact Function.update_of_ne hne ..

/-! ## What the writes of one owner take -/

/-- Nobody but `o` is in the table under the key. -/
def Mine (o : ο) (t : κ → Option ο) (k : κ) : Prop := t k = some o ∨ t k = none

theorem mine_table_self (o : ο) (t : κ → Option ο) (w : Write κ) : Mine o (w.table o t) w.key := by
  cases w with
  | add j => exact .inl (Function.update_self ..)
  | remove j => exact .inr (Function.update_self ..)

theorem Mine.table {o : ο} {t : κ → Option ο} {k : κ} (h : Mine o t k) (w : Write κ) :
    Mine o (w.table o t) k := by
  by_cases hk : k = w.key
  · rw [hk]
    exact mine_table_self o t w
  · have hsame : w.table o t k = t k := by
      cases w with
      | add j => exact Function.update_of_ne hk ..
      | remove j => exact Function.update_of_ne hk ..
    rw [Mine, hsame]
    exact h

theorem Mine.writes {o : ο} {t : κ → Option ο} {k : κ} (h : Mine o t k) (ws : List (Write κ)) :
    Mine o (writes o t ws) k := by
  induction ws generalizing t with
  | nil => exact h
  | cons w ws ih => exact ih (h.table w)

/-- A key that was written belongs to the owner that wrote it, or to nobody. -/
theorem mine_writes_of_mem (o : ο) (t : κ → Option ο) {ws : List (Write κ)} {w : Write κ}
    (hw : w ∈ ws) : Mine o (writes o t ws) w.key := by
  induction ws generalizing t with
  | nil => cases hw
  | cons v ws ih =>
    rcases List.mem_cons.mp hw with rfl | hw
    · exact (mine_table_self o t w).writes ws
    · exact ih (v.table o t) hw

/-- The account of the owner that writes stays true. -/
theorem writes_iff_account {o : ο} {t : κ → Option ο} {H : κ → Prop}
    (h : ∀ k, t k = some o ↔ H k) (ws : List (Write κ)) (k : κ) :
    writes o t ws k = some o ↔ account H ws k := by
  induction ws generalizing t H with
  | nil => exact h k
  | cons w ws ih =>
    refine ih (t := w.table o t) (H := w.account H) fun j => ?_
    by_cases hj : j = w.key
    · cases w with
      | add i => simp [Write.table, Write.account, show j = i from hj]
      | remove i => simp [Write.table, Write.account, show j = i from hj]
    · cases w with
      | add i =>
        have hne : j ≠ i := hj
        simp [Write.table, Write.account, hne, h]
      | remove i =>
        have hne : j ≠ i := hj
        simp [Write.table, Write.account, hne, h]

/-! ## Owned tables -/

/-- The table agrees with the accounts of the owners. -/
def Owned (t : κ → Option ο) (H : ο → κ → Prop) : Prop := ∀ o k, t k = some o ↔ H o k

/-- The owner uses no key that somebody else holds. -/
def Exclusive (H : ο → κ → Prop) (o : ο) (ws : List (Write κ)) : Prop :=
  ∀ w ∈ ws, ∀ o', o' ≠ o → ¬ H o' w.key

/-- **When a table stays owned.**  The accounts after the writes are the ones before, but for
the owner that writes. -/
theorem owned_writes_iff {t : κ → Option ο} {H H' : ο → κ → Prop} (h : Owned t H) {o : ο}
    {ws : List (Write κ)} (hself : ∀ k, H' o k ↔ account (H o) ws k)
    (hothers : ∀ o', o' ≠ o → ∀ k, H' o' k ↔ H o' k) :
    Owned (writes o t ws) H' ↔ Exclusive H o ws := by
  constructor
  · intro howned w hw o' hne hheld
    have hentry : writes o t ws w.key = some o' := (howned o' _).mpr ((hothers o' hne _).mpr hheld)
    rcases mine_writes_of_mem o t hw with hmine | hnone
    · rw [hmine] at hentry
      exact hne (Option.some.inj hentry).symm
    · rw [hnone] at hentry
      cases hentry
  · intro hexclusive o' k
    by_cases hne : o' = o
    · rw [hne, hself]
      exact writes_iff_account (h o) ws k
    · rw [hothers o' hne]
      by_cases hwritten : ∃ w ∈ ws, w.key = k
      · obtain ⟨w, hw, rfl⟩ := hwritten
        refine iff_of_false (fun hentry => ?_) (hexclusive w hw o' hne)
        rcases mine_writes_of_mem o t hw with hmine | hnone
        · rw [hmine] at hentry
          exact hne (Option.some.inj hentry).symm
        · rw [hnone] at hentry
          cases hentry
      · have hother : ∀ w ∈ ws, w.key ≠ k := fun w hw hk => hwritten ⟨w, hw, hk⟩
        rw [writes_of_forall_ne o t hother]
        exact h o' k

end Machine
end SoftPhone
