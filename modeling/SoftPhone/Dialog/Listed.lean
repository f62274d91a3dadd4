import SoftPhone.Dialog.Shifts

/-!
# The dialog in the table of its provider

A dialog that has an identifier is in the table under it as long as it is not closed, whatever
state it is in, and no identifier of a dialog but this one is ever left in the table.
-/

namespace SoftPhone

open Machine

/-- `D_ReWAITING`, ..., `D_ReACCEPTED`: the states of a re-INVITE. -/
def Status.IsRenegotiating (s : Status) : Prop :=
  s = reWaiting ∨ s = reInviting ∨ s = reInvited ∨ s = reRefused ∨ s = reAccepted

instance (s : Status) : Decidable s.IsRenegotiating :=
  inferInstanceAs (Decidable (_ ∨ _ ∨ _ ∨ _ ∨ _))

/-- The predicates over the fifteen states leave out exactly `D_CLOSE`. -/
theorem Status.ne_close_iff (s : Status) :
    s ≠ .close ↔ s.isEarly = true ∨ s.isConfirmed = true ∨ s.IsRenegotiating := by
  cases s <;> decide

namespace World

variable {S : SipStack}

/-- The table knows the dialog under its identifier, and no other dialog. -/
structure Listed (w : World) : Prop where
  plain : w.Plain
  dialogId : ∀ id, w.dlg.dialogId = some id → ¬ id.IsPlain
  listed : ∀ id, w.dlg.dialogId = some id → w.status ≠ .close →
    w.provider.sipListeners id = some .dialog
  alone : ∀ id a, ¬ id.IsPlain → w.provider.sipListeners id = some a → a = .dialog
  registered : w.Registered

theorem Listed.of_steady {w w' : World} (h : w.Listed) (hs : Steady w w') : w'.Listed where
  plain := hs.plain h.plain
  dialogId := by
    rw [hs.dialogId]
    exact h.dialogId
  listed := by
    intro id hid hopen
    rw [hs.dialogId] at hid
    rw [hs.status] at hopen
    rw [hs.listeners h.plain id (h.dialogId id hid)]
    exact h.listed id hid hopen
  alone := by
    intro id a hid ha
    rw [hs.listeners h.plain id hid] at ha
    exact h.alone id a hid ha
  registered := by
    intro id hid
    rw [hs.dialogId, hs.status]
    exact h.registered id (hs.dialog id hid)

/-- An entry after calls of the dialog is one of the dialog, or it was there. -/
theorem entry_of_calls {p : SipProvider} {cs : List ProviderCall} {id : SipId} {a : Agent}
    (h : (p.calls .dialog cs).sipListeners id = some a) :
    a = .dialog ∨ p.sipListeners id = some a := by
  by_cases ha : a = .dialog
  · exact .inl ha
  · exact .inr (SipProvider.listener_calls_of_ne (fun h => ha h.symm) cs h)

theorem Listed.changeStatus {w : World} (h : w.Listed) {s : Status}
    (hs : w.status = .close → s = .close) : (w.changeStatus s).Listed where
  plain := h.plain.congr rfl rfl rfl rfl rfl rfl
  dialogId := h.dialogId
  listed := by
    intro id hid hopen
    have hentry := h.listed id hid fun hclose => hopen (hs hclose)
    have hnothing : w.statusCalls s = [] := by
      unfold statusCalls
      rw [show w.dlg.dialogId = some id from hid]
      dsimp only
      rw [if_neg (show ¬ s = .close from hopen), hentry]
      simp
    show (w.provider.calls .dialog (w.statusCalls s)).sipListeners id = some .dialog
    rw [hnothing]
    exact hentry
  alone := by
    intro id a hid ha
    rcases entry_of_calls ha with rfl | hold
    · rfl
    · exact h.alone id a hid hold
  registered := registered_changeStatus s h.registered

theorem Listed.updateDialogInfo {w : World} (h : w.Listed) (isClient : Bool) (m : SipMessage) :
    (w.updateDialogInfo isClient m).Listed where
  plain := h.plain.congr rfl rfl rfl rfl rfl rfl
  dialogId := by
    intro id hid
    by_cases hclose : w.dlg.status = .close
    · rw [show (w.updateDialogInfo isClient m).dlg.dialogId = w.dlg.dialogId from if_pos hclose] at hid
      exact h.dialogId id hid
    · rw [show (w.updateDialogInfo isClient m).dlg.dialogId =
        some (w.dlg.info.update isClient m).dialogId from if_neg hclose] at hid
      rw [← Option.some.inj hid]
      exact not_false
  listed := by
    intro id hid hopen
    have hnew : (w.dlg.updateInfo isClient m).dialogId = some id := hid
    show (w.provider.calls .dialog (if (w.dlg.updateInfo isClient m).dialogId = w.dlg.dialogId then
      [] else _)).sipListeners id = some .dialog
    by_cases hsame : (w.dlg.updateInfo isClient m).dialogId = w.dlg.dialogId
    · rw [if_pos hsame]
      exact h.listed id (hsame ▸ hnew) hopen
    · rw [if_neg hsame, hnew]
      cases hold : w.dlg.dialogId with
      | none => simp [SipProvider.calls, SipProvider.call]
      | some old =>
        have hne : id ≠ old := by
          rintro rfl
          exact hsame (hnew.trans hold.symm)
        simp [SipProvider.calls, SipProvider.call, Function.update_of_ne hne]
  alone := by
    intro id a hid ha
    rcases entry_of_calls ha with rfl | hold
    · rfl
    · exact h.alone id a hid hold
  registered := registered_updateDialogInfo isClient m h.registered

/-- Every piece keeps the dialog listed. -/
theorem Listed.shift {U : List (Bool × SipMessage)} {w w' : World} (hpiece : Shift U w w')
    (h : w.Listed) : w'.Listed := by
  cases hpiece with
  | steady hs => exact h.of_steady hs
  | changes hs => exact h.changeStatus fun hclose => by_contra fun hopen => hs (.inl ⟨hclose, hopen⟩)
  | @invites s _ m hw =>
    have hreq := (h.changeStatus (s := s) fun hclose => absurd hclose hw).of_steady
      (steady_setInviteReq _ m)
    exact hreq.updateDialogInfo _ _
  | updates => exact h.updateDialogInfo _ _

theorem listed_step {w : World} (h : w.Listed) (e : Event) : (w.step S e).Listed :=
  (shifted_step h.registered e).induction (fun _ _ hpiece hw => hw.shift hpiece) h

theorem listed_init (S : SipStack) : (init S).Listed where
  plain := by
    constructor <;>
    · intro r t h
      cases h
  dialogId := nofun
  listed := nofun
  alone := nofun
  registered := nofun

theorem Start.listed {w : World} (h : Start S w) : w.Listed := by
  cases h with
  | init => exact listed_init S
  | ofInvite invite =>
    exact (shifted_ofInvite invite.1).induction (fun _ _ hpiece hw => hw.shift hpiece)
      (listed_init S)

end World
end SoftPhone
