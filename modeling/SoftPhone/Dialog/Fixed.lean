import SoftPhone.Dialog.Listed
import SoftPhone.Dialog.Acknowledged
import SoftPhone.Sip.Update

/-!
# What a confirmed dialog is called

The Call-ID of a dialog, its tags and its route set are those of the first 2xx only if every
message that the dialog is updated with later on agrees with them: `update` sets one tag from
every message, and the route set from every Record-Route.
-/

namespace SoftPhone

open Machine

namespace DialogInfo

/-- The message names no other route set. -/
def KeepsRoute (d : DialogInfo) (isClient : Bool) (m : SipMessage) : Prop :=
  if isClient then
    (m.isResponse = true → m.recordRoutes = [] ∨ d.route = some m.recordRoutes.reverse) ∧
      (m.isRequest = true → m.routes = [] ∨ d.route ≠ none)
  else
    m.isRequest = true → d.route = some m.recordRoutes ∨
      m.recordRoutes = [] ∧ (m.routes = [] ∨ d.route ≠ none)

/-- The message carries the tags of the dialog, and it names no other route set. -/
def Agrees (d : DialogInfo) (isClient : Bool) (m : SipMessage) : Prop :=
  (if isClient then m.toTag = d.remoteTag ∧ (d.localTag = none → m.fromTag = none)
    else m.toTag = d.localTag ∧ (d.remoteTag = none → m.fromTag = none)) ∧
  d.KeepsRoute isClient m

instance (d : DialogInfo) (isClient : Bool) (m : SipMessage) : Decidable (d.KeepsRoute isClient m) := by
  unfold KeepsRoute
  infer_instance

instance (d : DialogInfo) (isClient : Bool) (m : SipMessage) : Decidable (d.Agrees isClient m) := by
  unfold Agrees
  infer_instance

/-- Whether a message agrees depends on the identity only. -/
theorem agrees_congr {d d' : DialogInfo} (h : d'.identity = d.identity) (isClient : Bool)
    (m : SipMessage) : d'.Agrees isClient m ↔ d.Agrees isClient m := by
  have hlocal : d'.localTag = d.localTag := congrArg Identity.localTag h
  have hremote : d'.remoteTag = d.remoteTag := congrArg Identity.remoteTag h
  have hroute : d'.route = d.route := congrArg Identity.route h
  unfold Agrees KeepsRoute
  rw [hlocal, hremote, hroute]

theorem clientRoute_iff (d : DialogInfo) (m : SipMessage) :
    clientRoute d m = d.route ↔ d.KeepsRoute true m := by
  unfold clientRoute KeepsRoute
  rw [if_pos rfl, m.isResponse_eq]
  cases m.isRequest <;> cases hr : m.recordRoutes <;> cases ht : m.routes <;>
    cases hd : d.route <;> simp [eq_comm]

theorem serverRoute_iff (d : DialogInfo) (m : SipMessage) :
    serverRoute d m = d.route ↔ d.KeepsRoute false m := by
  unfold serverRoute KeepsRoute
  rw [if_neg Bool.false_ne_true]
  cases m.isRequest <;> cases hr : m.recordRoutes <;> cases ht : m.routes <;>
    cases hd : d.route <;> simp [eq_comm]

/-- A tag that is taken over where there is none stays as it is. -/
theorem orElse_eq_left_iff {known given : Option String} :
    (known <|> given) = known ↔ (known = none → given = none) := by
  cases known with
  | none => simp
  | some tag => simp

/-- **An update keeps the identity exactly when the message agrees with it.** -/
theorem identity_update_iff {d : DialogInfo} (hcall : d.callId ≠ none) (isClient : Bool)
    (m : SipMessage) : (d.update isClient m).identity = d.identity ↔ d.Agrees isClient m := by
  have hknown (c : String) : (d.callId <|> some c) = d.callId :=
    orElse_eq_left_iff.mpr fun h => absurd h hcall
  unfold identity Agrees
  rw [Identity.mk.injEq]
  cases isClient with
  | true =>
    obtain ⟨hc, -, -, hl, hr, -, -, -, hroute⟩ := update_client d m
    rw [hc, hl, hr, hroute, hknown, orElse_eq_left_iff, clientRoute_iff]
    simp only [true_and, if_true]
    tauto
  | false =>
    obtain ⟨hc, -, -, hl, hr, -, -, -, hroute⟩ := update_server d m
    rw [hc, hl, hr, hroute, hknown, orElse_eq_left_iff, serverRoute_iff]
    simp only [true_and, Bool.false_eq_true, if_false]
    tauto

end DialogInfo

namespace World

variable {S : SipStack}

/-- Every message that the dialog is updated with agrees with its identity. -/
def IsUpdatedAlike (S : SipStack) (w : World) (e : Event) : Prop :=
  ∀ p ∈ w.updates S e, w.dlg.info.Agrees p.1 p.2

instance (w : World) (e : Event) : Decidable (IsUpdatedAlike S w e) :=
  inferInstanceAs (Decidable (∀ p ∈ w.updates S e, w.dlg.info.Agrees p.1 p.2))

/-- Once a call has begun the dialog has a Call-ID. -/
def HasCallId (w : World) : Prop :=
  w.status = .init ∨ w.status = .waiting ∨ w.status = .close ∨ w.dlg.info.callId ≠ none

/-- An update leaves a Call-ID behind. -/
theorem callId_update (d : DialogInfo) (isClient : Bool) (m : SipMessage) :
    (d.update isClient m).callId ≠ none := by
  have hsome : (d.callId <|> some m.callId) ≠ none := by
    cases d.callId <;> simp
  cases isClient with
  | true =>
    rw [(d.update_client m).callId]
    exact hsome
  | false =>
    rw [(d.update_server m).callId]
    exact hsome

theorem info_updateDialogInfo {w : World} (hw : w.status ≠ .close) (isClient : Bool)
    (m : SipMessage) :
    (w.updateDialogInfo isClient m).dlg.info = w.dlg.info.update isClient m :=
  if_neg hw

theorem HasCallId.shift {U : List (Bool × SipMessage)} {w w' : World} (hpiece : Shift U w w')
    (h : w.HasCallId) : w'.HasCallId := by
  cases hpiece with
  | steady hs =>
    unfold HasCallId
    rw [hs.status, show w'.dlg.info.callId = w.dlg.info.callId from
      congrArg Identity.callId hs.identity]
    exact h
  | @changes s hs =>
    have hquiet (hw : w.status = .init ∨ w.status = .waiting) : s = .waiting ∨ s = .close := by
      by_contra hne
      rw [not_or] at hne
      exact hs (.inr ⟨hw, hne⟩)
    rcases h with hinit | hwaiting | hclose | hcall
    · exact .inr ((hquiet (.inl hinit)).imp_right .inl)
    · exact .inr ((hquiet (.inr hwaiting)).imp_right .inl)
    · refine .inr (.inr (.inl ?_))
      by_contra hopen
      exact hs (.inl ⟨hclose, hopen⟩)
    · exact .inr (.inr (.inr hcall))
  | @invites s isClient m hw hs =>
    refine .inr (.inr (.inr ?_))
    rw [info_updateDialogInfo (w := (w.changeStatus s).setInviteReq m) hs]
    exact callId_update _ isClient m
  | @updates isClient m =>
    by_cases hw : w.status = .close
    · exact .inr (.inr (.inl hw))
    · refine .inr (.inr (.inr ?_))
      rw [info_updateDialogInfo hw]
      exact callId_update _ isClient m

/-- A piece keeps the identity of a dialog that has a Call-ID, if the messages agree with it. -/
theorem identity_shift {U : List (Bool × SipMessage)} {d : DialogInfo} (hcall : d.callId ≠ none)
    (hU : ∀ p ∈ U, d.Agrees p.1 p.2) {w w' : World} (hpiece : Shift U w w')
    (h : w.dlg.info.identity = d.identity) : w'.dlg.info.identity = d.identity := by
  have hupdate {w : World} {isClient : Bool} {m : SipMessage} (hw : w.status ≠ .close)
      (hm : (isClient, m) ∈ U) (h : w.dlg.info.identity = d.identity) :
      (w.updateDialogInfo isClient m).dlg.info.identity = d.identity := by
    have hcall' : w.dlg.info.callId ≠ none := by
      rwa [show w.dlg.info.callId = d.callId from congrArg Identity.callId h]
    rw [info_updateDialogInfo hw, ← h, DialogInfo.identity_update_iff hcall',
      DialogInfo.agrees_congr h]
    exact hU _ hm
  cases hpiece with
  | steady hs => exact hs.identity.trans h
  | changes => exact h
  | @invites s isClient m hw hs hm => exact hupdate (w := (w.changeStatus s).setInviteReq m) hs hm h
  | @updates isClient m hm =>
    by_cases hw : w.status = .close
    · rw [show (w.updateDialogInfo isClient m).dlg.info = w.dlg.info from if_pos hw]
      exact h
    · exact hupdate hw (hm hw) h

theorem hasCallId_run {w : World} (hw : Start S w) (es : List Event) : (run (step S) w es).HasCallId := by
  have hstart : w.HasCallId := by
    cases hw with
    | init => exact .inl rfl
    | ofInvite invite =>
      exact (shifted_ofInvite invite.1).induction (I := HasCallId)
        (fun _ _ hpiece h => h.shift hpiece) (.inl rfl)
  have hrun : (run (step S) w es).Listed ∧ (run (step S) w es).HasCallId :=
    run_invariant (I := fun w : World => w.Listed ∧ w.HasCallId) (fun w e hI =>
      ⟨listed_step hI.1 e, (shifted_step hI.1.registered e).induction (I := HasCallId)
        (fun _ _ hpiece h => h.shift hpiece) hI.2⟩) es ⟨hw.listed, hstart⟩
  exact hrun.2

/-- **What a confirmed dialog is called stays fixed** in every run whose messages agree with it. -/
theorem identity_fixed {w : World} (hw : Start S w) (es fs : List Event)
    (hconfirmed : (run (step S) w es).status.isConfirmed = true)
    (halike : Meets (step S) (IsUpdatedAlike S) (run (step S) w es) fs) :
    (run (step S) w (es ++ fs)).dlg.info.identity = (run (step S) w es).dlg.info.identity := by
  have hcall : (run (step S) w es).dlg.info.callId ≠ none := by
    rcases hasCallId_run hw es with h | h | h | h
    · rw [h] at hconfirmed
      exact absurd hconfirmed (by decide)
    · rw [h] at hconfirmed
      exact absurd hconfirmed (by decide)
    · rw [h] at hconfirmed
      exact absurd hconfirmed (by decide)
    · exact h
  have hlisted : (run (step S) w es).Listed :=
    run_invariant (I := Listed) (fun _ e hI => listed_step hI e) es hw.listed
  rw [run_append]
  set w₁ := run (step S) w es
  have hrun := run_invariant_of_meets (I := fun w : World =>
      w.Listed ∧ w.dlg.info.identity = w₁.dlg.info.identity)
    (fun w e he hI => ⟨listed_step hI.1 e, (shifted_step hI.1.registered e).induction
      (fun _ _ hpiece h => identity_shift hcall (fun p hp =>
        (DialogInfo.agrees_congr hI.2 p.1 p.2).mp (he p hp)) hpiece h) hI.2⟩)
    halike ⟨hlisted, rfl⟩
  exact hrun.2

/-- Alice's re-INVITE in the call that bob has answered. -/
def sampleSecondInvite : Request .invite := ⟨sampleRequest .invite 2 (some "tag") "2", rfl, rfl⟩

/-- Bob takes the re-INVITE. -/
theorem identity_fixed_taken :
    (run (step {}) (init {}) (sampleCall ++ [.api (.reInviteMessage sampleSecondInvite),
      .recv (sampleResponse sampleSecondInvite 200)])).dlg.info.identity =
    (run (step {}) (init {}) sampleCall).dlg.info.identity :=
  identity_fixed .init sampleCall _ (by decide +kernel) (by decide +kernel)

/-- **A ringing with another To tag renames the dialog.** -/
theorem renamed :
    ¬ ∀ (S : SipStack) (w : World), Start S w → ∀ es fs : List Event,
      (run (step S) w es).status.isConfirmed = true →
      (run (step S) w (es ++ fs)).dlg.info.identity = (run (step S) w es).dlg.info.identity := by
  intro h
  have hsame := h {} (init {}) .init sampleCall [.api (.reInviteMessage sampleSecondInvite),
    .recv { sampleResponse sampleSecondInvite 180 with toTag := some "other" }] (by decide +kernel)
  exact absurd hsame (by decide +kernel)

end World
end SoftPhone
