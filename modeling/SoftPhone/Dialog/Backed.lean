import SoftPhone.Dialog.Acknowledged
import SoftPhone.Dialog.Awaiting

/-!
# No call is stranded

In some states the dialog can do nothing but wait for one of its transactions: for the
INVITE client in D_INVITING, for the ACK of a failure response in D_REFUSED, for that of a
2xx in D_ACCEPTED, for the BYE client in D_BYEING.  `Backed` says that this transaction is
alive and has the dialog as its listener.

The code leaves three gaps.

* `InviteTransactionServer` ends at Timer H without a word, and the dialog stays in
  D_REFUSED, although `onTransAckTimeout` is written for that state as well.
* `cancel` terminates an INVITE client that has no provisional response yet, and the state
  stays D_INVITING.
* A 2xx whose CSeq names ACK finds the INVITE client as well; the client terminates, and the
  dialog takes no notice of the response.

`Undropped` excludes exactly these (`backed_iff`): each of them leaves the dialog stranded at
once.
-/

namespace SoftPhone

open Machine

namespace World

variable {S : SipStack}

/-- In a state in which the dialog waits for a transaction, the transaction is alive and
has the dialog as its listener. -/
structure Backed (w : World) : Prop where
  inviting : w.status.IsInviting → ∃ r t, w.dlg.inviteTc = some r ∧
    w.inviteClients.get r = some t ∧ t.status ≠ .terminated ∧ t.listener = true
  refused : w.status.IsRefused → ∃ r t, w.dlg.inviteTs = some r ∧
    w.inviteServers.get r = some t ∧ t.status ≠ .terminated ∧ t.listener = true
  accepted : w.status.IsAccepted → ∃ k t, w.dlg.ackTs = some k ∧
    w.ackServers.get k = some t ∧ t.status ≠ .terminated ∧ t.listener = true
  byeing : w.status = .byeing → ∃ r t, w.clients.get r = some t ∧ LastBye w.clients r ∧
    t.request.requestMethod = some .bye ∧ t.status ≠ .terminated ∧ t.listener = true

/-! ## Runs -/

/-- What is kept in every run in which no transaction is dropped. -/
structure Attentive (w : World) : Prop where
  sound : Sound w
  posted : w.Posted
  asking : Asking w
  awaiting : Awaiting w

theorem pending_ne_terminated {s : TransactionStatus} (h : s.isPending = true) :
    s ≠ .terminated := by
  rintro rfl
  cases h

theorem Attentive.backed {w : World} (h : Attentive w) : Backed w := by
  refine ⟨fun hw => ?_, fun hw => ?_, fun hw => ?_, fun hw => ?_⟩
  · obtain ⟨r, t, htc, hget, hp, hl⟩ := h.asking.inviting hw
    exact ⟨r, t, htc, hget, pending_ne_terminated hp, hl⟩
  · obtain ⟨r, t, hts, hget, hstatus, hl⟩ := h.awaiting.refused hw
    refine ⟨r, t, hts, hget, ?_, hl⟩
    rcases hstatus with hp | hc
    · exact pending_ne_terminated hp
    · rw [hc]
      decide
  · obtain ⟨k, t, hts, hget, hp, hl⟩ := h.awaiting.accepted hw
    refine ⟨k, t, hts, hget, ?_, hl⟩
    rw [hp]
    decide
  · obtain ⟨r, t, hget, hlast, hmethod, -, hp, hl⟩ := h.asking.byeing hw
    exact ⟨r, t, hget, hlast, hmethod, pending_ne_terminated hp, hl⟩

theorem Attentive.step (hS : S.extended = false) {w : World} (h : Attentive w) {e : Event}
    (hdrop : w.Undropped e) : Attentive (w.step S e) where
  sound := h.sound.happens (happens_step hS w e)
  posted := posted_step h.posted e
  asking := h.asking.happens h.sound hdrop (happens_step hS w e)
  awaiting := h.awaiting.works hS h.posted hdrop (works_step h.posted.tidy e)

theorem Start.attentive (hS : S.extended = false) {w : World} (h : Start S w) : Attentive w := by
  have hinit : Asking (World.init S) ∧ Awaiting (World.init S) :=
    ⟨.of_status (s := .init) rfl (by decide), .of_status (s := .init) rfl (by decide)⟩
  refine ⟨h.sound hS, h.posted, ?_, ?_⟩
  · cases h with
    | init => exact hinit.1
    | ofInvite invite => exact hinit.1.of_receives (receives_onReceivedMessage hS ..)
  · cases h with
    | init => exact hinit.2
    | ofInvite invite =>
      have hposted := posted_init S
      exact hinit.2.hears hS hposted (hears_onReceivedMessage hposted.tidy invite.1)

/-! ### The gaps -/

/-- `cancel` drops the client of the dialog. -/
theorem not_backed_abandoned {w : World} (hw : w.status.IsInviting) :
    ¬ Backed (w.onInviteClient w.dlg.inviteTc (·.terminate)) := by
  intro h
  obtain ⟨r, t, htc, hget, -, hl⟩ := h.inviting hw
  have htc' : w.dlg.inviteTc = some r := htc
  have hget' : (invoke w.inviteClients w.dlg.inviteTc (·.terminate)).1.get r = some t := hget
  rw [get_invoke, if_pos htc'] at hget'
  obtain ⟨t₀, -, rfl⟩ := Option.map_eq_some_iff.mp hget'
  cases hl

theorem undropped_of_cancel {w : World} {a : Api} (hcancel : a.IsCancel) (huser : w.AtUser)
    (hw : w.status.IsInviting) (h : Backed (w.step S (.api a))) :
    w.inviteTcProceeding = true := by
  by_contra htc
  have hstep : w.step S (.api a) = w.onInviteClient w.dlg.inviteTc (·.terminate) := by
    have hcall : w.step S (.api a) = w.call S a := if_pos huser
    rw [hcall]
    cases a with
    | cancel =>
      show w.cancel S = _
      unfold cancel
      rw [if_pos hw, if_neg htc]
    | cancelMessage c =>
      show w.cancelMessage S c = _
      unfold cancelMessage
      rw [if_pos hw, if_neg htc]
    | _ => exact hcancel.elim
  rw [hstep] at h
  exact not_backed_abandoned hw h

theorem undropped_of_success (hS : S.extended = false) {w : World} (hattentive : Attentive w)
    {m : SipMessage} {r : ℕ} (hidle : w.stack = []) (hw : w.status.IsInviting) (h2xx : m.Is2xx)
    (htc : w.dlg.inviteTc = some r) (hl : w.provider.getListener m = some (.inviteClient r))
    (h : Backed (w.step S (.recv m))) : m.cseqMethod = .invite := by
  by_contra hmethod
  obtain ⟨s, t, htc', hget, hp⟩ := hattentive.asking.inviting hw
  cases htc.symm.trans htc'
  have hcallback := InviteTransactionClient.callback_of_success (S.connection w.provider.sends)
    hp h2xx
  have hrequest := (t.step_onReceivedMessage (S.connection w.provider.sends) m).request_eq
  have hstatus := InviteTransactionClient.status_of_success (S.connection w.provider.sends) hp h2xx
  rw [step_recv_inviteClient hidle hl hget] at h
  generalize t.onReceivedMessage (S.connection w.provider.sends) m = o at hcallback hrequest hstatus h
  have hinvite : o.self.request.getTransactionMethod = .invite := by
    have hsame : o.self.request = t.request := hrequest
    rw [hsame]
    exact (hattentive.sound.inviteClients r t hget).1
  rw [inviteClientDid_success hS hcallback hinvite] at h
  unfold onInviteSuccessResponse at h
  rw [if_neg fun hand => hmethod hand.2.2.2] at h
  obtain ⟨s, u, hs, hu, hlive, -⟩ := h.inviting hw
  cases htc.symm.trans hs
  cases (Heap.get_put_self ..).symm.trans hu
  exact hlive hstatus

theorem undropped_of_ending {w : World} {r : ℕ} {t : InviteTransactionServer}
    (hidle : w.stack = []) (hw : w.status.IsRefused) (hts : w.dlg.inviteTs = some r)
    (hget : w.inviteServers.get r = some t)
    (h : Backed (w.step S (.timeout (.inviteServer r) .ending))) :
    ¬ (t.status = .completed ∧ t.endTo.Delivers) := by
  rintro ⟨hcompleted, hdelivers⟩
  have hended : t.expire .ending = (t.haltTimer .ending).onTimeout .ending :=
    Timer.expire_of_delivers hdelivers ..
  have hstep : w.step S (.timeout (.inviteServer r) .ending) =
      w.putInviteServer r (t.expire .ending) := by
    have hexpire : w.step S (.timeout (.inviteServer r) .ending) =
        w.expire S (.inviteServer r) .ending := if_pos hidle
    rw [hexpire]
    unfold expire
    dsimp only
    rw [hget]
    dsimp only
    unfold inviteServerDid
    rw [t.callback_expire .ending]
  rw [hstep] at h
  obtain ⟨s, u, hs, hu, hlive, -⟩ := h.refused hw
  cases hts.symm.trans hs
  cases (Heap.get_put_self ..).symm.trans hu
  refine hlive ?_
  rw [hended]
  have hcompleted' : (t.haltTimer .ending).status = .completed := hcompleted
  unfold InviteTransactionServer.onTimeout
  dsimp only
  rw [if_pos hcompleted']
  exact ((t.haltTimer .ending).terminates_terminate).status

/-- An event after which every wait is backed has dropped nothing. -/
theorem Attentive.undropped (hS : S.extended = false) {w : World} (hattentive : Attentive w)
    {e : Event} (h : Backed (w.step S e)) : w.Undropped e := by
  cases e with
  | api a => exact fun hcancel huser hw => undropped_of_cancel hcancel huser hw h
  | recv m =>
    exact fun hidle hw h2xx r htc hl => undropped_of_success hS hattentive hidle hw h2xx htc hl h
  | timeout a n =>
    intro hn hidle hw r hts ha t hget
    subst hn ha
    exact undropped_of_ending hidle hw hts hget h
  | responderTimeout n => trivial
  | ret => trivial

/-- Alice calls bob, who answers, and hangs up. -/
def sampleHangUp : List Event := sampleCall ++ [.api .bye]

/-- Bob waits for a call and refuses it, and no ACK comes until Timer H expires. -/
def sampleUnacknowledged : List Event :=
  [.api .listen, .recv sampleInvite, .api .refuse, .ret, .timeout (.inviteServer 0) .ending]

end World
end SoftPhone
