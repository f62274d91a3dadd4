import SoftPhone.Dialog.LocalCSeq

/-!
# What `cancel` cancels

`cancel` reads two fields: it asks `invite_tc` whether the INVITE may be cancelled, and it
makes the CANCEL from `invite_req`.  While the dialog waits for an answer the two belong
together (`Pursued`), so a CANCEL is always about the INVITE of `invite_tc`.

Whether that is the INVITE that is pending is another matter.  The answer to a challenge
starts a transaction for a new INVITE and leaves both fields alone, and from then on
`invite_tc` is a transaction that has its answer.  `hits_iff_aims` says exactly when
`cancel` hits a pending INVITE.
-/

namespace SoftPhone

open Machine

/-- The CANCEL has the Call-ID, the sequence number and the branch of the INVITE. -/
def SipMessage.Cancels (m invite : SipMessage) : Prop :=
  m.requestMethod = some .cancel ∧ m.callId = invite.callId ∧ m.cseq = invite.cseq ∧
    m.branch = invite.branch

instance (m invite : SipMessage) : Decidable (m.Cancels invite) :=
  inferInstanceAs (Decidable (_ ∧ _))

/-- The two INVITEs have the same Call-ID, sequence number and branch. -/
def SipMessage.SameInvite (m invite : SipMessage) : Prop :=
  m.callId = invite.callId ∧ m.cseq = invite.cseq ∧ m.branch = invite.branch

instance (m invite : SipMessage) : Decidable (m.SameInvite invite) :=
  inferInstanceAs (Decidable (_ ∧ _))

namespace World

variable {S : SipStack}

/-- What the event hands to the transport, newest first. -/
def sent (S : SipStack) (w : World) (e : Event) : List SipMessage :=
  ((w.step S e).log.take ((w.step S e).log.length - w.log.length)).filterMap fun
    | .sent _ m => some m
    | _ => none

/-- `cancel` sends no CANCEL but for this INVITE, and it sends one if the INVITE has got a
provisional response. -/
def Hits (S : SipStack) (w : World) (t : InviteTransactionClient) : Prop :=
  (∀ m ∈ w.sent S (.api .cancel), m.Cancels t.request) ∧
    (t.status = .proceeding → w.sent S (.api .cancel) ≠ [])

/-- The INVITE of `invite_tc`, when it has got a provisional response and has a Contact. -/
def cancellable (w : World) : Option SipMessage :=
  match w.dlg.inviteTc.bind w.inviteClients.get with
  | none => none
  | some t =>
    if t.status = .proceeding ∧ t.request.contact.isSome then some t.request else none

/-- What can be cancelled through `invite_tc` is this INVITE, if it is anything; and it is
something if the INVITE has got a provisional response. -/
def Aims (w : World) (t : InviteTransactionClient) : Prop :=
  (∀ invite ∈ w.cancellable, invite.SameInvite t.request) ∧
    (t.status = .proceeding → w.cancellable ≠ none)

instance (w : World) (t : InviteTransactionClient) : Decidable (w.Aims t) :=
  inferInstanceAs (Decidable (_ ∧ _))

/-! ## The invariant -/

/-- A dialog that waits for an answer holds the request of its transaction. -/
def Pursued (w : World) : Prop :=
  w.status.IsInviting → ∃ r t, w.dlg.inviteTc = some r ∧ w.inviteClients.get r = some t ∧
    w.dlg.inviteReq = some t.request

theorem Pursued.still {w w' : World} (hw : Pursued w) (h : Still w w') : Pursued w' := by
  intro hinviting
  obtain ⟨hinviting, hreq, htc⟩ := h.inviting hinviting
  obtain ⟨r, t, hr, hget, ht⟩ := hw hinviting
  obtain ⟨t', hget', ht'⟩ := h.inviteClients.get hget
  exact ⟨r, t', htc.trans hr, hget', by rw [hreq, ht, ← ht']⟩

theorem Pursued.launches {w w' : World} {req : SipMessage} (hw : Pursued w)
    (h : Launches req w w') : Pursued w' := by
  intro hinviting
  rcases h.inviting hinviting with ⟨hinviting, hreq, htc⟩ | ⟨hreq, r, t, htc, hget, ht⟩
  · obtain ⟨r, t, hr, hget, ht⟩ := hw hinviting
    obtain ⟨t', hget', ht'⟩ : ∃ t', w'.inviteClients.get r = some t' ∧ t'.request = t.request := by
      rcases h.heaps with ⟨hext, -⟩ | ⟨hext, -⟩
      · exact hext.get hget
      · exact hext.get hget
    exact ⟨r, t', htc.trans hr, hget', by rw [hreq, ht, ← ht']⟩
  · exact ⟨r, t, htc, hget, by rw [hreq, ht]⟩

theorem Pursued.step {w : World} (h : Pursued w) (e : Event) : Pursued (w.step S e) := by
  rcases starts_step (S := S) w e with hstill | ⟨p, -, hstarts⟩
  · exact h.still hstill
  · exact h.launches hstarts.toLaunches

theorem pursued_run {w : World} (h : Start S w) (es : List Event) :
    Pursued (run (step S) w es) := by
  have hinit : Pursued (World.init S) := fun hinviting =>
    absurd hinviting (show ¬ Status.IsInviting .init by decide)
  exact run_invariant (fun w e hw => hw.step e) es (hinit.still h.silent.toStill)

/-! ## The call -/

/-- The log when nothing is sent, and when one message is. -/
theorem sent_of_log {w : World} {e : Event} {l : List Obs} (h : (w.step S e).log = l ++ w.log) :
    w.sent S e = l.filterMap fun
      | .sent _ m => some m
      | _ => none := by
  unfold sent
  rw [h, List.length_append, Nat.add_sub_cancel, List.take_left]

/-- What `cancel` sends: the CANCEL of what is cancellable. -/
theorem sent_cancel {w : World} (hw : Pursued w) (huser : w.AtUser)
    (hinviting : w.status.IsInviting) :
    w.sent S (.api .cancel) = ((w.cancellable.bind createCancelRequest).toList) := by
  obtain ⟨r, t, hr, hget, hreq⟩ := hw hinviting
  have hstep : w.step S (.api .cancel) = w.cancel S := if_pos huser
  have htc : w.dlg.inviteTc.bind w.inviteClients.get = some t := by
    rw [hr, Option.bind_some, hget]
  have hproceeding : w.inviteTcProceeding = (t.status == .proceeding) := by
    unfold inviteTcProceeding
    rw [htc]
    rfl
  unfold cancellable
  rw [htc]
  dsimp only
  by_cases ht : t.status = .proceeding
  · have hpro : w.inviteTcProceeding = true := by
      rw [hproceeding, ht]
      rfl
    cases hcontact : t.request.contact with
    | none =>
      -- the CANCEL needs the Contact of the INVITE
      have hcancel : w.cancel S = w := by
        unfold cancel
        rw [if_pos hinviting, if_pos hpro, hreq, Option.bind_some, createCancelRequest, hcontact]
        rfl
      rw [sent_of_log (l := []) (by rw [hstep, hcancel]; rfl), if_neg (by simp)]
      rfl
    | some contact =>
      obtain ⟨req, hmade⟩ : ∃ req, createCancelRequest t.request = some req := by
        rw [createCancelRequest, hcontact]
        exact ⟨_, rfl⟩
      have hcancel : w.cancel S = w.startClient S req false := by
        unfold cancel
        rw [if_pos hinviting, if_pos hpro, hreq, Option.bind_some, hmade]
        show w.cancelMessage S req = _
        unfold cancelMessage
        rw [if_pos hinviting, if_pos hpro]
      rw [sent_of_log (l := [.sent (.client w.clients.next) req]) (by
        rw [hstep, hcancel]; rfl), if_pos ⟨ht, rfl⟩, Option.bind_some, hmade]
      rfl
  · have hpro : ¬ w.inviteTcProceeding = true := by
      rw [hproceeding]
      simpa using ht
    have hcancel : w.cancel S = w.onInviteClient w.dlg.inviteTc (·.terminate) := by
      unfold cancel
      rw [if_pos hinviting, if_neg hpro]
    have hlog : (w.step S (.api .cancel)).log = [] ++ w.log := by
      rw [hstep, hcancel, hr]
      simp only [log, onInviteClient, SipProvider.log_calls, invoke, hget, Option.map_some,
        Option.getD_some, InviteTransactionClient.terminate, InviteTransactionClient.doTerminate]
      split <;> rfl
    rw [sent_of_log hlog, if_neg fun h => ht h.1]
    rfl

theorem cancels_createCancelRequest {invite req : SipMessage}
    (h : createCancelRequest invite = some req) (m : SipMessage) :
    req.Cancels m ↔ invite.SameInvite m := by
  obtain ⟨contact, -, rfl⟩ := Option.map_eq_some_iff.mp h
  exact ⟨fun h => h.2, fun h => ⟨rfl, h⟩⟩

/-- What is cancellable has a CANCEL. -/
theorem createCancelRequest_of_cancellable {w : World} {invite : SipMessage}
    (h : w.cancellable = some invite) : ∃ req, createCancelRequest invite = some req := by
  unfold cancellable at h
  split at h
  · cases h
  · split at h
    · next hcan =>
      obtain ⟨contact, hcontact⟩ := Option.isSome_iff_exists.mp hcan.2
      rw [← Option.some.inj h, createCancelRequest, hcontact]
      exact ⟨_, rfl⟩
    · cases h

/-- **`cancel` hits an INVITE if and only if `invite_tc` is its transaction**, or one with
the same identifiers, and it has a Contact.  The transaction `t` may be any; the one that
matters is the pending one. -/
theorem hits_iff_aims {w₀ : World} (h : Start S w₀) (es : List Event)
    (huser : (run (step S) w₀ es).AtUser)
    (hinviting : (run (step S) w₀ es).status.IsInviting) (t : InviteTransactionClient) :
    Hits S (run (step S) w₀ es) t ↔ Aims (run (step S) w₀ es) t := by
  have hsent := sent_cancel (S := S) (pursued_run h es) huser hinviting
  unfold Hits Aims
  rw [hsent]
  cases hcan : (run (step S) w₀ es).cancellable with
  | none => simp
  | some invite =>
    obtain ⟨req, hreq⟩ := createCancelRequest_of_cancellable hcan
    have hiff := cancels_createCancelRequest hreq t.request
    simp [hreq, hiff]

/-- Alice calls bob, whose proxy asks for credentials, and then it rings. -/
def sampleRinging : List Event :=
  [.api (.inviteMessage sampleInvite),
    .recv { sampleResponse sampleInvite 407 with proxyAuthenticate := sampleChallenge }, .ret,
    .recv (sampleResponse (sampleRequest .invite 2 none "0") 180), .ret]

/-- Without a challenge the INVITE is cancelled. -/
theorem hits_iff_aims_ringing : ∃ t ∈ (run (step {}) (World.init {})
    [.api (.inviteMessage sampleInvite), .recv (sampleResponse sampleInvite 180),
      .ret]).inviteClients.get 0,
    Hits {} (run (step {}) (World.init {}) [.api (.inviteMessage sampleInvite),
      .recv (sampleResponse sampleInvite 180), .ret]) t := by
  obtain ⟨t, hget, haims⟩ : ∃ t ∈ (run (step {}) (World.init {})
      [.api (.inviteMessage sampleInvite), .recv (sampleResponse sampleInvite 180),
        .ret]).inviteClients.get 0,
      Aims (run (step {}) (World.init {}) [.api (.inviteMessage sampleInvite),
        .recv (sampleResponse sampleInvite 180), .ret]) t := by
    decide +kernel
  exact ⟨t, hget, (hits_iff_aims .init _ (by decide +kernel) (by decide +kernel) t).mpr haims⟩

/-- **The INVITE that was sent again with credentials rings on**: `cancel` sends nothing. -/
theorem not_hits_challenged :
    (run (step sampleStack) (World.init sampleStack) sampleRinging).status.IsInviting ∧
    ∃ t ∈ (run (step sampleStack) (World.init sampleStack) sampleRinging).inviteClients.get 1,
      t.status = .proceeding ∧
      (run (step sampleStack) (World.init sampleStack) sampleRinging).sent sampleStack
        (.api .cancel) = [] ∧
      ¬ Hits sampleStack (run (step sampleStack) (World.init sampleStack) sampleRinging) t := by
  refine ⟨by decide +kernel, ?_⟩
  obtain ⟨t, hget, ht, hsent⟩ : ∃ t ∈ (run (step sampleStack) (World.init sampleStack)
      sampleRinging).inviteClients.get 1, t.status = .proceeding ∧
      (run (step sampleStack) (World.init sampleStack) sampleRinging).sent sampleStack
        (.api .cancel) = [] := by
    decide +kernel
  exact ⟨t, hget, ht, hsent, fun hits => hits.2 ht hsent⟩

end World
end SoftPhone
