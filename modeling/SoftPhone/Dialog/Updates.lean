import Mathlib.Logic.Relation
import SoftPhone.Dialog.Identity
import SoftPhone.Dialog.Works

/-!
# The messages that a dialog is updated with

`updates S w e` reads off the state and the next event which messages the dialog will be
updated with, and whether as transaction client: requests and responses that reach it from the
peer, and responses and INVITEs of its own.

An event is a chain of a few kinds of pieces (`Shift`): steady work, a change of the state, and
an update with one of these messages.  Once this is known of every event, what holds of the
identity and of the registration of a dialog is shown for the pieces only.
-/

namespace SoftPhone

open Machine

namespace World

variable {S : SipStack}

/-! ## The pieces -/

/-- From `s` to `t`, a closed dialog is opened again, or a call begins. -/
def Begins (s t : Status) : Prop :=
  (s = .close ∧ t ≠ .close) ∨ ((s = .init ∨ s = .waiting) ∧ t ≠ .waiting ∧ t ≠ .close)

instance (s t : Status) : Decidable (Begins s t) := inferInstanceAs (Decidable (_ ∨ _))

/-- One piece, where `U` are the messages that the dialog may be updated with. -/
inductive Shift (U : List (Bool × SipMessage)) : World → World → Prop where
  | steady {w w' : World} (h : Steady w w') : Shift U w w'
  /-- The state changes.  A closed dialog stays closed. -/
  | changes {w : World} {s : Status} (hs : ¬ Begins w.status s) : Shift U w (w.changeStatus s)
  /-- The state changes for an INVITE that the dialog is updated with. -/
  | invites {w : World} {s : Status} {isClient : Bool} {m : SipMessage} (hw : w.status ≠ .close)
      (hs : s ≠ .close) (hm : (isClient, m) ∈ U) :
      Shift U w (((w.changeStatus s).setInviteReq m).updateDialogInfo isClient m)
  /-- A closed dialog is not updated. -/
  | updates {w : World} {isClient : Bool} {m : SipMessage}
      (hm : w.status ≠ .close → (isClient, m) ∈ U) : Shift U w (w.updateDialogInfo isClient m)

/-- A chain of pieces. -/
abbrev Shifted (U : List (Bool × SipMessage)) : World → World → Prop :=
  Relation.ReflTransGen (Shift U)

variable {U : List (Bool × SipMessage)}

/-- An invariant of the pieces is one of the chain. -/
theorem Shifted.induction {I : World → Prop} (hstep : ∀ w w', Shift U w w' → I w → I w')
    {w w' : World} (h : Shifted U w w') (hw : I w) : I w' := by
  induction h with
  | refl => exact hw
  | tail _ hlast ih => exact hstep _ _ hlast ih

theorem Shifted.mono {V : List (Bool × SipMessage)} (hUV : ∀ p ∈ U, p ∈ V) {w w' : World}
    (h : Shifted U w w') : Shifted V w w' := by
  refine Relation.ReflTransGen.mono (r := Shift U) ?_ w w' h
  intro w w' hpiece
  cases hpiece with
  | steady hsteady => exact .steady hsteady
  | changes hs => exact .changes hs
  | invites hw hs hm => exact .invites hw hs (hUV _ hm)
  | updates hm => exact .updates fun hw => hUV _ (hm hw)

theorem shifted_of_steady {w w' : World} (h : Steady w w') : Shifted U w w' := .single (.steady h)

theorem shifted_updates {w : World} {isClient : Bool} {m : SipMessage} (hm : (isClient, m) ∈ U) :
    Shifted U w (w.updateDialogInfo isClient m) :=
  .single (.updates fun _ => hm)

/-- A change of the state, and steady work. -/
theorem shifted_changes {w w' : World} {s : Status} (hs : ¬ Begins w.status s)
    (h : Steady (w.changeStatus s) w') : Shifted U w w' :=
  .tail (.single (.changes hs)) (.steady h)

/-! ## Which messages -/

/-- The messages that `respond(resp)` updates the dialog with, in the state `s`. -/
def responseUpdates (S : SipStack) (s : Status) (resp : SipMessage) : List (Bool × SipMessage) :=
  match S.extended, resp.getTransactionMethod with
  | _, .invite =>
    if s.IsInvited ∧ (200 ≤ resp.code ∨ 100 ≤ resp.code ∧ S.earlyDialog = true) then
      [(false, resp)]
    else []
  | false, .update => if s.isEarly || s.isConfirmed then [(false, resp)] else []
  | _, _ => []

/-- The messages for an INVITE that is taken: itself, and the response that refuses it. -/
def inviteUpdates (S : SipStack) (w : World) (s : Status) (m : SipMessage) :
    List (Bool × SipMessage) :=
  (false, m) :: (w.processInviteMessage S m).toList.flatMap (responseUpdates S s)

/-- The messages for a request that the dialog receives. -/
def requestUpdates (S : SipStack) (w : World) (m : SipMessage) : List (Bool × SipMessage) :=
  if w.tooLate m || sessionTooShort S m then []
  else
    match m.requestMethod with
    | some .invite => w.inviteUpdates S (if w.status = .init then .invited else .reInvited) m
    | some .bye =>
      if w.status = .call ∨ w.status = .byeing then
        responseUpdates S .byed (createResponse S m 200 none)
      else []
    | some .update => [(false, m)]
    | _ => []

/-- The messages for a request that only an `ExtendedInviteDialog` takes. -/
def altRequestUpdates (S : SipStack) (w : World) (m : SipMessage) : List (Bool × SipMessage) :=
  if m.requestMethod = some .notify then
    responseUpdates S w.status (createResponse S m 200 none)
  else []

/-- The messages for a message that the dialog receives. -/
def dialogUpdates (S : SipStack) (w : World) (m : SipMessage) : List (Bool × SipMessage) :=
  match S.extended, m.requestMethod with
  | true, some method =>
    if method.isBasic then w.requestUpdates S m else w.altRequestUpdates S m
  | false, some _ => w.requestUpdates S m
  | _, none => []

/-- The messages for a callback of a client transaction with a request of this method. -/
def clientUpdates (S : SipStack) (w : World) (method : Method) :
    ClientCallback → List (Bool × SipMessage)
  | .onTransProvisionalResponse m =>
    if method = .invite ∧ S.earlyDialog = true ∧ w.status ≠ .close then [(true, m)] else []
  | .onTransSuccessResponse m =>
    match method with
    | .invite =>
      if w.status.IsInviting ∧ 200 ≤ m.code ∧ m.code < 300 ∧ m.getTransactionMethod = .invite then
        [(true, m)]
      else []
    | .update =>
      if S.extended = false ∧ (w.status.isEarly || w.status.isConfirmed) = true then [(true, m)]
      else []
    | _ => []
  | _ => []

/-- The messages for a callback of a server transaction. -/
def serverUpdates (S : SipStack) (w : World) : ServerCallback → List (Bool × SipMessage)
  | .onTransRequest m =>
    match m.getTransactionMethod with
    | .invite => if w.status = .waiting then w.inviteUpdates S .invited m else []
    | .cancel =>
      if w.status.IsInvited then
        w.dlg.inviteReq.toList.flatMap fun invite =>
          responseUpdates S w.status (createResponse S invite 487 none)
      else []
    | _ => []
  | .onTransFailureAck _ => []

/-- The INVITE of `invite(target,from,contact,session_descriptor)`. -/
def openingInvite (S : SipStack) (w : World) (target fromName : NameAddress)
    (contact : Option NameAddress) (sdp : String) : SipMessage :=
  createRequest (S.pickBranch w.provider.branches) .invite target.address target fromName
    S.pickCallId pickInitialCSeq (some S.pickLocalTag) none contact (some "application/sdp")
    (some sdp)

/-- The messages for an INVITE that the dialog sends. -/
def sentUpdates (S : SipStack) (w : World) (invite : SipMessage) : List (Bool × SipMessage) :=
  if w.status = .init then [(true, decorateInvite S w.dlg invite)] else []

/-- The messages for a re-INVITE that the dialog sends. -/
def resentUpdates (w : World) (invite : SipMessage) : List (Bool × SipMessage) :=
  if w.status = .call then [(true, invite)] else []

/-- The messages for `reInvite(contact,session_descriptor)`. -/
def reOfferUpdates (S : SipStack) (w : World) (contact : Option NameAddress) (sdp : String) :
    List (Bool × SipMessage) :=
  (createDialogRequest (S.pickBranch w.provider.branches) w.dlg.info .invite
    (some "application/sdp") (some sdp)).toList.flatMap fun p =>
      w.resentUpdates { p.1 with contact := contact <|> p.1.contact }

/-- The messages for `acceptUpdate` and `refuseUpdate`. -/
def answerUpdates (S : SipStack) (w : World) (code : ℤ) (sdp : Option String) :
    List (Bool × SipMessage) :=
  ((w.dlg.updateTs.bind w.servers.get).bind (·.request)).toList.flatMap fun req =>
    responseUpdates S w.status (match sdp with
      | none => createResponse S req code none
      | some _ => { createResponse S req code none with
          contentType := some "application/sdp"
          body := sdp })

/-- The messages for a response that is passed to `respond`. -/
def passedUpdates (S : SipStack) (w : World) (resp : Option SipMessage) :
    List (Bool × SipMessage) :=
  resp.toList.flatMap (responseUpdates S w.status)

/-- The messages for a call of the user. -/
def apiUpdates (S : SipStack) (w : World) : Api → List (Bool × SipMessage)
  | .invite target fromName contact sdp =>
    w.sentUpdates S (w.openingInvite S target fromName contact sdp)
  | .inviteMessage invite => w.sentUpdates S invite
  | .inviteMessageWithoutOffer invite => w.sentUpdates S invite
  | .reInvite contact sdp => w.reOfferUpdates S contact sdp
  | .reInviteMessage invite => w.resentUpdates invite
  | .reInviteWithoutOffer contact sdp => w.reOfferUpdates S contact sdp
  | .reInviteMessageWithoutOffer invite => w.resentUpdates invite
  | .acceptUpdate sdp => w.answerUpdates S 200 sdp
  | .refuseUpdate => w.answerUpdates S 504 none
  | .acceptRefer req => w.passedUpdates S (some (createResponse S req 202 none))
  | .refuseRefer req => w.passedUpdates S (some (createResponse S req 603 none))
  | a => w.passedUpdates S (w.passed S a)

/-- The messages for what an invite client does. -/
def inviteClientUpdates (S : SipStack) (w : World)
    (o : Outcome InviteTransactionClient ClientCallback ClientRest) : List (Bool × SipMessage) :=
  o.callback.toList.flatMap (w.clientUpdates S o.self.request.getTransactionMethod)

/-- The messages for what a client does. -/
def genericClientUpdates (S : SipStack) (w : World)
    (o : Outcome TransactionClient ClientCallback ClientRest) : List (Bool × SipMessage) :=
  o.callback.toList.flatMap (w.clientUpdates S o.self.request.getTransactionMethod)

/-- The messages for a message that the provider passes to `a`. -/
def deliverUpdates (S : SipStack) (w : World) (a : Agent) (m : SipMessage) :
    List (Bool × SipMessage) :=
  match a with
  | .dialog => w.dialogUpdates S m
  | .inviteClient r => (w.inviteClients.get r).toList.flatMap fun t =>
      w.inviteClientUpdates S (t.onReceivedMessage (S.connection w.provider.sends) m)
  | .client r => (w.clients.get r).toList.flatMap fun t =>
      w.genericClientUpdates S (t.onReceivedMessage m)
  | .inviteServer r => (w.inviteServers.get r).toList.flatMap fun t =>
      (t.onReceivedMessage S m).callback.toList.flatMap (w.serverUpdates S)
  | .server r => (w.servers.get r).toList.flatMap fun t =>
      (t.onReceivedMessage m).callback.toList.flatMap (w.serverUpdates S)
  | .cancelServer r => (w.cancelServers.get r).toList.flatMap fun t =>
      (t.onReceivedMessage m).callback.toList.flatMap (w.serverUpdates S)
  | _ => []

/-- The messages that the dialog is updated with in the event. -/
def updates (S : SipStack) (w : World) : Event → List (Bool × SipMessage)
  | .recv m =>
    if w.stack = [] then
      (w.provider.getListener m).toList.flatMap fun a => w.deliverUpdates S a m
    else []
  | .api a => if w.AtUser then w.apiUpdates S a else []
  | .timeout _ _ | .responderTimeout _ | .ret => []

end World
end SoftPhone
