import SoftPhone.Machine.Heap
import SoftPhone.Machine.Run
import SoftPhone.Transaction.Client
import SoftPhone.Transaction.Server

/-!
# An invite dialog, its transactions and its provider

`World` is everything one `InviteDialog` can reach: its own fields, the
transactions it has started, the provider they all register with, and the code
that is waiting for a listener callback to return.

The library is single-threaded here: a message, a timer or a call of the user is
worked off before the next one comes.  The exception is the one the library
itself makes.  A handler calls its listener in the middle, and from inside such a
callback the listener may call any method of the dialog.  So a handler runs up to
its callback, and what it does afterwards is put on a stack of `Frame`s.

What can be observed is written to the log of the provider, newest first.
-/

namespace SoftPhone

open Machine

/-! ## States -/

/-- The states of an `InviteDialog`. -/
inductive Status where
  | init
  | waiting
  | inviting
  | invited
  | refused
  | accepted
  | call
  | byeing
  | byed
  | close
  | reWaiting
  | reInviting
  | reInvited
  | reRefused
  | reAccepted
  deriving DecidableEq, Repr

namespace Status

/-- The number of a state: `D_INIT`, `D_WAITING`, ... -/
def code : Status → ℕ
  | init => 0
  | waiting => 1
  | inviting => 2
  | invited => 3
  | refused => 4
  | accepted => 5
  | call => 6
  | byeing => 7
  | byed => 8
  | close => 9
  | reWaiting => 11
  | reInviting => 12
  | reInvited => 13
  | reRefused => 14
  | reAccepted => 15

/-- `isEarly`: `status<D_ACCEPTED`. -/
def isEarly (s : Status) : Bool := s.code < accepted.code

/-- `isConfirmed`: `status>=D_ACCEPTED && status<D_CLOSE`.  The states of a
re-INVITE are neither early nor confirmed. -/
def isConfirmed (s : Status) : Bool := accepted.code ≤ s.code ∧ s.code < close.code

/-- `statusIs(D_INVITED)||statusIs(D_ReINVITED)`. -/
def IsInvited (s : Status) : Prop := s = invited ∨ s = reInvited

/-- `statusIs(D_INVITING)||statusIs(D_ReINVITING)`. -/
def IsInviting (s : Status) : Prop := s = inviting ∨ s = reInviting

/-- `statusIs(D_ACCEPTED)||statusIs(D_ReACCEPTED)`. -/
def IsAccepted (s : Status) : Prop := s = accepted ∨ s = reAccepted

/-- `statusIs(D_REFUSED)||statusIs(D_ReREFUSED)`. -/
def IsRefused (s : Status) : Prop := s = refused ∨ s = reRefused

/-- `statusIs(D_WAITING)||statusIs(D_ReWAITING)`. -/
def IsWaiting (s : Status) : Prop := s = waiting ∨ s = reWaiting

instance (s : Status) : Decidable s.IsInvited := inferInstanceAs (Decidable (_ ∨ _))
instance (s : Status) : Decidable s.IsInviting := inferInstanceAs (Decidable (_ ∨ _))
instance (s : Status) : Decidable s.IsAccepted := inferInstanceAs (Decidable (_ ∨ _))
instance (s : Status) : Decidable s.IsRefused := inferInstanceAs (Decidable (_ ∨ _))
instance (s : Status) : Decidable s.IsWaiting := inferInstanceAs (Decidable (_ ∨ _))

end Status

/-! ## The provider -/

/-- Who speaks with the provider: the dialog, a transaction, or one of the
`AckTransactionClient`s, which send one ACK each and are gone. -/
inductive Agent where
  | dialog
  | ackClient
  | inviteClient (r : ℕ)
  | client (r : ℕ)
  | inviteServer (r : ℕ)
  | server (r : ℕ)
  /-- The `CancelTransactionServer` that was made for an `InviteTransactionServer`. -/
  | cancelServer (r : ℕ)
  | ackServer (r : ℕ)
  deriving DecidableEq, Repr

/-- The methods of `InviteDialogListener` and `ExtendedInviteDialogListener`. -/
inductive DialogCallback where
  | onDlgInvite (m : SipMessage)
  | onDlgReInvite (m : SipMessage)
  | onDlgInviteProvisionalResponse (m : SipMessage)
  | onDlgInviteReliableProvisionalResponse (m : SipMessage)
  | onDlgInviteReliableProvisionalResponseConfirmed (resp prack : SipMessage)
  | onDlgInviteReliableProvisionalResponseTimeout (resp : SipMessage)
  | onDlgInviteSuccessResponse (m : SipMessage)
  | onDlgInviteRedirectResponse (m : SipMessage)
  | onDlgInviteFailureResponse (m : SipMessage)
  | onDlgInviteTimeout
  | onDlgReInviteSuccessResponse (m : SipMessage)
  | onDlgReInviteFailureResponse (m : SipMessage)
  | onDlgAck (m : SipMessage)
  | onDlgCall
  | onDlgInfo (m : SipMessage)
  | onDlgCancel (m : SipMessage)
  | onDlgUpdate (m : SipMessage)
  | onDlgUpdateResponse (m : SipMessage)
  | onDlgBye (m : SipMessage)
  | onDlgByeSuccessResponse (m : SipMessage)
  | onDlgByeFailureResponse (m : SipMessage)
  | onDlgClosed
  | onDlgRefer (m : SipMessage)
  | onDlgReferResponse (m : SipMessage)
  | onDlgNotify (m : SipMessage)
  | onDlgAltRequest (m : SipMessage)
  | onDlgAltResponse (m : SipMessage)
  deriving DecidableEq, Repr

/-- What can be observed. -/
inductive Obs where
  /-- The provider passes a message to a listener. -/
  | received (a : Agent) (m : SipMessage)
  /-- A message is handed to the transport. -/
  | sent (a : Agent) (m : SipMessage)
  /-- The dialog accepts a request other than ACK and CANCEL and processes it. -/
  | processed (m : SipMessage)
  /-- The dialog calls its listener. -/
  | fired (c : DialogCallback)
  deriving DecidableEq, Repr

/-- Class `SipProvider`: the listeners, how often `sendMessage` and `pickBranch`
were called, and the log. -/
structure SipProvider where
  sipListeners : SipId → Option Agent := fun _ => none
  sends : ℕ := 0
  branches : ℕ := 0
  log : List Obs := []

namespace SipProvider

def observe (p : SipProvider) (o : Obs) : SipProvider := { p with log := o :: p.log }

/-- One call of the provider by `a`. -/
def call (a : Agent) (p : SipProvider) : ProviderCall → SipProvider
  | .sendMessage m => { p with sends := p.sends + 1, log := .sent a m :: p.log }
  | .addSelectiveListener id =>
    { p with sipListeners := Function.update p.sipListeners id (some a) }
  | .removeSelectiveListener id =>
    { p with sipListeners := Function.update p.sipListeners id none }

/-- The calls of the provider by `a`, in order. -/
def calls (p : SipProvider) (a : Agent) (cs : List ProviderCall) : SipProvider :=
  cs.foldl (call a) p

/-- `getListener`: the transaction, then the dialog, then the method. -/
def getListener (p : SipProvider) (m : SipMessage) : Option Agent :=
  p.sipListeners (if m.isRequest then .transactionServer m else .transactionClient m) <|>
    p.sipListeners (.ofMessage m) <|> p.sipListeners (.ofMethod m)

end SipProvider

/-! ## The dialog -/

/-- Class `ReliableProvisionalResponder`. -/
structure ReliableProvisionalResponder where
  /-- The server transaction it was made for. -/
  inviteTs : ℕ
  responses : List SipMessage := []
  retransmissionTo : Option Timer := none
  transactionTo : Option Timer := none
  /-- `listener!=null`. -/
  listener : Bool := true
  rseqCounter : ℤ := 1
  deriving DecidableEq, Repr

/-- Classes `Dialog`, `InviteDialog` and `ExtendedInviteDialog`: the fields. -/
structure InviteDialog where
  status : Status := .init
  info : DialogInfo := {}
  dialogId : Option SipId := none
  inviteReq : Option SipMessage := none
  inv2xxResp : Option SipMessage := none
  ackReq : Option SipMessage := none
  inviteTc : Option ℕ := none
  inviteTs : Option ℕ := none
  cancelTs : Option ℕ := none
  ackTs : Option ℕ := none
  byeTs : Option ℕ := none
  updateTs : Option ℕ := none
  inviteOffer : Bool := true
  supportedOptionTags : List String
  requiredOptionTags : List String
  reliableResponder : Option ReliableProvisionalResponder := none
  /-- The server transactions in the table of an `ExtendedInviteDialog`; the client
  transactions in it are never looked up. -/
  transactions : SipId → Option ℕ := fun _ => none
  /-- Authentication attempts of an `ExtendedInviteDialog`. -/
  attempts : ℕ := 0

/-- `isExtensionSupported`. -/
def InviteDialog.isExtensionSupported (d : InviteDialog) (tag : String) : Bool :=
  d.supportedOptionTags.contains tag

/-- `isExtensionRequired`. -/
def InviteDialog.isExtensionRequired (d : InviteDialog) (tag : String) : Bool :=
  d.requiredOptionTags.contains tag

/-- `updateDialogInfo`, the fields.  A closed dialog is left alone. -/
def InviteDialog.updateInfo (d : InviteDialog) (isClient : Bool)
    (m : SipMessage) : InviteDialog :=
  { d with
    info := if d.status = .close then d.info else d.info.update isClient m
    dialogId :=
      if d.status = .close then d.dialogId else some (d.info.update isClient m).dialogId }

/-- The dialog forgets its transactions. -/
def InviteDialog.forget (d : InviteDialog) : InviteDialog :=
  { d with
    inviteTc := none
    inviteTs := none
    cancelTs := none
    updateTs := none
    ackTs := none
    byeTs := none }

/-- What a handler of the dialog or of a transaction does after a callback. -/
inductive Rest where
  | inviteClient (r : ℕ) (rest : ClientRest)
  | client (r : ℕ) (rest : ClientRest)
  | inviteServer (r : ℕ) (rest : ServerRest)
  /-- Fire `onDlgCall`. -/
  | fireDlgCall
  /-- Fire `onDlgClosed`. -/
  | fireDlgClosed
  /-- After `onDlgBye`: close the dialog. -/
  | closeAfterBye
  /-- After the callbacks for a 2xx: read its Session-Expires header. -/
  | sessionTimers (m : SipMessage)
  /-- `ReliableProvisionalResponder.processPrack` after the confirmation. -/
  | afterPrack
  /-- `ReliableProvisionalResponder.processTimeout` after the timeout. -/
  | afterResponderTimeout
  deriving DecidableEq, Repr

/-- A frame of the stack: a callback that the listener is working on, or code that
waits for the frames above it. -/
inductive Frame where
  | listener (c : DialogCallback)
  | code (rest : Rest)
  deriving DecidableEq, Repr

/-- Run a method of the object under the reference `r`, if any: the heap, and what
the method asks of the provider. -/
def invoke {α : Type} (h : Heap α) (r : Option ℕ) (f : α → α × List ProviderCall) :
    Heap α × List ProviderCall :=
  match r with
  | none => (h, [])
  | some r => (h.modify r fun a => (f a).1, ((h.get r).map fun a => (f a).2).getD [])

/-- The dialog with everything it reaches. -/
structure World where
  dlg : InviteDialog
  provider : SipProvider := {}
  inviteClients : Heap InviteTransactionClient := .empty
  clients : Heap TransactionClient := .empty
  inviteServers : Heap InviteTransactionServer := .empty
  servers : Heap TransactionServer := .empty
  /-- `CancelTransactionServer`s, under the reference of the `InviteTransactionServer`
  they were made for. -/
  cancelServers : Heap TransactionServer := .empty
  ackServers : Heap AckTransactionServer := .empty
  stack : List Frame := []

namespace World

/-- The state of the dialog. -/
abbrev status (w : World) : Status := w.dlg.status

/-- The log. -/
abbrev log (w : World) : List Obs := w.provider.log

/-- `new InviteDialog(sip_provider,listener)`. -/
def init (S : SipStack) : World where
  dlg :=
    { info := { sessionInterval := S.defaultSessionInterval }
      supportedOptionTags := S.supportedOptionTags
      requiredOptionTags := S.requiredOptionTags }

/-! ## Callbacks -/

def observe (w : World) (o : Obs) : World := { w with provider := w.provider.observe o }

/-- Call the listener. -/
def fire (w : World) (c : DialogCallback) : World :=
  { w with provider := w.provider.observe (.fired c), stack := .listener c :: w.stack }

/-- Leave code to be run later. -/
def suspend (w : World) (rest : Rest) : World := { w with stack := .code rest :: w.stack }

/-! ## `Dialog` -/

/-- What `changeStatus` asks of the provider: a closed dialog is removed, an early or
confirmed one is added. -/
def statusCalls (w : World) (s : Status) : List ProviderCall :=
  match w.dlg.dialogId with
  | none => []
  | some id =>
    if s = .close then
      if (w.provider.sipListeners id).isSome then [.removeSelectiveListener id] else []
    else if (s.isEarly || s.isConfirmed) && (w.provider.sipListeners id).isNone then
      [.addSelectiveListener id]
    else []

/-- `changeStatus`. -/
def changeStatus (w : World) (s : Status) : World :=
  { w with
    dlg.status := s
    provider := w.provider.calls .dialog (w.statusCalls s) }

/-- `updateDialogInfo`: a dialog whose identifier has changed is added under the new
one and removed under the old one. -/
def updateDialogInfo (w : World) (isClient : Bool) (m : SipMessage) : World :=
  let d := w.dlg.updateInfo isClient m
  { w with
    dlg := d
    provider := w.provider.calls .dialog
      (if d.dialogId = w.dlg.dialogId then []
      else d.dialogId.toList.map .addSelectiveListener ++
        w.dlg.dialogId.toList.map .removeSelectiveListener) }

/-! ## Transactions -/

/-- `new InviteTransactionClient(sip_provider,req,this).request()`. -/
def startInviteClient (S : SipStack) (w : World) (req : SipMessage) : World :=
  let t := (InviteTransactionClient.new req true).start (S.connection w.provider.sends)
  { w with
    inviteClients := w.inviteClients.new t.1
    provider := w.provider.calls (.inviteClient w.inviteClients.next) t.2 }

/-- `new TransactionClient(sip_provider,req,listener).request()`. -/
def startClient (S : SipStack) (w : World) (req : SipMessage) (listener : Bool) : World :=
  let t := (TransactionClient.new req listener).start (S.connection w.provider.sends)
  { w with
    clients := w.clients.new t.1
    provider := w.provider.calls (.client w.clients.next) t.2 }

/-- `new AckTransactionClient(sip_provider,ack,null).request()`. -/
def startAckClient (w : World) (ack : SipMessage) : World :=
  { w with provider := w.provider.calls .ackClient [.sendMessage ack] }

/-- `new InviteTransactionServer(sip_provider,invite,this)`. -/
def startInviteServer (S : SipStack) (w : World) (invite : SipMessage) : World :=
  let t := InviteTransactionServer.new S invite true
  { w with
    inviteServers := w.inviteServers.new t.1
    provider := w.provider.calls (.inviteServer w.inviteServers.next) t.2 }

/-- `new TransactionServer(sip_provider,req,listener)`. -/
def startServer (w : World) (req : SipMessage) (listener : Bool) : World :=
  let t := TransactionServer.new req listener
  { w with
    servers := w.servers.new t.1
    provider := w.provider.calls (.server w.servers.next) t.2 }

/-- `new CancelTransactionServer(sip_provider,req,this).listen()`, for the invite
server `r`. -/
def startCancelServer (w : World) (r : ℕ) (req : SipMessage) : World :=
  let t := (TransactionServer.newCancel req true).listen
  { w with
    cancelServers := w.cancelServers.put r t.1
    provider := w.provider.calls (.cancelServer r) t.2 }

/-- `new AckTransactionServer(sip_provider,conn_id,invite,resp,this).respond()`. -/
def startAckServer (w : World) (conn : Option ConnectionId) (invite resp : SipMessage) :
    World :=
  let t := (AckTransactionServer.new conn invite resp true).respond
  { w with
    ackServers := w.ackServers.new t.1
    provider := w.provider.calls (.ackServer w.ackServers.next) t.2 }

/-- Run a method of an invite client. -/
def onInviteClient (w : World) (r : Option ℕ)
    (f : InviteTransactionClient → InviteTransactionClient × List ProviderCall) : World :=
  let o := invoke w.inviteClients r f
  { w with inviteClients := o.1, provider := w.provider.calls (.inviteClient (r.getD 0)) o.2 }

/-- Run a method of a client. -/
def onClient (w : World) (r : Option ℕ)
    (f : TransactionClient → TransactionClient × List ProviderCall) : World :=
  let o := invoke w.clients r f
  { w with clients := o.1, provider := w.provider.calls (.client (r.getD 0)) o.2 }

/-- Run a method of an invite server. -/
def onInviteServer (w : World) (r : Option ℕ)
    (f : InviteTransactionServer → InviteTransactionServer × List ProviderCall) : World :=
  let o := invoke w.inviteServers r f
  { w with inviteServers := o.1, provider := w.provider.calls (.inviteServer (r.getD 0)) o.2 }

/-- Run a method of a server. -/
def onServer (w : World) (r : Option ℕ)
    (f : TransactionServer → TransactionServer × List ProviderCall) : World :=
  let o := invoke w.servers r f
  { w with servers := o.1, provider := w.provider.calls (.server (r.getD 0)) o.2 }

/-- Run a method of a cancel server. -/
def onCancelServer (w : World) (r : Option ℕ)
    (f : TransactionServer → TransactionServer × List ProviderCall) : World :=
  let o := invoke w.cancelServers r f
  { w with cancelServers := o.1, provider := w.provider.calls (.cancelServer (r.getD 0)) o.2 }

/-- Run a method of an ACK server. -/
def onAckServer (w : World) (r : Option ℕ)
    (f : AckTransactionServer → AckTransactionServer × List ProviderCall) : World :=
  let o := invoke w.ackServers r f
  { w with ackServers := o.1, provider := w.provider.calls (.ackServer (r.getD 0)) o.2 }

end World

end SoftPhone
