import Mathlib.Data.Int.Notation
import Mathlib.Data.Nat.Notation
import Mathlib.Tactic.Common

/-!
# SIP messages, as the dialog and transaction layers read them

A `SipMessage` keeps the parsed value of every header field that the modelled
functions read or write; the text of the message is left to the parser side of
the library.  The accessors of the source (`isRequest`, `isInvite`,
`getTransactionMethod`, ...) keep their names.

Two methods are kept apart, as in the source: the one of the request line, which
`isInvite`, `isAck`, ... look at, and the one of the CSeq header, which the
transaction identifiers and `getTransactionMethod` look at.

## Identifiers

The provider addresses its listeners by identifiers.  In the source these are
strings put together from a Call-ID, tags, a sequence number and so on; here an
identifier is the tuple of those components.  A listener registered for a method
(`TransactionServerId(method)`) and the one a message is looked up with as a last
resort (`MethodId(msg)`) are the same string in the source and the same value
here.
-/

namespace SoftPhone

/-- The method names the modelled code tells apart. -/
inductive Method where
  | invite
  | ack
  | bye
  | cancel
  | info
  | prack
  | update
  | refer
  | notify
  | subscribe
  | other (name : String)
  deriving DecidableEq, Repr

/-- A URI, with the one parameter the dialog layer looks at. -/
structure GenericURI where
  scheme : String
  address : String
  lr : Bool := false
  deriving DecidableEq, Repr

/-- `SipURI.isSecure`. -/
def GenericURI.isSecure (u : GenericURI) : Bool := u.scheme == "sips"

/-- A name-address: an optional display name and a URI. -/
structure NameAddress where
  displayName : Option String := none
  address : GenericURI
  deriving DecidableEq, Repr

/-- The request line or the status line. -/
inductive FirstLine where
  | request (method : Method) (uri : GenericURI)
  | status (code : ℤ)
  deriving DecidableEq, Repr

/-- The value of a Session-Expires header. -/
structure SessionExpires where
  deltaSeconds : ℤ
  refresher : Option String := none
  deriving DecidableEq, Repr

/-- The value of a RAck header. -/
structure RAck where
  rseq : ℤ
  cseq : ℤ
  method : Method
  deriving DecidableEq, Repr

/-- The parameters of a WWW-Authenticate or Proxy-Authenticate header that the
dialog layer reads. -/
structure Challenge where
  realm : Option String := none
  nonce : Option String := none
  qopOptions : Option String := none
  deriving DecidableEq, Repr

/-- What the credentials of an Authorization or Proxy-Authorization header are
computed from. -/
structure Credentials where
  method : Method
  uri : GenericURI
  challenge : Challenge
  qop : Option String
  username : Option String
  passwd : Option String
  deriving DecidableEq, Repr

/-- The identifier of a transport connection; a message sent over a
connection-less transport has none. -/
abbrev ConnectionId := String

/-- A SIP message. -/
structure SipMessage where
  firstLine : FirstLine
  callId : String
  fromName : NameAddress
  fromTag : Option String := none
  toName : NameAddress
  toTag : Option String := none
  cseq : ℤ
  cseqMethod : Method
  /-- The branch of the top Via. -/
  branch : Option String := none
  /-- The sent-by of the top Via. -/
  sentBy : String := "0.0.0.0"
  /-- The protocol of the top Via. -/
  viaProtocol : String := "udp"
  contact : Option NameAddress := none
  routes : List NameAddress := []
  recordRoutes : List NameAddress := []
  requireTags : Option (List String) := none
  supportedTags : Option (List String) := none
  unsupportedTags : Option (List String) := none
  sessionExpires : Option SessionExpires := none
  minSE : Option ℤ := none
  rseq : Option ℤ := none
  rack : Option RAck := none
  wwwAuthenticate : Option Challenge := none
  proxyAuthenticate : Option Challenge := none
  authorization : Option Credentials := none
  proxyAuthorization : Option Credentials := none
  referTo : Option NameAddress := none
  referredBy : Option NameAddress := none
  event : Option String := none
  expires : Option ℤ := none
  /-- What `getExpires` returns for the Contact headers, in order. -/
  contactExpires : List ℤ := []
  /-- The nextnonce parameter of an Authentication-Info header. -/
  authenticationInfo : Option (Option String) := none
  contentType : Option String := none
  body : Option String := none
  connectionId : Option ConnectionId := none
  /-- Ghost: the server transaction of the INVITE that was pending when this
  message was passed to `respond`.  No modelled function reads it. -/
  passedFor : Option ℕ := none
  deriving DecidableEq, Repr

namespace SipMessage

/-! ## Accessors -/

/-- The method of the request line, for a request. -/
def requestMethod (m : SipMessage) : Option Method :=
  match m.firstLine with
  | .request method _ => some method
  | .status _ => none

/-- The Request-URI, for a request. -/
def requestUri (m : SipMessage) : Option GenericURI :=
  match m.firstLine with
  | .request _ uri => some uri
  | .status _ => none

/-- The status code, for a response. -/
def code? (m : SipMessage) : Option ℤ :=
  match m.firstLine with
  | .request _ _ => none
  | .status code => some code

def isRequest (m : SipMessage) : Bool := m.requestMethod.isSome

def isResponse (m : SipMessage) : Bool := m.code?.isSome

/-- `isInvite`, `isAck`, ...: the request line has this method. -/
def is (m : SipMessage) (method : Method) : Bool := m.requestMethod == some method

/-- The status code; only asked of responses. -/
def code (m : SipMessage) : ℤ := m.code?.getD 0

/-- `getTransactionMethod`: the method of the CSeq header. -/
def getTransactionMethod (m : SipMessage) : Method := m.cseqMethod

/-- `createsDialog`. -/
def createsDialog (m : SipMessage) : Bool := m.is .invite || m.is .subscribe

/-- `hasRequireHeader() && getRequireHeader().hasOptionTag(tag)`. -/
def requires (m : SipMessage) (tag : String) : Bool :=
  (m.requireTags.getD []).contains tag

/-- `hasSupportedHeader() && getSupportedHeader().hasOptionTag(tag)`. -/
def supports (m : SipMessage) (tag : String) : Bool :=
  (m.supportedTags.getD []).contains tag

/-- The header gets the option tag, if it has not. -/
def addRequired (m : SipMessage) (tag : String) : SipMessage :=
  if m.requires tag then m else { m with requireTags := some (m.requireTags.getD [] ++ [tag]) }

theorem addRequired_spec (m : SipMessage) (tag : String) :
    (m.addRequired tag).code = m.code ∧ (m.addRequired tag).cseqMethod = m.cseqMethod ∧
      (m.addRequired tag).passedFor = m.passedFor := by
  unfold addRequired
  split <;> exact ⟨rfl, rfl, rfl⟩

/-- A 2xx response. -/
def Is2xx (m : SipMessage) : Prop := m.isResponse = true ∧ 200 ≤ m.code ∧ m.code < 300

instance (m : SipMessage) : Decidable m.Is2xx := inferInstanceAs (Decidable (_ ∧ _ ∧ _))

theorem is2xx_iff (m : SipMessage) : m.Is2xx ↔ 200 ≤ m.code ∧ m.code < 300 := by
  refine ⟨fun h => h.2, fun h => ⟨?_, h⟩⟩
  cases hcode : m.code? with
  | none =>
    have hzero : m.code = 0 := by simp [code, hcode]
    omega
  | some c => simp [isResponse, hcode]

end SipMessage

/-- A request with the method `method`, in its request line and in its CSeq
header. -/
abbrev Request (method : Method) : Type :=
  { m : SipMessage // m.requestMethod = some method ∧ m.cseqMethod = method }

/-- A response. -/
abbrev Response : Type := { m : SipMessage // m.isResponse = true }

/-- `SipStack.OTAG_100rel`. -/
def otag100rel : String := "100rel"

/-- `SipStack.OTAG_timer`. -/
def otagTimer : String := "timer"

/-! ## Identifiers -/

/-- An identifier that a listener registers with the provider under. -/
inductive SipId where
  /-- `TransactionClientId` (`uac`) or `TransactionServerId`.  The last component
  is the branch of the top Via, or its sent-by when it has no branch. -/
  | transaction (uac : Bool) (callId : String) (cseq : ℤ) (method : Method)
      (branch : String)
  /-- `DialogId`: Call-ID, local tag, remote tag. -/
  | dialog (callId : String) (localTag remoteTag : Option String)
  /-- `MethodId`, and the `TransactionServerId` of a listening server. -/
  | method (m : Method)
  deriving DecidableEq, Repr

namespace SipId

/-- `TransactionId.getTransactionId`: an ACK belongs to the INVITE it is for. -/
def ofTransaction (uac : Bool) (callId : String) (cseq : ℤ) (method : Method)
    (sentBy : String) (branch : Option String) : SipId :=
  .transaction uac callId cseq (if method = .ack then .invite else method)
    (branch.getD sentBy)

/-- `TransactionClientId(msg)`. -/
def transactionClient (m : SipMessage) : SipId :=
  ofTransaction true m.callId m.cseq m.cseqMethod m.sentBy m.branch

/-- `TransactionServerId(msg)`. -/
def transactionServer (m : SipMessage) : SipId :=
  ofTransaction false m.callId m.cseq m.cseqMethod m.sentBy m.branch

/-- The identifier a `CancelTransactionServer` for the request `m` waits under. -/
def cancelServer (m : SipMessage) : SipId :=
  ofTransaction false m.callId m.cseq .cancel m.sentBy m.branch

/-- `DialogId(msg)`: for a request the To tag is the local one. -/
def ofMessage (m : SipMessage) : SipId :=
  if m.isRequest then .dialog m.callId m.toTag m.fromTag
  else .dialog m.callId m.fromTag m.toTag

/-- `MethodId(msg)`. -/
def ofMethod (m : SipMessage) : SipId := .method m.cseqMethod

end SipId

end SoftPhone
