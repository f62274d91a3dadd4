import Mathlib.Algebra.Group.Nat.Defs
import SoftPhone.Machine.Heap
import SoftPhone.Machine.Run
import SoftPhone.Transaction.Client

/-!
# The registration client

`RegistrationClient` registers a contact with a registrar, once or again and again.
It has no thread and no queue of its own: `loopRegister` sets a flag, and it is the
answer to a REGISTER, or the missing answer, that starts the timer for the next one.
The method `run` does the same with a thread that sleeps between two registrations.

`Registration` is the client with its transactions and its part of the provider.  As
in the dialog, a handler calls its listener in the middle, and from inside the callback
the listener may call any method of the client; so what the transaction does after the
callback is put on a stack.

A method that runs into a null pointer leaves the rest of itself and of its callers
undone.  It returns `false` here.
-/

namespace SoftPhone

open Machine

/-- The method REGISTER. -/
abbrev Method.register : Method := .other "REGISTER"

/-- `SipStack.regc_min_attempt_timeout`, in milliseconds. -/
def regcMinAttemptTimeout : ℤ := 60000

/-- `SipStack.regc_max_attempt_timeout`. -/
def regcMaxAttemptTimeout : ℤ := 900000

/-- What the constructor is given, the limit `SipStack.regc_auth_attempts`, and what the
library picks for the `n`-th request. -/
structure RegistrationAccount where
  registrarUri : GenericURI
  toNaddr : NameAddress
  fromNaddr : NameAddress
  contactNaddr : NameAddress
  username : Option String := none
  realm : Option String := none
  passwd : Option String := none
  regcAuthAttempts : ℕ := 3
  /-- `SipProvider.pickCallId`. -/
  pickCallId : ℕ → String := fun n => toString n
  /-- `SipProvider.pickTag`. -/
  pickTag : ℕ → String := fun n => toString n

/-- The fields that hold the timers of the registration client. -/
inductive RenewalTimerName where
  /-- `attempt_to`. -/
  | attempt
  /-- `registration_to`. -/
  | registration
  deriving DecidableEq, Repr

/-- A timer for the next registration.  As with the timers of the transactions, one that
was replaced in its field equals neither field, and its expiry does nothing. -/
structure RenewalTimer where
  time : ℤ
  isRunning : Bool
  deriving DecidableEq, Repr

/-- Class `RegistrationClient`: the fields that change. -/
structure RegistrationClient where
  realm : Option String
  nextNonce : Option String := none
  qop : Option String := none
  expireTime : ℤ := defaultExpires
  renewTime : ℤ := defaultExpires
  attemptTo : Option RenewalTimer := none
  registrationTo : Option RenewalTimer := none
  loop : Bool := false
  isRunning : Bool := false
  attempts : ℕ := 0
  deriving DecidableEq, Repr

namespace RegistrationClient

/-- The timer held in a field. -/
def timer (c : RegistrationClient) : RenewalTimerName → Option RenewalTimer
  | .attempt => c.attemptTo
  | .registration => c.registrationTo

/-- Write a timer into a field. -/
def setTimer (c : RegistrationClient) (t : Option RenewalTimer) :
    RenewalTimerName → RegistrationClient
  | .attempt => { c with attemptTo := t }
  | .registration => { c with registrationTo := t }

/-- The credentials of a new REGISTER: none without a nonce, and a null pointer when
there is a nonce but no user name or realm. -/
def authorization (A : RegistrationAccount) (c : RegistrationClient) (req : SipMessage) :
    Option (Option Credentials) :=
  match c.nextNonce with
  | none => some none
  | some nonce =>
    match A.username, c.realm with
    | some username, some realm =>
      some (some
        { method := .register
          uri := req.requestUri.getD ⟨"", "", false⟩
          challenge := { realm := some realm, nonce := some nonce }
          qop := c.qop
          username := some username
          passwd := A.passwd })
    | _, _ => none

/-- The challenge that a 401 or 407 is answered with credentials for. -/
def challenge (A : RegistrationAccount) (c : RegistrationClient) (m : SipMessage) :
    Option Challenge :=
  if c.attempts < A.regcAuthAttempts then
    if m.code = 401 then m.wwwAuthenticate
    else if m.code = 407 then m.proxyAuthenticate
    else none
  else none

/-- `realm`, `attempts` and `qop`, as a challenge for `realm` sets them. -/
def challenged (c : RegistrationClient) (ch : Challenge) (realm : String) : RegistrationClient :=
  { c with
    realm := if 0 < realm.length then some realm else c.realm
    attempts := c.attempts + 1
    qop := ch.qopOptions.map fun _ => "auth" }

end RegistrationClient

/-- The expiration time in a 2xx: the Expires header, or the smallest positive one of
the contacts. -/
def SipMessage.grantedExpires (m : SipMessage) : ℤ :=
  match m.expires with
  | some e => e
  | none => m.contactExpires.foldl (fun expires e =>
      if 0 < e ∧ (expires = 0 ∨ e < expires) then e else expires) 0

/-- `createRegisterRequest(registrar,to,from,contact,call_id)`, with the branch and the
tag that were picked; without a contact it is the star. -/
def createRegisterRequest (branch localTag : String) (registrar : GenericURI)
    (toName fromName : NameAddress) (contact : Option NameAddress) (callId : String) :
    SipMessage :=
  let req := createRequest branch .register registrar toName fromName callId pickInitialCSeq
    (some localTag) none contact none none
  match contact with
  | none => { req with
      contact := some { address := ⟨"", "*", false⟩ }
      expires := some defaultExpires }
  | some _ => req

/-- The public methods of the registration client. -/
inductive RegistrationCall where
  | register
  | registerFor (expireTime : ℤ)
  /-- For the subclasses. -/
  | registerWithBody (expireTime : ℤ) (contentType body : Option String)
  | unregister
  | unregisterall
  | loopRegister (expireTime renewTime : ℤ)
  | halt
  | run
  deriving DecidableEq, Repr

/-- What can be observed of a registration client. -/
inductive RegistrationObs where
  /-- The user calls a method. -/
  | called (c : RegistrationCall)
  /-- `register(expire_time,...)` or `unregisterall` is entered. -/
  | registering (expireTime : ℤ)
  /-- A message is handed to the transport. -/
  | sent (m : SipMessage)
  /-- A timer for the next registration is started. -/
  | scheduled (n : RenewalTimerName) (time : ℤ)
  | onRegistrationSuccess (expires code : ℤ)
  /-- The listener is told the status code, or that there was no answer. -/
  | onRegistrationFailure (code : Option ℤ)
  deriving DecidableEq, Repr

/-- A registration client with everything it reaches. -/
structure Registration where
  client : RegistrationClient
  sipListeners : SipId → Option ℕ := fun _ => none
  /-- How often `sendMessage` was called. -/
  sends : ℕ := 0
  /-- How often `pickBranch` was called. -/
  branches : ℕ := 0
  /-- How many REGISTER requests were made from nothing. -/
  requests : ℕ := 0
  transactions : Heap TransactionClient := .empty
  stack : List (ℕ × ClientRest) := []
  /-- How many threads sleep in `run`. -/
  sleepers : ℕ := 0
  /-- What was observed, newest first. -/
  log : List RegistrationObs := []

namespace Registration

variable (A : RegistrationAccount) (S : SipStack)

/-- `new RegistrationClient(...)`. -/
def new : Registration where
  client := { realm := A.realm }

def observe (w : Registration) (o : RegistrationObs) : Registration :=
  { w with log := o :: w.log }

/-- One call of the provider by the transaction `r`. -/
def call (r : ℕ) (w : Registration) : ProviderCall → Registration
  | .sendMessage m => { w with sends := w.sends + 1, log := .sent m :: w.log }
  | .addSelectiveListener id =>
    { w with sipListeners := Function.update w.sipListeners id (some r) }
  | .removeSelectiveListener id =>
    { w with sipListeners := Function.update w.sipListeners id none }

/-- The calls of the provider by the transaction `r`, in order. -/
def calls (w : Registration) (r : ℕ) (cs : List ProviderCall) : Registration :=
  cs.foldl (call r) w

/-- `new TransactionClient(sip_provider,req,this).request()`. -/
def startClient (w : Registration) (req : SipMessage) : Registration :=
  let t := (TransactionClient.new req true).start (S.connection w.sends)
  { w with transactions := w.transactions.new t.1 }.calls w.transactions.next t.2

/-! ## Registering -/

/-- `register(expire_time,content_type,body)`. -/
def register (w : Registration) (expireTime : ℤ) (contentType body : Option String) :
    Registration × Bool :=
  let w := w.observe (.registering expireTime)
  let w := { w with
    client.attempts := 0
    client.expireTime := if 0 < expireTime then expireTime else w.client.expireTime }
  let req := { createRegisterRequest (S.pickBranch w.branches) (A.pickTag w.requests)
      A.registrarUri A.toNaddr A.fromNaddr (some A.contactNaddr) (A.pickCallId w.requests) with
    expires := some expireTime }
  let w := { w with branches := w.branches + 1, requests := w.requests + 1 }
  match w.client.authorization A req with
  | none => (w, false)
  | some authorization =>
    let req := { req with authorization := authorization }
    let req := match body with
      | none => req
      | some _ => { req with contentType := contentType, body := body }
    (w.startClient S req, true)

/-- `register()`. -/
def registerAgain (w : Registration) : Registration × Bool :=
  w.register A S w.client.expireTime none none

/-- `unregisterall`. -/
def unregisterall (w : Registration) : Registration :=
  let w := w.observe (.registering 0)
  let w := { w with client.attempts := 0 }
  let req := { createRegisterRequest (S.pickBranch w.branches) (A.pickTag w.requests)
      A.registrarUri A.toNaddr A.fromNaddr none (A.pickCallId w.requests) with
    expires := some 0 }
  { w with branches := w.branches + 1, requests := w.requests + 1 }.startClient S req

/-- `loopRegister(expire_time,renew_time)`. -/
def loopRegister (w : Registration) (expireTime renewTime : ℤ) : Registration :=
  ({ w with
    client.expireTime := expireTime
    client.renewTime := renewTime
    client.attemptTo := none
    client.registrationTo := none
    client.loop := true }.register A S expireTime none none).1

/-- `halt`. -/
def halt (w : Registration) : Registration :=
  if w.client.isRunning then { w with client.loop := false } else w

/-- One round of the loop in `run`: register and fall asleep, or leave the loop, also by
an exception.  The time to sleep is computed with 32 bits, and a negative one is an
exception. -/
def runRound (w : Registration) : Registration :=
  if w.client.loop then
    let p := w.registerAgain A S
    if p.2 ∧ 0 ≤ Int.bmod (p.1.client.renewTime * 1000) (2 ^ 32) then
      { p.1 with sleepers := p.1.sleepers + 1 }
    else { p.1 with client.isRunning := false }
  else { w with client.isRunning := false }

/-- `(t=new Timer(time,this)).start()`, for one of the two fields: a timer of zero
milliseconds expires at once, one of less is not started. -/
def schedule (w : Registration) (n : RenewalTimerName) (time : ℤ) : Registration × Bool :=
  let w := { w with client := w.client.setTimer (some ⟨time, 0 < time⟩) n }
  if time < 0 then (w, true)
  else
    let w := w.observe (.scheduled n time)
    if time = 0 ∧ w.client.loop then w.registerAgain A S else (w, true)

/-! ## Callbacks of the transactions -/

/-- `onTransSuccessResponse`. -/
def onTransSuccessResponse (w : Registration) (m : SipMessage) : Registration × Bool :=
  let expires := m.grantedExpires
  let w := { w with
    client.nextNonce := m.authenticationInfo.getD w.client.nextNonce
    client.renewTime :=
      if 0 < expires ∧ expires < w.client.renewTime then expires else w.client.renewTime }
  let p := if w.client.loop then
      { w with client.attemptTo := none }.schedule A S .registration (w.client.renewTime * 1000)
    else (w, true)
  if p.2 then (p.1.observe (.onRegistrationSuccess expires m.code), true) else p

/-- The REGISTER is sent again with credentials.  They are computed from the challenge,
with a null pointer when there is no user name or the challenge has no nonce. -/
def sendAgain (w : Registration) (req : SipMessage) (ch : Challenge)
    (authorize : SipMessage → Credentials → SipMessage) : Registration × Bool :=
  if A.username = none ∨ ch.nonce = none then (w, false)
  else
    (w.startClient S (authorize req
      { method := .register
        uri := req.requestUri.getD ⟨"", "", false⟩
        challenge := ch
        qop := w.client.qop
        username := A.username
        passwd := A.passwd }), true)

/-- `onTransFailureResponse`, a 401: the next CSeq and a new branch. -/
def onServerChallenge (w : Registration) (req : SipMessage) (ch : Challenge) :
    Registration × Bool :=
  match ch.realm with
  | none => (w, false)
  | some realm =>
    let req := { req with cseq := req.cseq + 1, branch := some (S.pickBranch w.branches) }
    { w with client := w.client.challenged ch realm, branches := w.branches + 1 }.sendAgain A S
      req ch fun req credentials => { req with authorization := some credentials }

/-- `onTransFailureResponse`, a 407: the next CSeq, and the branch of the challenged
request. -/
def onProxyChallenge (w : Registration) (req : SipMessage) (ch : Challenge) :
    Registration × Bool :=
  match ch.realm with
  | none => (w, false)
  | some realm =>
    let req := { req with cseq := req.cseq + 1 }
    { w with client := w.client.challenged ch realm }.sendAgain A S
      req ch fun req credentials => { req with proxyAuthorization := some credentials }

/-- `onTransFailureResponse`, a failure. -/
def onRegistrationFailure (w : Registration) (m : SipMessage) : Registration × Bool :=
  let p := if w.client.loop then
      { w with client.registrationTo := none }.schedule A S .attempt regcMaxAttemptTimeout
    else (w, true)
  if p.2 then (p.1.observe (.onRegistrationFailure (some m.code)), true) else p

/-- `onTransFailureResponse`; `req` is the request of the transaction. -/
def onTransFailureResponse (w : Registration) (req m : SipMessage) : Registration × Bool :=
  match w.client.challenge A m with
  | some ch =>
    if m.code = 401 then w.onServerChallenge A S req ch else w.onProxyChallenge A S req ch
  | none => w.onRegistrationFailure A S m

/-- The time until the next attempt when there was no answer: twice the last one, within
the bounds. -/
def nextAttempt (c : RegistrationClient) : ℤ :=
  match c.attemptTo with
  | none => min regcMinAttemptTimeout regcMaxAttemptTimeout
  | some t => min (t.time * 2) regcMaxAttemptTimeout

/-- `onTransTimeout`. -/
def onTransTimeout (w : Registration) : Registration × Bool :=
  let p := if w.client.loop then
      { w with client.registrationTo := none }.schedule A S .attempt (nextAttempt w.client)
    else (w, true)
  if p.2 then (p.1.observe (.onRegistrationFailure none), true) else p

/-- The callback of a transaction whose request is `req`. -/
def onClientCallback (w : Registration) (req : SipMessage) :
    ClientCallback → Registration × Bool
  | .onTransProvisionalResponse _ => (w, true)
  | .onTransSuccessResponse m => w.onTransSuccessResponse A S m
  | .onTransFailureResponse m => w.onTransFailureResponse A S req m
  | .onTransTimeout => w.onTransTimeout A S

/-! ## Messages and timers -/

/-- What a transaction did, up to its callback. -/
def putClient (w : Registration) (r : ℕ)
    (o : Outcome TransactionClient ClientCallback ClientRest) : Registration :=
  { w with transactions := w.transactions.put r o.self }.calls r o.calls

/-- The transaction `r` has something to do when the callback has returned. -/
def suspend (w : Registration) (r : ℕ) (rest : Option ClientRest) : Registration :=
  { w with stack := (rest.toList.map fun k => (r, k)) ++ w.stack }

/-- What a transaction did, and its callback. -/
def clientDid (w : Registration) (r : ℕ)
    (o : Outcome TransactionClient ClientCallback ClientRest) : Registration :=
  match o.callback with
  | none => (w.putClient r o).suspend r o.rest
  | some c =>
    let p := (w.putClient r o).onClientCallback A S o.self.request c
    if p.2 then p.1.suspend r o.rest else p.1

/-- The provider passes a message to the transaction that waits for it. -/
def receive (w : Registration) (m : SipMessage) : Registration :=
  match w.sipListeners (.transactionClient m) with
  | none => w
  | some r =>
    match w.transactions.get r with
    | none => w
    | some t => w.clientDid A S r (t.onReceivedMessage m)

/-- A timer of a transaction expires. -/
def expire (w : Registration) (r : ℕ) (n : TimerName) : Registration :=
  match w.transactions.get r with
  | none => w
  | some t => w.clientDid A S r (t.expire n)

/-- The callback of a transaction returns. -/
def returns (w : Registration) : Registration :=
  match w.stack with
  | [] => w
  | (r, k) :: stack =>
    match w.transactions.get r with
    | none => { w with stack := stack }
    | some t =>
      { w with
        stack := stack
        transactions := w.transactions.put r (t.resume k).1 }.calls r (t.resume k).2

/-- `onTimeout(t)`, for the timer held in a field. -/
def onTimeout (w : Registration) (n : RenewalTimerName) : Registration :=
  match w.client.timer n with
  | none => w
  | some t =>
    if t.isRunning then
      let w := { w with client := w.client.setTimer (some { t with isRunning := false }) n }
      if w.client.loop then (w.registerAgain A S).1 else w
    else w

/-! ## Steps -/

/-- A call of the user. -/
def perform (w : Registration) : RegistrationCall → Registration
  | .register => (w.registerAgain A S).1
  | .registerFor expireTime => (w.register A S expireTime none none).1
  | .registerWithBody expireTime contentType body => (w.register A S expireTime contentType body).1
  | .unregister => (w.register A S 0 none none).1
  | .unregisterall => w.unregisterall A S
  | .loopRegister expireTime renewTime => w.loopRegister A S expireTime renewTime
  | .halt => w.halt
  | .run => { w with client.isRunning := true }.runRound A S

end Registration

/-- What happens next to a registration client. -/
inductive RegistrationEvent where
  /-- The user calls a method. -/
  | call (c : RegistrationCall)
  /-- The provider receives a message. -/
  | recv (m : SipMessage)
  /-- A timer of a transaction expires. -/
  | expire (r : ℕ) (n : TimerName)
  /-- A timer for the next registration expires. -/
  | renewal (n : RenewalTimerName)
  /-- A thread in `run` wakes up. -/
  | wake
  /-- A thread in `run` is interrupted. -/
  | interrupt
  /-- The callback of a transaction returns. -/
  | ret
  deriving DecidableEq, Repr

namespace Registration

variable (A : RegistrationAccount) (S : SipStack)

/-- One event. -/
def step (w : Registration) : RegistrationEvent → Registration
  | .call c => (w.observe (.called c)).perform A S c
  | .recv m => w.receive A S m
  | .expire r n => w.expire A S r n
  | .renewal n => w.onTimeout A S n
  | .wake =>
    if 0 < w.sleepers then { w with sleepers := w.sleepers - 1 }.runRound A S else w
  | .interrupt =>
    if 0 < w.sleepers then
      { w with sleepers := w.sleepers - 1, client.isRunning := false }
    else w
  | .ret => w.returns

/-! ## Registrations of alice -/

/-- Alice's account. -/
def sampleAccount : RegistrationAccount where
  registrarUri := ⟨"sip", "registrar", false⟩
  toNaddr := sampleName "alice"
  fromNaddr := sampleName "alice"
  contactNaddr := sampleName "alice"
  username := some "alice"
  passwd := some "secret"

/-- The `n`-th REGISTER that alice makes from nothing, without Expires and credentials. -/
def sampleRegister (n : ℕ) : SipMessage :=
  createRegisterRequest (toString n) (toString n) sampleAccount.registrarUri sampleAccount.toNaddr
    sampleAccount.fromNaddr (some sampleAccount.contactNaddr) (toString n)

end Registration
end SoftPhone
