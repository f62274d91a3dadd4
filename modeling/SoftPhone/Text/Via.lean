import SoftPhone.Text.Message
import SoftPhone.Text.Parameters

/-!
# Class `ViaHeader`

`receivedVia` is what the provider makes of the top Via of a request that it has received.
-/

namespace SoftPhone

open SipParser

namespace ViaHeader

open ParametricHeader

def branchParam : Text := "branch".toList
def receivedParam : Text := "received".toList
def rportParam : Text := "rport".toList

/-- `new ViaHeader(proto,host,port)`. -/
def ofHost (proto host : Text) (port : ℤ) : Text :=
  "SIP/2.0/".toList ++ proto.map Char.toUpper ++ ' ' :: host ++ ':' :: valueOf port

/-- `getProtocol`. -/
def getProtocol (value : Text) : Text :=
  (getString (skipWSP (goTo '/' ((goTo '/' (value.drop 3)).drop 4)).tail)).1

/-- `getSentBy`. -/
def getSentBy (value : Text) : Option Text :=
  match skipWSP (getString (goTo '/' (goTo '/' value).tail)).2 with
  | [] => none
  | c :: s => some ((c :: s).takeWhile (!isSeparator ·))

/-- `getHost`; a null pointer without sent-by. -/
def getHost (value : Text) : Option Text := (getSentBy value).map (·.takeWhile (· != ':'))

/-- `getPort`; `none` is a number format exception or a null pointer. -/
def getPort (value : Text) : Option ℤ :=
  (getSentBy value).bind fun sentBy =>
    match goTo ':' sentBy with
    | [] => some (-1)
    | _ :: s => getInt s

/-- `hasBranch`. -/
def hasBranch (value : Text) : Bool := hasParameter firstSemi branchParam value

/-- `getBranch`; the outer `none` is an index out of range. -/
def getBranch (value : Text) : Option (Option Text) := getParameter firstSemi branchParam value

/-- `setBranch(branch)`. -/
def setBranch (branch : Option Text) (value : Text) : Text :=
  setParameter firstSemi branchParam branch value

/-- `setReceived(addr)`. -/
def setReceived (addr value : Text) : Text :=
  setParameter firstSemi receivedParam (some addr) value

/-- `hasRport`. -/
def hasRport (value : Text) : Bool := hasParameter firstSemi rportParam value

/-- `setRport(port)`. -/
def setRport (port : ℤ) (value : Text) : Text :=
  setParameter firstSemi rportParam (if port < 0 then none else some (valueOf port)) value

/-- `SipStack.default_port`. -/
def defaultPort : ℤ := 5060

/-- `SipProvider.onReceivedMessage`, the top Via of a request from the address `srcAddr` and
the port `srcPort`, and `via_changed`. -/
def receivedVia (forceRport : Bool) (srcAddr : Text) (srcPort : ℤ) (value : Text) :
    Option (Text × Bool) :=
  (getHost value).bind fun viaAddr =>
    (getPort value).map fun viaPort =>
      let viaPort := if viaPort ≤ 0 then defaultPort else viaPort
      let p := if viaAddr ≠ srcAddr then (setReceived srcAddr value, true) else (value, false)
      if hasRport p.1 ∨ forceRport = true ∧ viaPort ≠ srcPort then (setRport srcPort p.1, true)
      else p

end ViaHeader
end SoftPhone
