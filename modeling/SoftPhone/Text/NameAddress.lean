import SoftPhone.Text.Parameters

/-!
# Classes `NameAddress`, `GenericURI` and `EndPointHeader`

The text of a name-address has an optional display name, in quotes, and a URI, in angle
brackets.  `getNameAddress` looks for the first bracket in front of a known scheme and does not
look at quotes.  `indexOfFirstSemi` of these headers looks for the first closing bracket that
is not in quotes.
-/

namespace SoftPhone

open SipParser ParametricHeader

/-- Class `NameAddress`. -/
structure NameAddressText where
  name : Option Text := none
  uri : Text
  deriving DecidableEq, Repr

namespace SipParser

/-- `goTo(ss)`: what is skipped, and what is left from the first of the strings on. -/
def spanTo (ss : List Text) : Text → Text × Text
  | [] => ([], [])
  | c :: s =>
    if ss.any (·.isPrefixOf (c :: s)) then ([], c :: s)
    else
      let p := spanTo ss s
      (c :: p.1, p.2)

/-- `uri_schemes`. -/
def uriSchemes : List Text := ["sip:".toList, "sips:".toList, "tel:".toList]

/-- `naddr_uri_schemes`. -/
def naddrUriSchemes : List Text := ["<sip:".toList, "<sips:".toList, "<tel:".toList]

/-- `getURI()`. -/
def getURI (s : Text) : Option Text :=
  match (spanTo uriSchemes s).2 with
  | [] => none
  | c :: s => some ((c :: s).takeWhile (!isUriSeparator ·))

/-- `new SipURI(uri)`. -/
def sipURI (uri : Text) : Text :=
  if "sips:".toList.isPrefixOf uri ∨ "sip:".toList.isPrefixOf uri then uri
  else "sip:".toList ++ uri

/-- The display name in the text in front of the bracket; the outer `none` is an index out of
range. -/
def displayName (text : Text) : Option (Option Text) :=
  let text := trim text
  let unquoted := match text with
    | [] => some []
    | c :: s =>
      if c = '"' ∧ (c :: s).getLast? = some '"' then
        if s = [] then none else some s.dropLast
      else some (c :: s)
  unquoted.map fun text => if text = [] then none else some text

/-- `getNameAddress()`. -/
def getNameAddress (s : Text) : Option NameAddressText :=
  let p := spanTo naddrUriSchemes s
  if p.2 = [] then
    some { uri := (getURI s).getD (sipURI (getString s).1) }
  else
    (displayName p.1).map fun name => { name := name, uri := (getURI p.2).getD [] }

end SipParser

/-- `NameAddress.toString`. -/
def NameAddressText.toText (naddr : NameAddressText) : Text :=
  (match naddr.name with
    | none => []
    | some name => '"' :: name ++ ['"', ' ']) ++ '<' :: naddr.uri ++ ['>']

namespace GenericURI

/-- The parameters of a URI stand behind its first semicolon, in quotes or not. -/
def firstSemi (uri : Text) : Text × Text := (uri.takeWhile (· != ';'), goTo ';' uri)

/-- `hasParameter(name)`. -/
def hasParameter (name uri : Text) : Bool :=
  let s := (firstSemi uri).2.tail
  anyParameter name s.length s

/-- `removeParameter(name)`. -/
def removeParameter (name uri : Text) : Text := ParametricHeader.removeParameter firstSemi name uri

end GenericURI

namespace NameAddressHeader

/-- `NameAddressHeader.indexOfFirstSemi`. -/
def firstSemi (value : Text) : Text × Text :=
  let p := spanSkippingQuoted '>' false value
  if p.2 = [] then ParametricHeader.firstSemi value
  else
    let q := spanSkippingQuoted ';' false p.2
    (p.1 ++ q.1, q.2)

end NameAddressHeader

namespace EndPointHeader

def tagParam : Text := "tag".toList
def expiresParam : Text := "expires".toList

/-- The loop body of `getNameAddress`. -/
def withoutParameter (param : Text) (naddr : NameAddressText) : NameAddressText :=
  if GenericURI.hasParameter param naddr.uri then
    { naddr with uri := GenericURI.removeParameter param naddr.uri }
  else naddr

/-- The parameters of the header that the parser has left with the URI are removed. -/
def withoutParameters (naddr : NameAddressText) : NameAddressText :=
  withoutParameter expiresParam (withoutParameter tagParam naddr)

/-- `EndPointHeader.getNameAddress`. -/
def getNameAddress (value : Text) : Option NameAddressText :=
  (SipParser.getNameAddress value).map withoutParameters

/-- `getTag`; the outer `none` is an index out of range. -/
def getTag (value : Text) : Option (Option Text) :=
  getParameter NameAddressHeader.firstSemi tagParam value

/-- `setTag`. -/
def setTag (tag value : Text) : Text :=
  setParameter NameAddressHeader.firstSemi tagParam (some tag) value

/-- `new EndPointHeader(hname,nameaddr,tag)`, the value. -/
def ofNameAddress (naddr : NameAddressText) (tag : Option Text) : Text :=
  match tag with
  | none => naddr.toText
  | some tag => setTag tag naddr.toText

end EndPointHeader
end SoftPhone
