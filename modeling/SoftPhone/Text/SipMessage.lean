import SoftPhone.Text.Factory

/-!
# Messages and bytes

`setMessage` reads a message from the bytes that have been received, and returns how many of them
it has used; `none` is a `MalformedSipMessageException`, into which every other exception is
turned.  `getBytes` writes a message.
-/

namespace SoftPhone

open SipParser

/-- The default charset, by which bytes and strings are converted.  ASCII characters are the bytes
with their codes. -/
structure Charset where
  decode : List UInt8 → Text
  encode : Text → List UInt8
  decode_ascii : ∀ data, (∀ b ∈ data, b.toNat < 128) → decode data = data.map fun b => Char.ofNat b.toNat
  encode_ascii : ∀ s, (∀ c ∈ s, c.toNat < 128) → encode s = s.map fun c => UInt8.ofNat c.toNat

/-- The charset in which a byte is the code of a character; others are written as `?`. -/
def Charset.latin1 : Charset where
  decode data := data.map fun b => Char.ofNat b.toNat
  encode s := s.map fun c => if c.toNat < 256 then UInt8.ofNat c.toNat else 63
  decode_ascii _ _ := rfl
  encode_ascii s hs := List.map_congr_left fun c hc => if_pos (by have := hs c hc; omega)

namespace ByteUtils

/-- `ByteUtils.indexOf(delim,buf,off,len)`; `none` is -1. -/
def indexOf (delim : List UInt8) : List UInt8 → Option ℕ
  | [] => if delim = [] then some 0 else none
  | b :: data =>
    if delim.isPrefixOf (b :: data) then some 0 else (indexOf delim data).map (· + 1)

end ByteUtils

namespace SipParser

/-! ## First line and headers -/

/-- `getRequestLine()`, and what is left. -/
def getRequestLine (s : Text) : StartLine × Text :=
  let p := getString s
  let q := spanEOH (skipWSP p.2)
  (.request p.1 (getURI q.1), goToNextLine q.2)

/-- `getStatusLine()`, and what is left; the outer `none` is an index out of range or a number
format exception. -/
def getStatusLine (s : Text) : Option (Option StartLine × Text) :=
  if s.length < 4 then none
  else if equalsIgnoreCase (s.take 4) "SIP/".toList = false then some (none, [])
  else
    let p := getString (skipWSP (getString (s.drop 4)).2)
    (parseInt p.1).map fun code =>
      let q := spanEOH p.2
      (some (.status code (trim q.1)), goToNextLine q.2)

/-- `getHeader()`, and what is left. -/
def getHeader (s : Text) : Option Header × Text :=
  if s = [] then (none, [])
  else
    let p := spanEOH s
    (if ':' ∈ p.1 then some ⟨trim (p.1.takeWhile (· != ':')), trim (goTo ':' p.1).tail⟩ else none,
      goToNextLine p.2)

/-- The headers that are read until there is none. -/
def getHeaders : ℕ → Text → List Header
  | 0, _ => []
  | n + 1, s =>
    match getHeader s with
    | (none, _) => []
    | (some h, s) => h :: getHeaders n s

end SipParser

namespace BasicSipMessage

/-! ## Class `BasicSipMessage` -/

/-- `SIP_VERSION`. -/
def sipVersion : Text := "SIP/".toList

/-- The first line, and what is left of the header section. -/
def getFirstLine (s : Text) : Option (Option StartLine × Text) :=
  if s.length < sipVersion.length then none
  else if equalsIgnoreCase (s.take sipVersion.length) sipVersion then getStatusLine s
  else
    let p := getRequestLine s
    some (some p.1, p.2)

/-- `siph_len`: how long the header section is, with the delimiter behind it. -/
def headerLength (data : List UInt8) : Option ℕ :=
  match ByteUtils.indexOf [13, 10, 13, 10] data with
  | some i => some (i + 4)
  | none => (ByteUtils.indexOf [10, 10] data).map (· + 2)

/-- The header section: how long it is, and the message without the body. -/
def parseHeaders (charset : Charset) (data : List UInt8) : Option (ℕ × BasicSipMessage) := do
  let siphLen ← headerLength data
  let p ← getFirstLine (charset.decode (data.take siphLen))
  some (siphLen, { startLine := p.1, headers := SipParser.getHeaders p.2.length p.2 })

/-- `body_len`, where so many bytes are left; `none` is a number format exception. -/
def bodyLength (m : BasicSipMessage) (left : ℕ) : Option ℤ :=
  match m.getHeader SipHeaders.contentLength with
  | some clh => getInt clh.value
  | none => if m.hasHeader SipHeaders.contentType then some left else some 0

/-- `(body_len>0)? ByteUtils.copy(buf,off+siph_len,body_len) : null`; the outer `none` is an
index out of range. -/
def copyBody (rest : List UInt8) (bodyLen : ℤ) : Option (Option (List UInt8)) :=
  if 0 < bodyLen then
    if bodyLen ≤ rest.length then some (some (rest.take bodyLen.toNat)) else none
  else some none

/-- `setMessage(buf,off,len)`, of a new message; the bytes are the ones from the offset on. -/
def setMessage (charset : Charset) (data : List UInt8) : Option (BasicSipMessage × ℤ) := do
  let p ← parseHeaders charset data
  let bodyLen ← p.2.bodyLength (data.length - p.1)
  let body ← copyBody (data.drop p.1) bodyLen
  some ({ p.2 with body := body }, p.1 + bodyLen)

/-- `toString` of the request line or of the status line. -/
def lineText : Option StartLine → Text
  | none => []
  | some (.request method uri) =>
    method ++ ' ' :: uri.getD "null".toList ++ " SIP/2.0\r\n".toList
  | some (.status code reason) =>
    "SIP/2.0 ".toList ++ valueOf code ++ ' ' :: reason ++ "\r\n".toList

/-- `Header.toString`. -/
def headerText (h : Header) : Text := h.name ++ ": ".toList ++ h.value ++ "\r\n".toList

/-- `getMessageHeader`. -/
def getMessageHeader (m : BasicSipMessage) : Text :=
  lineText m.startLine ++ m.headers.flatMap headerText ++ "\r\n".toList

/-- `getBytes`. -/
def getBytes (charset : Charset) (m : BasicSipMessage) : List UInt8 :=
  charset.encode m.getMessageHeader ++ m.body.getD []

end BasicSipMessage
end SoftPhone
