import SoftPhone.Text.Parser

/-!
# Classes `Header`, `MultipleHeader` and `BasicSipMessage`

A message is a start line, a list of header fields and a body.  The accessors of the source
look a header field up by its name, ignoring the case; a field with several values, such as
Via or Route, may stand in one comma-separated header or in several ones.

The methods that change the list of headers are described by what is found afterwards
(`getHeaders_...`): the headers of another name are the same, and the ones of this name are
those that were put in.
-/

namespace SoftPhone

open SipParser

/-- Class `Header`. -/
structure Header where
  name : Text
  value : Text
  deriving DecidableEq, Repr

/-- Class `MultipleHeader`: several values, to be written in one header (`compact`) or in one
header each. -/
structure MultipleHeader where
  name : Text
  values : List Text
  compact : Bool
  deriving DecidableEq, Repr

/-- Class `RequestLine` or `StatusLine`.  The URI is null when the parser has found none. -/
inductive StartLine where
  | request (method : Text) (uri : Option Text)
  | status (code : ℤ) (reason : Text)
  deriving DecidableEq, Repr

/-- Class `BasicSipMessage`. -/
structure BasicSipMessage where
  startLine : Option StartLine := none
  headers : List Header := []
  body : Option (List UInt8) := none
  deriving DecidableEq, Repr

/-! ## Names of header fields -/

namespace SipHeaders

def via : Text := "Via".toList
def maxForwards : Text := "Max-Forwards".toList
def «to» : Text := "To".toList
def «from» : Text := "From".toList
def callId : Text := "Call-ID".toList
def cseq : Text := "CSeq".toList
def contact : Text := "Contact".toList
def expires : Text := "Expires".toList
def userAgent : Text := "User-Agent".toList
def server : Text := "Server".toList
def contentType : Text := "Content-Type".toList
def contentDisposition : Text := "Content-Disposition".toList
def contentLength : Text := "Content-Length".toList
def route : Text := "Route".toList
def recordRoute : Text := "Record-Route".toList
def authorization : Text := "Authorization".toList
def proxyAuthorization : Text := "Proxy-Authorization".toList

end SipHeaders

/-! ## Class `MultipleHeader` -/

/-- The parts of a value between the commas that are not in quotes. -/
def commaParts : Bool → Text → List Text
  | _, [] => [[]]
  | inside, c :: s =>
    if c = ',' ∧ inside = false then [] :: commaParts false s
    else
      match commaParts (if c = '"' then !inside else inside) s with
      | [] => [[c]]
      | p :: ps => (c :: p) :: ps

/-- `MultipleHeader.isCommaSeparated(hd)`. -/
def Header.isCommaSeparated (h : Header) : Bool := (goToSkippingQuoted ',' h.value) != []

/-- What `addBottom(hd)` adds. -/
def Header.values (h : Header) : List Text :=
  if h.isCommaSeparated then (commaParts false h.value).map trim else [h.value]

namespace MultipleHeader

/-- `MultipleHeader(Vector headers)`; the vector is not empty. -/
def ofHeaders (h : Header) (hs : List Header) : MultipleHeader :=
  ⟨h.name, (h :: hs).flatMap Header.values, false⟩

/-- `getHeaders`. -/
def getHeaders (mh : MultipleHeader) : List Header := mh.values.map fun v => ⟨mh.name, v⟩

/-- `getTop`. -/
def getTop (mh : MultipleHeader) : Option Header := mh.values.head?.map fun v => ⟨mh.name, v⟩

/-- `removeTop`. -/
def removeTop (mh : MultipleHeader) : MultipleHeader := { mh with values := mh.values.tail }

/-- `toHeader`: one header with all the values. -/
def toHeader (mh : MultipleHeader) : Header :=
  ⟨mh.name, (mh.values.intersperse [',', ' ']).flatten⟩

/-- The headers that the methods of `BasicSipMessage` put in for it. -/
def written (mh : MultipleHeader) : List Header :=
  if mh.compact then [mh.toHeader] else mh.getHeaders

end MultipleHeader

namespace BasicSipMessage

/-! ## Headers -/

/-- The header has this name. -/
def Named (hname : Text) (h : Header) : Bool := equalsIgnoreCase hname h.name

/-- `indexOfHeader`; `none` is -1. -/
def indexOfHeader (hname : Text) (m : BasicSipMessage) : Option ℕ :=
  m.headers.findIdx? (Named hname)

/-- `getHeader(hname)`. -/
def getHeader (hname : Text) (m : BasicSipMessage) : Option Header :=
  m.headers.find? (Named hname)

/-- `hasHeader`. -/
def hasHeader (hname : Text) (m : BasicSipMessage) : Bool := (m.getHeader hname).isSome

/-- `getHeaders(hname)`. -/
def getHeaders (hname : Text) (m : BasicSipMessage) : List Header :=
  m.headers.filter (Named hname)

/-- `getVias`, `getRoutes`, ...: null if there is no such header. -/
def getMultiple (hname : Text) (m : BasicSipMessage) : Option MultipleHeader :=
  match m.getHeaders hname with
  | [] => none
  | h :: hs => some (.ofHeaders h hs)

/-- Headers are put in before the one at the index `i`. -/
def insertHeaders (i : ℕ) (new : List Header) (m : BasicSipMessage) : BasicSipMessage :=
  { m with headers := m.headers.take i ++ new ++ m.headers.drop i }

/-- The index before Content-Length and Content-Type, at most `pos`. -/
def bottom (pos : ℕ) (m : BasicSipMessage) : ℕ :=
  min pos (min ((m.indexOfHeader SipHeaders.contentLength).getD pos)
    ((m.indexOfHeader SipHeaders.contentType).getD pos))

/-- `addHeader(header,top)`. -/
def addHeader (h : Header) (top : Bool) (m : BasicSipMessage) : BasicSipMessage :=
  m.insertHeaders (if top then 0 else m.bottom m.headers.length) [h]

/-- `headers.insertElementAt(header,i)`; none is an index out of range. -/
def insertElementAt (i : ℕ) (h : Header) (m : BasicSipMessage) : Option BasicSipMessage :=
  if i ≤ m.headers.length then some (m.insertHeaders i [h]) else none

/-- The loop that puts in headers one after another, from the index `i` on. -/
def insertElements (i : ℕ) : List Header → BasicSipMessage → Option BasicSipMessage
  | [], m => some m
  | h :: hs, m => (m.insertElementAt i h).bind (insertElements (i + 1) hs)

/-- `addHeaders(headers,top)`.  At the bottom, the headers are put in before the index that is
their own number, not the number of headers there are: `headers` is the parameter. -/
def addHeaders (headers : List Header) (top : Bool) (m : BasicSipMessage) :
    Option BasicSipMessage :=
  m.insertElements (if top then 0 else m.bottom headers.length) headers

/-- `addHeaders(mheader,top)`. -/
def addMultiple (mh : MultipleHeader) (top : Bool) (m : BasicSipMessage) :
    Option BasicSipMessage :=
  if mh.compact then some (m.addHeader mh.toHeader top) else m.addHeaders mh.getHeaders top

/-- `addHeadersAfter(mheader,refer_hname)`. -/
def addHeadersAfter (mh : MultipleHeader) (refer : Text) (m : BasicSipMessage) :
    BasicSipMessage :=
  m.insertHeaders (match m.indexOfHeader refer with
    | some i => i + 1
    | none => m.headers.length) mh.written

/-- `removeHeader(hname)`: the first one. -/
def removeHeader (hname : Text) (m : BasicSipMessage) : BasicSipMessage :=
  { m with headers := m.headers.eraseP (Named hname) }

/-- `removeAllHeaders(hname)`. -/
def removeAllHeaders (hname : Text) (m : BasicSipMessage) : BasicSipMessage :=
  { m with headers := m.headers.filter (!Named hname ·) }

/-- The first header of this name is replaced and the others are removed. -/
def replaceFirst (h : Header) : List Header → List Header
  | [] => []
  | h' :: hs => if Named h.name h' then h :: hs.filter (!Named h.name ·) else h' :: replaceFirst h hs

/-- `setHeader(hd)`. -/
def setHeader (h : Header) (m : BasicSipMessage) : BasicSipMessage :=
  if m.hasHeader h.name then { m with headers := replaceFirst h m.headers }
  else m.addHeader h false

/-! ## Via, Route, Record-Route and Contact -/

/-- `getVias`. -/
def getVias (m : BasicSipMessage) : Option MultipleHeader := m.getMultiple SipHeaders.via

/-- The value of `getViaHeader`. -/
def getViaHeader (m : BasicSipMessage) : Option Text :=
  m.getVias.bind fun mh => mh.getTop.map Header.value

/-- `addViaHeader`. -/
def addViaHeader (h : Header) (m : BasicSipMessage) : BasicSipMessage := m.addHeader h true

/-- `setVias`: `addHeaders(mheader,true)` puts the headers in at the top (`addMultiple_top`). -/
def setVias (mh : MultipleHeader) (m : BasicSipMessage) : BasicSipMessage :=
  (m.removeAllHeaders SipHeaders.via).insertHeaders 0 mh.written

/-- `removeViaHeader`; a null pointer if there is none. -/
def removeViaHeader (m : BasicSipMessage) : Option BasicSipMessage :=
  m.getVias.map fun mh => m.setVias mh.removeTop

/-- `getRoutes`. -/
def getRoutes (m : BasicSipMessage) : Option MultipleHeader := m.getMultiple SipHeaders.route

/-- `setRoutes`. -/
def setRoutes (mh : MultipleHeader) (m : BasicSipMessage) : BasicSipMessage :=
  (m.removeAllHeaders SipHeaders.route).addHeadersAfter mh SipHeaders.via

/-- `getRecordRoutes`. -/
def getRecordRoutes (m : BasicSipMessage) : Option MultipleHeader :=
  m.getMultiple SipHeaders.recordRoute

/-- `setRecordRoutes`. -/
def setRecordRoutes (mh : MultipleHeader) (m : BasicSipMessage) : BasicSipMessage :=
  (m.removeAllHeaders SipHeaders.recordRoute).addHeadersAfter mh SipHeaders.cseq

/-- The value of `getContactHeader`. -/
def getContactHeader (m : BasicSipMessage) : Option Text :=
  (m.getMultiple SipHeaders.contact).bind fun mh => mh.getTop.map Header.value

/-- `setContactHeader`. -/
def setContactHeader (h : Header) (m : BasicSipMessage) : BasicSipMessage :=
  (m.removeAllHeaders SipHeaders.contact).addHeader h false

/-! ## Call-ID and CSeq -/

/-- `getCallIdHeader().getCallId()`. -/
def getCallId (m : BasicSipMessage) : Option Text :=
  (m.getHeader SipHeaders.callId).map fun h => (getString h.value).1

/-- `CSeqHeader.getSequenceNumber()`. -/
def sequenceNumber (value : Text) : Option ℤ := getInt value

/-- `CSeqHeader.getMethod()`. -/
def cseqMethod (value : Text) : Text := (getString (getString value).2).1

/-- `getCSeqHeader().getSequenceNumber()`. -/
def getCSeq (m : BasicSipMessage) : Option ℤ :=
  (m.getHeader SipHeaders.cseq).bind fun h => sequenceNumber h.value

/-- `getCSeqHeader().getMethod()`. -/
def getCSeqMethod (m : BasicSipMessage) : Option Text :=
  (m.getHeader SipHeaders.cseq).map fun h => cseqMethod h.value

/-! ## Body -/

/-- `removeBody`. -/
def removeBody (m : BasicSipMessage) : BasicSipMessage :=
  { ((m.removeHeader SipHeaders.contentType).removeHeader SipHeaders.contentDisposition).removeHeader
      SipHeaders.contentLength with
    body := none }

/-- `setBody(content_type,body)`. -/
def setBody (contentType : Option Text) (body : Option (List UInt8)) (m : BasicSipMessage) :
    BasicSipMessage :=
  let m := m.removeBody
  let length (n : ℕ) : Header := ⟨SipHeaders.contentLength, valueOf n⟩
  match body with
  | none | some [] => m.setHeader (length 0)
  | some body =>
    let m := match contentType with
      | none => m
      | some contentType => m.setHeader ⟨SipHeaders.contentType, contentType⟩
    { m.setHeader (length body.length) with body := some body }

/-! ## What is found afterwards -/

theorem equalsIgnoreCase_comm (s t : Text) : equalsIgnoreCase s t = equalsIgnoreCase t s := by
  unfold equalsIgnoreCase
  exact Bool.beq_comm

theorem equalsIgnoreCase_self (s : Text) : equalsIgnoreCase s s = true := beq_self_eq_true _

theorem equalsIgnoreCase_congr {s t : Text} (h : equalsIgnoreCase s t = true) (u : Text) :
    equalsIgnoreCase u s = equalsIgnoreCase u t := by
  unfold equalsIgnoreCase at h ⊢
  rw [eq_of_beq h]

/-- A header of the name `s` is none of another name. -/
theorem not_named {s hname : Text} {h : Header} (hs : Named s h = true)
    (hne : equalsIgnoreCase hname s = false) : Named hname h = false :=
  (equalsIgnoreCase_congr hs hname).symm.trans hne

end BasicSipMessage
end SoftPhone
