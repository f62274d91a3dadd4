import SoftPhone.Text.EndPoints
import SoftPhone.Text.Matching

/-!
# The ACK for a non-2xx response has what it has to have

The ACK is put together from the request, of which the Request-URI, the Call-ID, the CSeq
number, the From and the Route values are taken, and from the response, of which the To and the
top Via are taken.  The Route values, the Call-ID and the CSeq are always the same ones, and so
are the protocol, the host, the port and the branch of a Via that the provider spares.  The
name-addresses and the tags are written anew: they are the same if they can be read again from
what is written (`acknowledges`).

That condition is needed: a scheme in angle brackets within a display name takes the tag of the
ACK (`quotedScheme_not_acknowledges`).
-/

namespace SoftPhone

open SipParser ViaHeader

namespace BasicSipMessage

/-- What an ACK has to take over from the request and from the response. -/
structure Acknowledges (req resp ack : BasicSipMessage) : Prop where
  requestUri : ack.getRequestUri = req.getRequestUri
  callId : ack.getCallId = req.getCallId
  cseq : ack.getCSeq = req.getCSeq
  fromName : ack.getNameAddress SipHeaders.from = req.getNameAddress SipHeaders.from
  fromTag : ack.getTag SipHeaders.from = req.getTag SipHeaders.from
  toName : ack.getNameAddress SipHeaders.to = resp.getNameAddress SipHeaders.to
  toTag : ack.getTag SipHeaders.to = resp.getTag SipHeaders.to
  method : ack.getMethod = some "ACK".toList
  cseqMethod : ack.getCSeqMethod = some "ACK".toList
  /-- There is one Via value, with the parts of the topmost one of the request. -/
  vias : ∃ v w, req.getViaHeader = some v ∧ ack.getVias.map MultipleHeader.values = some [w] ∧
    getProtocol w = getProtocol v ∧ getHost w = getHost v ∧ getPort w = getPort v ∧
    getBranch w = getBranch v
  routes : ack.getRoutes = req.getRoutes

/-- The name-address and the tag of a header can be read, and read again from what is written. -/
def Rewritten (hname : Text) (m : BasicSipMessage) : Prop :=
  ∃ naddr tag, m.getNameAddress hname = some naddr ∧ m.getTag hname = some tag ∧
    EndPointHeader.Rewritable naddr tag

/-- A header that is made from what another one has been read as. -/
theorem endPoint_rewritten {hname : Text} {m m' : BasicSipMessage} (h : Rewritten hname m)
    (hmade : ∃ naddr tag, m.getNameAddress hname = some naddr ∧ m.getTag hname = some tag ∧
      m'.getHeaders hname = [⟨hname, EndPointHeader.ofNameAddress naddr tag⟩]) :
    m'.getNameAddress hname = m.getNameAddress hname ∧ m'.getTag hname = m.getTag hname := by
  obtain ⟨naddr, tag, hnaddr, htag, hrewritable⟩ := h
  obtain ⟨naddr', tag', hnaddr', htag', hheaders⟩ := hmade
  obtain rfl := Option.some.inj (hnaddr.symm.trans hnaddr')
  obtain rfl := Option.some.inj (htag.symm.trans htag')
  have hheader : m'.getHeader hname = some ⟨hname, EndPointHeader.ofNameAddress naddr tag⟩ := by
    rw [getHeader_eq_head?, hheaders]
    rfl
  have hread : naddr.WasRead := by
    obtain ⟨h, -, hvalue⟩ := Option.bind_eq_some_iff.mp hnaddr
    exact EndPointHeader.wasRead_of_getNameAddress hvalue
  rw [hnaddr, htag]
  unfold getNameAddress getTag
  rw [hheader]
  exact ⟨EndPointHeader.getNameAddress_ofNameAddress hread hrewritable,
    EndPointHeader.getTag_ofNameAddress hrewritable⟩

/-- The host and the port stand in the head. -/
theorem getHost_congr {head branch v w : Text} (hv : IsVia head branch v) (hw : IsVia head branch w) :
    getHost w = getHost v ∧ getPort w = getPort v := by
  unfold getHost getPort
  rw [hv.getSentBy, hw.getSentBy]
  exact ⟨rfl, rfl⟩

/-- There is a sent-by, and so a host. -/
theorem getHost_ne_none {head branch v : Text} (hv : IsVia head branch v) : getHost v ≠ none := by
  have hsentBy : getSentBy head ≠ none := by
    have hne := hv.isHead.sentBy
    unfold behindSlashes at hne
    unfold getSentBy
    split
    · rename_i hnil
      exact absurd hnil hne
    · exact Option.some_ne_none _
  unfold getHost
  rw [hv.getSentBy]
  simpa using hsentBy

/-- **The ACK for a response to an INVITE.**  The request `r` with the top Via `v` has arrived as
`r'`, the provider has spared the branch, and `resp` was built from `r'`.  When the From of the
request and the To of the response can be read again from what is written, an ACK is made, and it
has what it has to have. -/
theorem acknowledges (config : FactoryConfig) (pick : Token) {config' : FactoryConfig}
    {head branch addr v : Text}
    {r r' resp : BasicSipMessage} {code : ℤ} {reason : Text} {localTag : Option Text}
    {contact : Option NameAddressText} {contentType : Option Text} {body : Option (List UInt8)}
    (huri : r.getRequestUri ≠ none) (hcallId : r.getCallId ≠ none) (hcseq : r.getCSeq ≠ none)
    (hv : r.getViaHeader = some v) (hvia : IsVia head branch v) (hport : getPort v ≠ none)
    (hupper : (getProtocol v).map Char.toUpper = getProtocol v) (haddr : IsAddress addr)
    (hspared : Spared addr v) (harr : Arrives addr r r')
    (hresp : createResponse config' r' code reason localTag contact contentType body = some resp)
    (hfrom : Rewritten SipHeaders.from r) (hto : Rewritten SipHeaders.to resp) :
    ∃ ack, createNon2xxAckRequest config pick r resp = some ack ∧ Acknowledges r resp ack := by
  obtain ⟨htop', -⟩ := arrives_spec hv hvia haddr hspared harr
  obtain ⟨w, hw, hviaW⟩ := (answers_spec (createResponse_spec hresp) htop').1
  obtain ⟨hhostW, hportW⟩ := getHost_congr hvia hviaW
  have hprotocolW : getProtocol w = getProtocol v := hviaW.getProtocol.trans hvia.getProtocol.symm
  have hbranchW : getBranch w ≠ none := by
    rw [hviaW.getBranch]
    exact Option.some_ne_none _
  obtain ⟨fromName, fromTag, hfromName, hfromTag, -⟩ := id hfrom
  obtain ⟨toName, toTag, htoName, htoTag, -⟩ := id hto
  obtain ⟨ack, hack⟩ := createNon2xxAckRequest_isSome config pick huri
    (htoName ▸ Option.some_ne_none _) (hfromName ▸ Option.some_ne_none _) hcallId hcseq
    (hfromTag ▸ Option.some_ne_none _) (htoTag ▸ Option.some_ne_none _) hw hbranchW
    (hhostW ▸ getHost_ne_none hvia) (hportW ▸ hport)
  refine ⟨ack, hack, ?_⟩
  have hmade := createNon2xxAckRequest_spec hack
  obtain ⟨uri, huri, hline⟩ := hmade.startLine
  obtain ⟨huriAck, hmethod⟩ := getRequestUri_of_startLine hline
  obtain ⟨hfromName, hfromTag⟩ := endPoint_rewritten hfrom hmade.fromHeader
  obtain ⟨htoName, htoTag⟩ := endPoint_rewritten hto hmade.toHeader
  obtain ⟨w', viaBranch, host, port, hw', hbranch, hhost, hport, hheaders⟩ := hmade.via
  obtain rfl := Option.some.inj (hw.symm.trans hw')
  obtain rfl := Option.some.inj (hviaW.getBranch.symm.trans hbranch)
  obtain ⟨made, hdef⟩ : ∃ made, made = setBranch (some branch) (ofHost (getProtocol w) host port) :=
    ⟨_, rfl⟩
  rw [← hdef] at hheaders
  obtain ⟨hviaMade, hprotocol, hhostMade, hportMade, -⟩ := isVia_made hviaW hhost hport hdef
  refine ⟨huriAck.trans huri.symm, hmade.callId.2, hmade.cseq.2.1, hfromName, hfromTag, htoName,
    htoTag, hmethod, hmade.cseq.2.2,
    ⟨v, made, hv, ?_, ?_, ?_, ?_, ?_⟩, hmade.routes⟩
  · have hplain : MultipleHeader.Plain SipHeaders.via ⟨SipHeaders.via, [made], false⟩ :=
      ⟨equalsIgnoreCase_self _, rfl, List.cons_ne_nil _ _,
        List.forall_mem_singleton.mpr hviaMade.comma⟩
    unfold getVias
    rw [getMultiple_of_getHeaders hplain hheaders]
    rfl
  · rw [hprotocol, hprotocolW, hupper]
  · exact hhostMade.trans (hhost.symm.trans hhostW)
  · exact hportMade.trans (hport.symm.trans hportW)
  · exact hviaMade.getBranch.trans hvia.getBranch.symm

/-- An INVITE with two Via values and a Route, from this caller. -/
def inviteFrom (caller : Text) : BasicSipMessage where
  startLine := some (.request "INVITE".toList (some "sip:bob@h".toList))
  headers := [⟨SipHeaders.via, "SIP/2.0/UDP 10.0.0.2:5060;branch=z9hG4bK2;rport".toList⟩,
    ⟨SipHeaders.via, "SIP/2.0/UDP 10.0.0.1:5060;branch=z9hG4bK1".toList⟩,
    ⟨SipHeaders.to, "Bob <sip:bob@h>".toList⟩, ⟨SipHeaders.from, caller⟩,
    ⟨SipHeaders.callId, "call".toList⟩, ⟨SipHeaders.cseq, "1 INVITE".toList⟩,
    ⟨SipHeaders.route, "<sip:p1;lr>, <sip:p2;lr>".toList⟩]

/-- The caller has quotes in the display name, which do no harm when they are closed. -/
theorem acknowledges_quoted :
    let r := inviteFrom "\"Alice \\\"A\\\" B\" <sip:alice@h>;tag=1".toList
    ∃ r' resp ack, onReceivedMessage false "192.0.2.1".toList 4000 r = some r' ∧
      createResponse {} r' 486 "Busy Here".toList (some "2".toList) none none none = some resp ∧
      createNon2xxAckRequest {} sampleBranch r resp = some ack ∧ Acknowledges r resp ack := by
  intro r
  have hvia : IsVia "SIP/2.0/UDP 10.0.0.2:5060".toList "z9hG4bK2".toList
      "SIP/2.0/UDP 10.0.0.2:5060;branch=z9hG4bK2;rport".toList :=
    ⟨by decide +kernel, ⟨"branch=z9hG4bK2;rport".toList, rfl, by decide +kernel,
      ⟨"branch".toList, "=z9hG4bK2".toList⟩, by decide +kernel, by decide +kernel⟩, by decide +kernel⟩
  have hrun : ((onReceivedMessage false "192.0.2.1".toList 4000 r).bind fun r' =>
      createResponse {} r' 486 "Busy Here".toList (some "2".toList) none none none).map
        (fun resp => (resp.getNameAddress SipHeaders.to, resp.getTag SipHeaders.to)) =
      some (some ⟨some "Bob".toList, "sip:bob@h".toList⟩, some (some "2".toList)) := by
    decide +kernel
  obtain ⟨resp, hresp, hread⟩ := Option.map_eq_some_iff.mp hrun
  obtain ⟨r', hr', hresp⟩ := Option.bind_eq_some_iff.mp hresp
  obtain ⟨htoName, htoTag⟩ := Prod.mk.inj hread
  have hfrom : Rewritten SipHeaders.from r :=
    ⟨⟨some "Alice \\\"A\\\" B".toList, "sip:alice@h".toList⟩, some "1".toList,
      by decide +kernel, by decide +kernel, by decide +kernel⟩
  have hto : Rewritten SipHeaders.to resp := ⟨_, _, htoName, htoTag, by decide +kernel⟩
  obtain ⟨ack, hack, hacknowledges⟩ :=
    acknowledges {} sampleBranch (by decide +kernel) (by decide +kernel)
      (by decide +kernel) (by decide +kernel : r.getViaHeader = some _) hvia (by decide +kernel)
      (by decide +kernel) (by decide : IsAddress "192.0.2.1".toList) (by decide +kernel)
      (.inr ⟨_, _, hr'⟩) hresp hfrom hto
  exact ⟨r', resp, ack, hr', hresp, hack, hacknowledges⟩

/-- **A scheme in the display name takes the tag away**: the display name is read as `"x`, and
the quote is open in the ACK. -/
theorem quotedScheme_not_acknowledges :
    let r := inviteFrom "\"x <sip:y> z\" <sip:alice@h>;tag=1".toList
    ∃ resp ack, createResponse {} r 486 "Busy Here".toList (some "2".toList) none none none =
        some resp ∧
      createNon2xxAckRequest {} sampleBranch r resp = some ack ∧
      r.getTag SipHeaders.from = some (some "1".toList) ∧ ack.getTag SipHeaders.from = some none ∧
      ¬Acknowledges r resp ack := by
  intro r
  have hrun : ((createResponse {} r 486 "Busy Here".toList (some "2".toList) none none none).bind
      fun resp => createNon2xxAckRequest {} sampleBranch r resp).map
        (getTag SipHeaders.from) = some (some none) := by
    decide +kernel
  have htag : r.getTag SipHeaders.from = some (some "1".toList) := by decide +kernel
  obtain ⟨ack, hack, hnone⟩ := Option.map_eq_some_iff.mp hrun
  obtain ⟨resp, hresp, hack⟩ := Option.bind_eq_some_iff.mp hack
  refine ⟨resp, ack, hresp, hack, htag, hnone, fun h => ?_⟩
  have heq := h.fromTag
  rw [hnone, htag] at heq
  exact absurd (Option.some.inj heq) nofun

end BasicSipMessage
end SoftPhone
