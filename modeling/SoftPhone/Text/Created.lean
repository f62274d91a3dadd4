import SoftPhone.Text.Headers

/-!
# What the factories make

`getHeaders_createRequest` and `createResponse_spec` say what is found in a request and in a
response that a factory has made.

A CANCEL has the Request-URI, the Call-ID, the CSeq number and the topmost Via of the request,
but the Via that `createRequest` makes stays behind it: no CANCEL has one Via only
(`not_cancels`).
-/

namespace SoftPhone

open SipParser

namespace BasicSipMessage

variable (config : FactoryConfig)

/-! ## Requests -/

/-- The Via that `createRequest` makes. -/
def ownVia (branch : Token) : Text :=
  ViaHeader.setBranch (some branch.val)
    (ViaHeader.ofHost config.transportProtocol.val "0.0.0.0".toList 0)

/-- The first Via of a message. -/
theorem getHeaders_addVia_mk (v : Text) (startLine : Option StartLine) :
    getHeaders SipHeaders.via (addHeader ⟨SipHeaders.via, v⟩ true { startLine := startLine }) =
      [⟨SipHeaders.via, v⟩] := rfl

/-- **The headers of a request that was made**, with those that are not asked for left out. -/
theorem getHeaders_createRequest (branch : Token) (method : Text) (requestUri : Option Text)
    (to_ from_ : NameAddressText) (callId : Text) (cseq : ℤ) (localTag remoteTag : Option Text)
    (contact : Option NameAddressText) (contentType : Option Text) (body : Option (List UInt8)) :
    let req := createRequest config branch method requestUri to_ from_ callId cseq localTag
      remoteTag contact contentType body
    req.getHeaders SipHeaders.via = [⟨SipHeaders.via, ownVia config branch⟩] ∧
      req.getHeaders SipHeaders.to =
        [⟨SipHeaders.to, EndPointHeader.ofNameAddress to_ remoteTag⟩] ∧
      req.getHeaders SipHeaders.from =
        [⟨SipHeaders.from, EndPointHeader.ofNameAddress from_ localTag⟩] ∧
      req.getHeaders SipHeaders.callId = [⟨SipHeaders.callId, callId⟩] ∧
      req.getHeaders SipHeaders.cseq = [⟨SipHeaders.cseq, valueOf cseq ++ ' ' :: method⟩] ∧
      req.getHeaders SipHeaders.route = [] := by
  intro req
  refine ⟨?_, ?_, ?_, ?_, ?_, ?_⟩ <;>
  · show getHeaders _ (setBody _ _ _) = _
    rw [getHeaders_setBody (by decide) (by decide) (by decide)]
    cases contact <;> cases config.uaInfo <;>
      simp +decide only [getHeaders_setHeader_eq, named_mk, if_true, if_false, addViaHeader,
        getHeaders_addHeader_of_ne, getHeaders_mk, getHeaders_addVia_mk, ownVia]

theorem startLine_setHeader (h : Header) (m : BasicSipMessage) :
    (m.setHeader h).startLine = m.startLine := by
  unfold setHeader
  split <;> rfl

theorem startLine_setBody (contentType : Option Text) (body : Option (List UInt8))
    (m : BasicSipMessage) : (m.setBody contentType body).startLine = m.startLine := by
  unfold setBody
  dsimp only
  split
  · exact startLine_setHeader _ _
  · exact startLine_setHeader _ _
  · cases contentType
    · exact startLine_setHeader _ _
    · exact (startLine_setHeader _ _).trans (startLine_setHeader _ _)

theorem startLine_createRequest (branch : Token) (method : Text) (requestUri : Option Text)
    (to_ from_ : NameAddressText) (callId : Text) (cseq : ℤ) (localTag remoteTag : Option Text)
    (contact : Option NameAddressText) (contentType : Option Text) (body : Option (List UInt8)) :
    (createRequest config branch method requestUri to_ from_ callId cseq localTag remoteTag contact
      contentType body).startLine = some (.request method requestUri) := by
  have hadd (h : Header) (top : Bool) (m : BasicSipMessage) :
      (m.addHeader h top).startLine = m.startLine := rfl
  unfold createRequest
  cases contact <;> cases config.uaInfo <;>
    simp only [startLine_setBody, startLine_setHeader, addViaHeader, hadd]

/-! ## Call-ID and CSeq -/

/-- A token is read as it is. -/
theorem getString_token {t : Text} (ht : ∀ c ∈ t, isChar c = true) : getString t = (t, []) := by
  by_cases hne : t = []
  · rw [hne]
    rfl
  · have h := getString_append (s := []) ht (by simp) hne
    rwa [List.append_nil] at h

/-- The CSeq of a request that was made. -/
theorem cseq_made {n : ℤ} (hn : -2147483648 ≤ n ∧ n ≤ 2147483647) {method : Text}
    (hmethod : ∀ c ∈ method, isChar c = true) :
    sequenceNumber (valueOf n ++ ' ' :: method) = some n ∧
      cseqMethod (valueOf n ++ ' ' :: method) = method := by
  have htoken : getString (valueOf n ++ ' ' :: method) = (valueOf n, ' ' :: method) :=
    getString_append (fun c => isChar_valueOf) (by simp [isChar]) (valueOf_ne_nil n)
  unfold sequenceNumber cseqMethod getInt
  rw [htoken]
  rw [getString_space, getString_token hmethod]
  exact ⟨parseInt_valueOf hn, rfl⟩

theorem range_getCSeq {m : BasicSipMessage} {n : ℤ} (h : m.getCSeq = some n) :
    -2147483648 ≤ n ∧ n ≤ 2147483647 := by
  obtain ⟨hd, -, hn⟩ := Option.bind_eq_some_iff.mp h
  exact range_parseInt hn

/-- The Call-ID that a request takes over. -/
theorem getCallId_made {m m' : BasicSipMessage} {callId : Text} (h : m.getCallId = some callId)
    (h' : m'.getHeaders SipHeaders.callId = [⟨SipHeaders.callId, callId⟩]) :
    m'.getCallId = some callId := by
  obtain ⟨hd, -, hcallId⟩ := Option.map_eq_some_iff.mp h
  unfold getCallId
  rw [getHeader_eq_head?, h']
  show some (getString callId).1 = some callId
  rw [← hcallId, getString_token fun c => isChar_of_mem_getString]

/-- The CSeq that a request takes over. -/
theorem getCSeq_made {m m' : BasicSipMessage} {n : ℤ} {method : Text} (h : m.getCSeq = some n)
    (hmethod : ∀ c ∈ method, isChar c = true)
    (h' : m'.getHeaders SipHeaders.cseq = [⟨SipHeaders.cseq, valueOf n ++ ' ' :: method⟩]) :
    m'.getCSeq = some n ∧ m'.getCSeqMethod = some method := by
  obtain ⟨hnumber, hmethod⟩ := cseq_made (range_getCSeq h) hmethod
  unfold getCSeq getCSeqMethod
  rw [getHeader_eq_head?, h']
  exact ⟨hnumber, congrArg some hmethod⟩

/-! ## CANCEL -/

theorem getHeaders_copyHeader {hname n : Text} (hne : equalsIgnoreCase hname n = false)
    (req m : BasicSipMessage) : (copyHeader n req m).getHeaders hname = m.getHeaders hname := by
  unfold copyHeader
  split
  · rfl
  · rename_i h hh
    exact getHeaders_setHeader_of_not (not_named (named_of_getHeader hh) hne) m

theorem startLine_copyHeader (n : Text) (req m : BasicSipMessage) :
    (copyHeader n req m).startLine = m.startLine := by
  unfold copyHeader
  split
  · rfl
  · exact startLine_setHeader _ _

theorem getRequestUri_of_startLine {m : BasicSipMessage} {method : Text} {uri : Option Text}
    (h : m.startLine = some (.request method uri)) :
    m.getRequestUri = some uri ∧ m.getMethod = some method := by
  unfold getRequestUri getMethod
  rw [h]
  exact ⟨rfl, rfl⟩

/-- What a CANCEL has to take over from the request that it cancels. -/
structure Cancels (req cancel : BasicSipMessage) : Prop where
  requestUri : cancel.getRequestUri = req.getRequestUri
  callId : cancel.getCallId = req.getCallId
  fromName : cancel.getNameAddress SipHeaders.from = req.getNameAddress SipHeaders.from
  fromTag : cancel.getTag SipHeaders.from = req.getTag SipHeaders.from
  toName : cancel.getNameAddress SipHeaders.to = req.getNameAddress SipHeaders.to
  toTag : cancel.getTag SipHeaders.to = req.getTag SipHeaders.to
  cseq : cancel.getCSeq = req.getCSeq
  method : cancel.getMethod = some "CANCEL".toList
  cseqMethod : cancel.getCSeqMethod = some "CANCEL".toList
  /-- There is one Via value, the topmost one of the request. -/
  vias : ∃ v, req.getViaHeader = some v ∧ cancel.getVias.map MultipleHeader.values = some [v]

/-- **A CANCEL has the Request-URI, the Call-ID, the CSeq number and the topmost Via of the
request**, and one more Via behind it. -/
theorem createCancelRequest_spec {config : FactoryConfig} {branch : Token}
    {req cancel : BasicSipMessage} (h : createCancelRequest config branch req = some cancel) :
    cancel.getRequestUri = req.getRequestUri ∧ cancel.getMethod = some "CANCEL".toList ∧
      cancel.getCallId = req.getCallId ∧ cancel.getCSeq = req.getCSeq ∧
      cancel.getCSeqMethod = some "CANCEL".toList ∧
      ∃ vias via, req.getVias = some vias ∧ vias.getTop = some via ∧
        cancel.getHeaders SipHeaders.via = [via, ⟨SipHeaders.via, ownVia config branch⟩] := by
  simp only [createCancelRequest, Option.bind_eq_bind, Option.bind_eq_some_iff] at h
  obtain ⟨uri, huri, value, hvalue, contact, hcontact, to_, hto, from_, hfrom, callId, hcallId, cseq,
    hcseq, localTag, hlocalTag, remoteTag, hremoteTag, vias, hvias, via, hvia, h⟩ := h
  obtain ⟨hmadeVia, -, -, hmadeCallId, hmadeCSeq, -⟩ := getHeaders_createRequest config branch
    "CANCEL".toList uri to_ from_ callId cseq localTag remoteTag (some contact) none none
  have hstart := startLine_createRequest config branch "CANCEL".toList uri to_ from_ callId cseq
    localTag remoteTag (some contact) none none
  generalize createRequest config branch "CANCEL".toList uri to_ from_ callId cseq localTag
    remoteTag (some contact) none none = made at hmadeVia hmadeCallId hmadeCSeq hstart h
  have hnamed : Named SipHeaders.via via = true := by
    obtain ⟨v, -, rfl⟩ := Option.map_eq_some_iff.mp hvia
    exact (plain_of_getMultiple hvias).named
  have hcancel := (Option.some.inj h).symm
  have hget {hname : Text} (ha : equalsIgnoreCase hname SipHeaders.authorization = false)
      (hp : equalsIgnoreCase hname SipHeaders.proxyAuthorization = false) :
      cancel.getHeaders hname = (made.addViaHeader via).getHeaders hname := by
    rw [hcancel, getHeaders_copyHeader hp, getHeaders_copyHeader ha]
  have hother {hname : Text} (hne : equalsIgnoreCase hname SipHeaders.via = false) :
      (made.addViaHeader via).getHeaders hname = made.getHeaders hname :=
    getHeaders_addHeader_of_not (not_named hnamed hne) true made
  have hline : cancel.startLine = some (.request "CANCEL".toList uri) := by
    rw [hcancel, startLine_copyHeader, startLine_copyHeader]
    exact hstart
  obtain ⟨huri', hmethod⟩ := getRequestUri_of_startLine hline
  obtain ⟨hcseq', hcseqMethod⟩ := getCSeq_made hcseq (by decide)
    ((hget (by decide) (by decide)).trans ((hother (by decide)).trans hmadeCSeq))
  refine ⟨huri'.trans huri.symm, hmethod, ?_, hcseq'.trans hcseq.symm, hcseqMethod, vias, via,
    hvias, hvia, ?_⟩
  · rw [hcallId]
    exact getCallId_made hcallId
      ((hget (by decide) (by decide)).trans ((hother (by decide)).trans hmadeCallId))
  · rw [hget (by decide) (by decide), getHeaders_addViaHeader hnamed, hmadeVia]

/-- A field in two headers has two values at least. -/
theorem two_le_length_values {hname : Text} {m : BasicSipMessage} {h h' : Header}
    {mh : MultipleHeader} (hm : m.getHeaders hname = [h, h']) (hmh : m.getMultiple hname = some mh) :
    2 ≤ mh.values.length := by
  have hpos (h : Header) : 1 ≤ h.values.length :=
    Nat.one_le_iff_ne_zero.mpr fun hnil => h.values_ne_nil (List.length_eq_zero_iff.mp hnil)
  unfold getMultiple at hmh
  rw [hm] at hmh
  rw [← Option.some.inj hmh]
  show 2 ≤ ([h, h'].flatMap Header.values).length
  rw [List.flatMap_cons, List.flatMap_cons, List.flatMap_nil, List.append_nil, List.length_append]
  have h1 := hpos h
  have h2 := hpos h'
  omega

/-- **No CANCEL is what it has to be**: there is the Via of the request, and the one that
`createRequest` has made. -/
theorem not_cancels (config : FactoryConfig) (branch : Token) (req : BasicSipMessage) :
    ¬∃ cancel, createCancelRequest config branch req = some cancel ∧ Cancels req cancel := by
  rintro ⟨cancel, h, hcancels⟩
  obtain ⟨-, -, -, -, -, vias, via, -, -, htwo⟩ := createCancelRequest_spec h
  obtain ⟨v, -, hone⟩ := hcancels.vias
  obtain ⟨mh, hmh, hvalues⟩ := Option.map_eq_some_iff.mp hone
  have hlength := two_le_length_values htwo hmh
  rw [hvalues, List.length_singleton] at hlength
  omega

/-- An INVITE with two Via values, and its CANCEL. -/
def twoVias : BasicSipMessage where
  startLine := some (.request "INVITE".toList (some "sip:bob@h".toList))
  headers := [⟨SipHeaders.via, "SIP/2.0/UDP 10.0.0.2:5060;branch=z9hG4bK2".toList⟩,
    ⟨SipHeaders.via, "SIP/2.0/UDP 10.0.0.1:5060;branch=z9hG4bK1".toList⟩,
    ⟨SipHeaders.to, "<sip:bob@h>".toList⟩, ⟨SipHeaders.from, "<sip:alice@h>;tag=1".toList⟩,
    ⟨SipHeaders.callId, "call".toList⟩, ⟨SipHeaders.cseq, "1 INVITE".toList⟩,
    ⟨SipHeaders.contact, "<sip:alice@10.0.0.1>".toList⟩]

/-- A branch that `pickBranch` returns. -/
def sampleBranch : Token := ⟨"z9hG4bK3".toList, by decide⟩

/-- **The Via that is too much**: the CANCEL has the topmost Via of the INVITE and its own. -/
theorem twoVias_not_cancels :
    ∃ cancel, createCancelRequest {} sampleBranch twoVias = some cancel ∧
      cancel.getVias.map MultipleHeader.values =
        some ["SIP/2.0/UDP 10.0.0.2:5060;branch=z9hG4bK2".toList,
          "SIP/2.0/UDP 0.0.0.0:0;branch=z9hG4bK3".toList] ∧
      ¬Cancels twoVias cancel := by
  have hvias : (createCancelRequest {} sampleBranch twoVias).map
      (fun cancel => cancel.getVias.map MultipleHeader.values) =
      some (some ["SIP/2.0/UDP 10.0.0.2:5060;branch=z9hG4bK2".toList,
        "SIP/2.0/UDP 0.0.0.0:0;branch=z9hG4bK3".toList]) := by
    decide +kernel
  obtain ⟨cancel, hcancel, hvalues⟩ := Option.map_eq_some_iff.mp hvias
  refine ⟨cancel, hcancel, hvalues, fun h => ?_⟩
  obtain ⟨v, -, hone⟩ := h.vias
  rw [hvalues] at hone
  exact absurd (Option.some.inj hone) (by simp)

end BasicSipMessage

namespace BasicSipMessage

variable (config : FactoryConfig)

/-! ## Responses -/

theorem getHeaders_setRecordRoutes {mh : MultipleHeader} (hmh : mh.Plain SipHeaders.recordRoute)
    (m : BasicSipMessage) :
    (m.setRecordRoutes mh).getHeaders SipHeaders.recordRoute = mh.getHeaders :=
  getHeaders_addHeadersAfter hmh (getHeaders_removeAllHeaders_self _ m)

theorem getHeaders_setRecordRoutes_of_ne {mh : MultipleHeader} {hname : Text}
    (hmh : mh.Plain SipHeaders.recordRoute)
    (hne : equalsIgnoreCase hname SipHeaders.recordRoute = false) (m : BasicSipMessage) :
    (m.setRecordRoutes mh).getHeaders hname = m.getHeaders hname :=
  (getHeaders_addHeadersAfter_of_ne hmh hne).trans (getHeaders_removeAllHeaders_of_ne hne m)

theorem getHeaders_setContactHeader_of_ne {hname : Text} {h : Header}
    (hh : Named hname h = false) (hne : equalsIgnoreCase hname SipHeaders.contact = false)
    (m : BasicSipMessage) : (m.setContactHeader h).getHeaders hname = m.getHeaders hname :=
  (getHeaders_addHeader_of_not hh _ _).trans (getHeaders_removeAllHeaders_of_ne hne m)

theorem getHeaders_copyRecordRoutes_of_ne {hname : Text}
    (hne : equalsIgnoreCase hname SipHeaders.recordRoute = false) (req : BasicSipMessage)
    (code : ℤ) (resp : BasicSipMessage) :
    (copyRecordRoutes req code resp).getHeaders hname = resp.getHeaders hname := by
  unfold copyRecordRoutes
  split
  · rfl
  · rename_i routes hroutes
    split
    · exact getHeaders_setRecordRoutes_of_ne (plain_of_getMultiple hroutes) hne resp
    · rfl

theorem startLine_addHeadersAfter (mh : MultipleHeader) (refer : Text) (m : BasicSipMessage) :
    (m.addHeadersAfter mh refer).startLine = m.startLine := rfl

theorem startLine_setVias (mh : MultipleHeader) (m : BasicSipMessage) :
    (m.setVias mh).startLine = m.startLine := rfl

theorem startLine_copyRecordRoutes (req : BasicSipMessage) (code : ℤ) (resp : BasicSipMessage) :
    (copyRecordRoutes req code resp).startLine = resp.startLine := by
  unfold copyRecordRoutes
  split
  · rfl
  · split
    · exact startLine_addHeadersAfter _ _ _
    · rfl

/-- The Record-Route values are the ones of the request, in the same order. -/
theorem getRecordRoutes_copyRecordRoutes {resp : BasicSipMessage}
    (hresp : resp.getHeaders SipHeaders.recordRoute = []) (req : BasicSipMessage) (code : ℤ) :
    (copyRecordRoutes req code resp).getRecordRoutes =
      if 180 ≤ code ∧ code < 300 then req.getRecordRoutes else none := by
  have hnone : resp.getRecordRoutes = none := getMultiple_eq_none.mpr hresp
  unfold copyRecordRoutes
  split
  · rename_i hroutes
    rw [hroutes, ite_self]
    exact hnone
  · rename_i routes hroutes
    have hplain : routes.Plain SipHeaders.recordRoute := plain_of_getMultiple hroutes
    rw [hroutes]
    split
    · exact getMultiple_of_getHeaders hplain (getHeaders_setRecordRoutes hplain resp)
    · exact hnone

theorem getHeaders_setContactAndServer {hname : Text}
    (hc : equalsIgnoreCase hname SipHeaders.contact = false)
    (hs : equalsIgnoreCase hname SipHeaders.server = false)
    (contact : Option NameAddressText) (resp : BasicSipMessage) :
    (setContactAndServer config contact resp).getHeaders hname = resp.getHeaders hname := by
  have hcontact (c : NameAddressText) :
      (resp.setContactHeader ⟨SipHeaders.contact, c.toText⟩).getHeaders hname =
        resp.getHeaders hname := getHeaders_setContactHeader_of_ne (h := ⟨_, _⟩) hc hc resp
  have hserver (i : Text) (resp : BasicSipMessage) :
      (resp.setHeader ⟨SipHeaders.server, i⟩).getHeaders hname = resp.getHeaders hname :=
    getHeaders_setHeader_of_not (h := ⟨_, _⟩) hs resp
  unfold setContactAndServer
  cases contact <;> cases config.serverInfo
  · rfl
  · exact hserver _ _
  · exact hcontact _
  · exact (hserver _ _).trans (hcontact _)

theorem startLine_setContactAndServer (contact : Option NameAddressText) (resp : BasicSipMessage) :
    (setContactAndServer config contact resp).startLine = resp.startLine := by
  have hcontact (c : NameAddressText) :
      (resp.setContactHeader ⟨SipHeaders.contact, c.toText⟩).startLine = resp.startLine := rfl
  unfold setContactAndServer
  cases contact <;> cases config.serverInfo
  · rfl
  · exact startLine_setHeader _ _
  · exact hcontact _
  · exact (startLine_setHeader _ _).trans (hcontact _)

theorem named_taggedTo {localTag : Option Text} {toh : Header}
    (h : Named SipHeaders.to toh = true) : Named SipHeaders.to (taggedTo localTag toh) = true := by
  cases localTag <;> exact h

/-- What a response takes over from its request. -/
structure Answers (req : BasicSipMessage) (code : ℤ) (localTag : Option Text)
    (resp : BasicSipMessage) : Prop where
  startLine : ∃ reason, resp.startLine = some (.status code reason)
  vias : resp.getVias = req.getVias
  hasVias : req.getVias ≠ none
  recordRoutes : resp.getRecordRoutes =
    if 180 ≤ code ∧ code < 300 then req.getRecordRoutes else none
  toHeader : ∃ toh, req.getHeader SipHeaders.to = some toh ∧
    resp.getHeader SipHeaders.to = some (taggedTo localTag toh)
  fromHeader : resp.getHeader SipHeaders.from = req.getHeader SipHeaders.from
  callId : resp.getHeader SipHeaders.callId = req.getHeader SipHeaders.callId
  cseq : resp.getHeader SipHeaders.cseq = req.getHeader SipHeaders.cseq

/-- **A response has the Via and Record-Route values, the From, the Call-ID and the CSeq of its
request.** -/
theorem createResponse_spec {config : FactoryConfig} {req resp : BasicSipMessage} {code : ℤ}
    {reason : Text} {localTag : Option Text} {contact : Option NameAddressText}
    {contentType : Option Text} {body : Option (List UInt8)}
    (h : createResponse config req code reason localTag contact contentType body = some resp) :
    Answers req code localTag resp := by
  simp only [createResponse, Option.bind_eq_bind, Option.bind_eq_some_iff] at h
  obtain ⟨vias, hvias, toh, htoh, fromh, hfromh, callIdh, hcallIdh, cseqh, hcseqh, h⟩ := h
  have hplain : vias.Plain SipHeaders.via := plain_of_getMultiple hvias
  have hto : Named SipHeaders.to (taggedTo localTag toh) = true :=
    named_taggedTo (named_of_getHeader htoh)
  have hfrom := named_of_getHeader hfromh
  have hcallId := named_of_getHeader hcallIdh
  have hcseq := named_of_getHeader hcseqh
  have hresp := (Option.some.inj h).symm
  -- a header behind the routes has the name of one of the fields
  have hget (hname : Text)
      (hother : equalsIgnoreCase hname SipHeaders.contact = false ∧
        equalsIgnoreCase hname SipHeaders.server = false ∧
        equalsIgnoreCase hname SipHeaders.contentType = false ∧
        equalsIgnoreCase hname SipHeaders.contentDisposition = false ∧
        equalsIgnoreCase hname SipHeaders.contentLength = false) :
      resp.getHeaders hname =
        if equalsIgnoreCase hname SipHeaders.cseq then [cseqh]
        else if equalsIgnoreCase hname SipHeaders.callId then [callIdh]
        else if equalsIgnoreCase hname SipHeaders.from then [fromh]
        else if equalsIgnoreCase hname SipHeaders.to then [taggedTo localTag toh]
        else (copyRecordRoutes req code
          (setVias vias { startLine := some (.status code reason) })).getHeaders hname := by
    obtain ⟨hc, hs, ht, hd, hl⟩ := hother
    rw [hresp, getHeaders_setBody ht hd hl, getHeaders_setContactAndServer config hc hs]
    simp only [getHeaders_setHeader_eq, named_eq hto, named_eq hfrom, named_eq hcallId,
      named_eq hcseq]
  have hempty (hname : Text) (hne : equalsIgnoreCase hname SipHeaders.via = false) :
      (setVias vias { startLine := some (.status code reason) }).getHeaders hname = [] :=
    getHeaders_setVias_of_ne hplain.compact hplain.named hne
  refine ⟨⟨reason, ?_⟩, ?_, by rw [hvias]; exact Option.some_ne_none _, ?_, ⟨toh, htoh, ?_⟩, ?_, ?_, ?_⟩
  · rw [hresp, startLine_setBody, startLine_setContactAndServer, startLine_setHeader,
      startLine_setHeader, startLine_setHeader, startLine_setHeader]
    exact (startLine_copyRecordRoutes req code _).trans (startLine_setVias vias _)
  · rw [hvias]
    refine getMultiple_of_getHeaders hplain ?_
    rw [hget SipHeaders.via (by decide)]
    exact (getHeaders_copyRecordRoutes_of_ne (by decide) _ _ _).trans
      (getHeaders_setVias hplain.compact hplain.named)
  · rw [← getRecordRoutes_copyRecordRoutes (hempty SipHeaders.recordRoute (by decide)) req code]
    exact getMultiple_congr (hget SipHeaders.recordRoute (by decide))
  · rw [getHeader_eq_head?, hget SipHeaders.to (by decide)]
    rfl
  · rw [getHeader_eq_head?, hget SipHeaders.from (by decide), hfromh]
    rfl
  · rw [getHeader_eq_head?, hget SipHeaders.callId (by decide), hcallIdh]
    rfl
  · rw [getHeader_eq_head?, hget SipHeaders.cseq (by decide), hcseqh]
    rfl

end BasicSipMessage
end SoftPhone
