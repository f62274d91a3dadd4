import SoftPhone.Text.Created
import SoftPhone.Text.Received

/-!
# The ACK for a non-2xx response

The Via that `createRequest` makes is removed, and one is made from the top Via of the response.
The Route values are those of the request.
-/

namespace SoftPhone

open SipParser ViaHeader

namespace BasicSipMessage

/-- The Via that `createRequest` makes has no comma. -/
theorem skips_ownVia (config : FactoryConfig) (branch : Token) :
    Skips ',' false (ownVia config branch) := by
  have htoken (t : Token) {d : Char} (hd : isParamSeparator d = true) : d ∉ t.val := by
    intro hmem
    rw [(t.prop d hmem).1] at hd
    exact Bool.noConfusion hd
  have hhead {d : Char} (hd : isParamSeparator d = true) (hsmall : d.toNat < 65)
      (hspace : d ≠ ' ') (hfix : d ∉ "SIP/2.0/".toList ++ "0.0.0.0".toList ++ [':'])
      (hzero : d ∉ valueOf 0) : d ∉ ofHost config.transportProtocol.val "0.0.0.0".toList 0 := by
    simp only [List.mem_append, List.mem_cons, not_or] at hfix
    rw [ofHost_eq]
    simp only [List.mem_append, List.mem_cons, List.mem_map, not_or, not_exists, not_and]
    exact ⟨hfix.1.1, fun c hc => toUpper_ne hsmall fun heq => htoken _ hd (heq ▸ hc), hspace,
      hfix.1.2, hfix.2.1, hzero⟩
  have hsemi := hhead (d := ';') rfl (by decide) (by decide) (by decide)
    (isAddress_valueOf 0).semi
  have hcomma := hhead (d := ',') rfl (by decide) (by decide) (by decide)
    (isAddress_valueOf 0).comma
  have hnone : ParametricHeader.hasParameter ParametricHeader.firstSemi branchParam
      (ofHost config.transportProtocol.val "0.0.0.0".toList 0) = false := by
    rw [hasParameter_eq (by decide)]
    unfold parameters ParametricHeader.firstSemi
    have hskips := skips_of_not_mem hsemi false
    rw [hskips]
    rfl
  unfold ownVia setBranch
  rw [setParameter_eq, hnone, if_neg (by decide)]
  refine skips_of_not_mem ?_ false
  show ',' ∉ _ ++ ';' :: (branchParam ++ '=' :: branch.val)
  simp only [List.mem_append, List.mem_cons, not_or]
  exact ⟨hcomma, by decide, by decide, by decide, htoken branch rfl⟩

/-- What an ACK is made from. -/
structure MadeAck (method resp ack : BasicSipMessage) : Prop where
  startLine : ∃ uri, method.getRequestUri = some uri ∧
    ack.startLine = some (.request "ACK".toList uri)
  fromHeader : ∃ naddr tag, method.getNameAddress SipHeaders.from = some naddr ∧
    method.getTag SipHeaders.from = some tag ∧
    ack.getHeaders SipHeaders.from =
      [⟨SipHeaders.from, EndPointHeader.ofNameAddress naddr tag⟩]
  toHeader : ∃ naddr tag, resp.getNameAddress SipHeaders.to = some naddr ∧
    resp.getTag SipHeaders.to = some tag ∧
    ack.getHeaders SipHeaders.to = [⟨SipHeaders.to, EndPointHeader.ofNameAddress naddr tag⟩]
  callId : method.getCallId ≠ none ∧ ack.getCallId = method.getCallId
  cseq : method.getCSeq ≠ none ∧ ack.getCSeq = method.getCSeq ∧
    ack.getCSeqMethod = some "ACK".toList
  via : ∃ v branch host port, resp.getViaHeader = some v ∧ getBranch v = some branch ∧
    getHost v = some host ∧ getPort v = some port ∧
    ack.getHeaders SipHeaders.via =
      [⟨SipHeaders.via, setBranch branch (ofHost (getProtocol v) host port)⟩]
  routes : ack.getRoutes = method.getRoutes

/-- `setRoutes`, if there are any. -/
theorem getHeaders_setRoutes {mh : MultipleHeader} (hmh : mh.Plain SipHeaders.route)
    (m : BasicSipMessage) : (m.setRoutes mh).getHeaders SipHeaders.route = mh.getHeaders :=
  getHeaders_addHeadersAfter hmh (getHeaders_removeAllHeaders_self _ m)

theorem getHeaders_setRoutes_of_ne {mh : MultipleHeader} {hname : Text}
    (hmh : mh.Plain SipHeaders.route) (hne : equalsIgnoreCase hname SipHeaders.route = false)
    (m : BasicSipMessage) : (m.setRoutes mh).getHeaders hname = m.getHeaders hname :=
  (getHeaders_addHeadersAfter_of_ne hmh hne).trans (getHeaders_removeAllHeaders_of_ne hne m)

/-- The only Via is removed. -/
theorem removeViaHeader_single {m m' : BasicSipMessage} {v : Text} (hv : Skips ',' false v)
    (hm : m.getHeaders SipHeaders.via = [⟨SipHeaders.via, v⟩]) (h : m.removeViaHeader = some m') :
    m'.getHeaders SipHeaders.via = [] ∧ m'.startLine = m.startLine ∧
      ∀ hname, equalsIgnoreCase hname SipHeaders.via = false →
        m'.getHeaders hname = m.getHeaders hname := by
  have hvias : m.getVias = some ⟨SipHeaders.via, [v], false⟩ :=
    getMultiple_of_getHeaders ⟨equalsIgnoreCase_self _, rfl, List.cons_ne_nil _ _,
      List.forall_mem_singleton.mpr hv⟩ hm
  unfold removeViaHeader at h
  rw [hvias] at h
  rw [← Option.some.inj h]
  refine ⟨?_, startLine_setVias _ _, fun hname hne => ?_⟩
  · have hset : (m.setVias ⟨SipHeaders.via, [], false⟩).getHeaders SipHeaders.via = [] :=
      getHeaders_setVias rfl (equalsIgnoreCase_self _)
    exact hset
  · exact getHeaders_setVias_of_ne rfl (equalsIgnoreCase_self _) hne

theorem hasVia_of_getHeaders {m : BasicSipMessage} {h : Header}
    (hm : m.getHeaders SipHeaders.via = [h]) : m.hasHeader SipHeaders.via = true := by
  rw [hasHeader_eq, hm]
  rfl

/-- **What an ACK takes over from the request and from the response.** -/
theorem createNon2xxAckRequest_spec {config : FactoryConfig} {branch : Token}
    {method resp ack : BasicSipMessage}
    (h : createNon2xxAckRequest config branch method resp = some ack) :
    MadeAck method resp ack := by
  simp only [createNon2xxAckRequest, Option.bind_eq_bind, Option.bind_eq_some_iff] at h
  obtain ⟨uri, huri, to_, hto, from_, hfrom, callId, hcallId, cseq, hcseq, localTag, hlocalTag,
    remoteTag, hremoteTag, removed, hremoved, v, hv, viaBranch, hbranch, host, hhost, port, hport,
    h⟩ := h
  obtain ⟨hmadeVia, hmadeTo, hmadeFrom, hmadeCallId, hmadeCSeq, hmadeRoute⟩ :=
    getHeaders_createRequest config branch "ACK".toList uri to_ from_ callId cseq localTag
      remoteTag none none none
  have hstart := startLine_createRequest config branch "ACK".toList uri to_ from_ callId cseq
    localTag remoteTag none none none
  generalize createRequest config branch "ACK".toList uri to_ from_ callId cseq localTag
    remoteTag none none none = made at *
  have hmade {hname : Text} (hne : equalsIgnoreCase hname SipHeaders.expires = false) :
      (made.removeHeader SipHeaders.expires).getHeaders hname = made.getHeaders hname :=
    getHeaders_removeHeader_of_ne hne made
  have hvia : (made.removeHeader SipHeaders.expires).getHeaders SipHeaders.via =
      [⟨SipHeaders.via, ownVia config branch⟩] := (hmade (by decide)).trans hmadeVia
  unfold withoutTopVia at hremoved
  rw [if_pos (hasVia_of_getHeaders hvia)] at hremoved
  obtain ⟨hnone, hline, hother⟩ := removeViaHeader_single (skips_ownVia config branch) hvia hremoved
  -- the ACK before its Route headers are set
  obtain ⟨added, hadded⟩ : ∃ added, added = removed.addViaHeader
      ⟨SipHeaders.via, setBranch viaBranch (ofHost (getProtocol v) host port)⟩ := ⟨_, rfl⟩
  have haddedVia : added.getHeaders SipHeaders.via =
      [⟨SipHeaders.via, setBranch viaBranch (ofHost (getProtocol v) host port)⟩] := by
    have hnamed : Named SipHeaders.via
        ⟨SipHeaders.via, setBranch viaBranch (ofHost (getProtocol v) host port)⟩ = true :=
      equalsIgnoreCase_self _
    rw [hadded, getHeaders_addViaHeader hnamed, hnone]
  have haddedOther {hname : Text} (hne : equalsIgnoreCase hname SipHeaders.via = false)
      (hexp : equalsIgnoreCase hname SipHeaders.expires = false) :
      added.getHeaders hname = made.getHeaders hname := by
    rw [hadded]
    exact (getHeaders_addHeader_of_ne hne _ true removed).trans ((hother hname hne).trans (hmade hexp))
  rw [← hadded] at h
  have hack : (∀ hname, equalsIgnoreCase hname SipHeaders.route = false →
      ack.getHeaders hname = added.getHeaders hname) ∧ ack.startLine = added.startLine ∧
      ack.getRoutes = method.getRoutes := by
    rw [← Option.some.inj h]
    unfold copyRoutes
    cases hroutes : method.getRoutes with
    | none =>
      refine ⟨fun _ _ => rfl, rfl, getMultiple_eq_none.mpr ?_⟩
      rw [haddedOther (by decide) (by decide)]
      exact hmadeRoute
    | some routes =>
      have hplain : routes.Plain SipHeaders.route := plain_of_getMultiple hroutes
      exact ⟨fun hname hne => getHeaders_setRoutes_of_ne hplain hne added, rfl,
        getMultiple_of_getHeaders hplain (getHeaders_setRoutes hplain added)⟩
  obtain ⟨hget, hackLine, hackRoutes⟩ := hack
  have hfield {hname : Text} (hroute : equalsIgnoreCase hname SipHeaders.route = false)
      (hne : equalsIgnoreCase hname SipHeaders.via = false)
      (hexp : equalsIgnoreCase hname SipHeaders.expires = false) :
      ack.getHeaders hname = made.getHeaders hname :=
    (hget hname hroute).trans (haddedOther hne hexp)
  have htoken : ∀ c ∈ "ACK".toList, isChar c = true := by decide
  have hseq := getCSeq_made hcseq htoken
    ((hfield (by decide) (by decide) (by decide)).trans hmadeCSeq)
  refine ⟨⟨uri, huri, ?_⟩, ⟨from_, localTag, hfrom, hlocalTag, ?_⟩,
    ⟨to_, remoteTag, hto, hremoteTag, ?_⟩, ⟨by rw [hcallId]; exact Option.some_ne_none _, ?_⟩,
    ⟨by rw [hcseq]; exact Option.some_ne_none _, hseq.1.trans hcseq.symm, hseq.2⟩,
    ⟨v, viaBranch, host, port, hv, hbranch, hhost, hport, ?_⟩, hackRoutes⟩
  · rw [hackLine, hadded]
    exact hline.trans hstart
  · exact (hfield (by decide) (by decide) (by decide)).trans hmadeFrom
  · exact (hfield (by decide) (by decide) (by decide)).trans hmadeTo
  · rw [hcallId]
    exact getCallId_made hcallId ((hfield (by decide) (by decide) (by decide)).trans hmadeCallId)
  · exact (hget _ (by decide)).trans haddedVia

/-- **When an ACK is made**: what it takes over can be read. -/
theorem createNon2xxAckRequest_isSome (config : FactoryConfig) (branch : Token)
    {method resp : BasicSipMessage} {v : Text} (hreq : method.getRequestUri ≠ none)
    (hto : resp.getNameAddress SipHeaders.to ≠ none)
    (hfrom : method.getNameAddress SipHeaders.from ≠ none)
    (hcallId : method.getCallId ≠ none) (hcseq : method.getCSeq ≠ none)
    (hfromTag : method.getTag SipHeaders.from ≠ none) (htoTag : resp.getTag SipHeaders.to ≠ none)
    (hv : resp.getViaHeader = some v) (hbranch : getBranch v ≠ none) (hhost : getHost v ≠ none)
    (hport : getPort v ≠ none) :
    ∃ ack, createNon2xxAckRequest config branch method resp = some ack := by
  obtain ⟨uri, huri⟩ := Option.ne_none_iff_exists'.mp hreq
  obtain ⟨to_, hto⟩ := Option.ne_none_iff_exists'.mp hto
  obtain ⟨from_, hfrom⟩ := Option.ne_none_iff_exists'.mp hfrom
  obtain ⟨callId, hcallId⟩ := Option.ne_none_iff_exists'.mp hcallId
  obtain ⟨cseq, hcseq⟩ := Option.ne_none_iff_exists'.mp hcseq
  obtain ⟨localTag, hlocalTag⟩ := Option.ne_none_iff_exists'.mp hfromTag
  obtain ⟨remoteTag, hremoteTag⟩ := Option.ne_none_iff_exists'.mp htoTag
  obtain ⟨viaBranch, hbranch⟩ := Option.ne_none_iff_exists'.mp hbranch
  obtain ⟨host, hhost⟩ := Option.ne_none_iff_exists'.mp hhost
  obtain ⟨port, hport⟩ := Option.ne_none_iff_exists'.mp hport
  obtain ⟨hmadeVia, -⟩ := getHeaders_createRequest config branch "ACK".toList uri to_ from_ callId
    cseq localTag remoteTag none none none
  have hne : equalsIgnoreCase SipHeaders.via SipHeaders.expires = false := by decide
  have hvia := (getHeaders_removeHeader_of_ne hne _).trans hmadeVia
  obtain ⟨removed, hremoved⟩ : ∃ removed, ((createRequest config branch "ACK".toList uri to_ from_
      callId cseq localTag remoteTag none none none).removeHeader SipHeaders.expires).withoutTopVia =
      some removed := by
    have hplain : MultipleHeader.Plain SipHeaders.via
        ⟨SipHeaders.via, [ownVia config branch], false⟩ :=
      ⟨equalsIgnoreCase_self _, rfl, List.cons_ne_nil _ _,
        List.forall_mem_singleton.mpr (skips_ownVia config branch)⟩
    unfold withoutTopVia removeViaHeader getVias
    rw [if_pos (hasVia_of_getHeaders hvia), getMultiple_of_getHeaders hplain hvia]
    exact ⟨_, rfl⟩
  simp only [createNon2xxAckRequest, Option.bind_eq_bind, huri, hto, hfrom, hcallId, hcseq,
    hlocalTag, hremoteTag, hremoved, hv, hbranch, hhost, hport, Option.bind_some]
  exact ⟨_, rfl⟩

end BasicSipMessage
end SoftPhone
