import SoftPhone.Text.Ack

/-!
# The messages of a transaction have its identifier

A request goes to the other end, where the provider may add parameters to its top Via.  A
response is made from what has arrived, an ACK for a non-2xx response and a CANCEL from the
request.  When the branch of the top Via is spared by the provider, all of them are found under
the identifiers that the request was registered with (`matching`).

The condition is needed: a parameter with `;rport` in quotes takes the branch with it
(`quoted_rport_not_matching`).
-/

namespace SoftPhone

open SipParser ViaHeader

namespace BasicSipMessage

/-! ## The top Via and the identifiers -/

/-- The top Via has this head and this branch. -/
def TopVia (head branch : Text) (m : BasicSipMessage) : Prop :=
  ∃ v, m.getViaHeader = some v ∧ IsVia head branch v

/-- With a branch, the sent-by does not matter. -/
theorem transactionId_eq {head branch : Text} {m : BasicSipMessage} (h : TopVia head branch m)
    (uac : Bool) :
    transactionId uac m = m.getCallId.bind fun callId => m.getCSeq.bind fun seqn =>
      m.getCSeqMethod.map fun method =>
        getTransactionId uac callId seqn method none (some branch) := by
  obtain ⟨v, hv, hvia⟩ := h
  have hids : m.viaIds = some (some branch, getSentBy v) := by
    unfold viaIds
    rw [hv]
    dsimp only
    rw [hvia.hasBranch, if_pos rfl, hvia.getBranch]
    rfl
  unfold transactionId
  rw [hids]
  cases m.getCallId <;> cases m.getCSeq <;> cases m.getCSeqMethod <;> rfl

theorem cancelServerId_eq {head branch : Text} {m : BasicSipMessage} (h : TopVia head branch m) :
    cancelServerId m = m.getCallId.bind fun callId => m.getCSeq.map fun seqn =>
      getTransactionId false callId seqn "CANCEL".toList none (some branch) := by
  obtain ⟨v, hv, hvia⟩ := h
  have hids : m.viaIds = some (some branch, getSentBy v) := by
    unfold viaIds
    rw [hv]
    dsimp only
    rw [hvia.hasBranch, if_pos rfl, hvia.getBranch]
    rfl
  unfold cancelServerId
  rw [hids]
  cases m.getCallId <;> cases m.getCSeq <;> rfl

/-- The same Call-ID and CSeq. -/
structure SameCall (m m' : BasicSipMessage) : Prop where
  callId : m'.getHeader SipHeaders.callId = m.getHeader SipHeaders.callId
  cseq : m'.getHeader SipHeaders.cseq = m.getHeader SipHeaders.cseq

theorem SameCall.refl (m : BasicSipMessage) : SameCall m m := ⟨rfl, rfl⟩

theorem SameCall.trans {m m' m'' : BasicSipMessage} (h : SameCall m m') (h' : SameCall m' m'') :
    SameCall m m'' := ⟨h'.callId.trans h.callId, h'.cseq.trans h.cseq⟩

section Same

variable {m m' : BasicSipMessage} (h : SameCall m m')
include h

theorem SameCall.getCallId : m'.getCallId = m.getCallId := by
  unfold BasicSipMessage.getCallId
  rw [h.callId]

theorem SameCall.getCSeq : m'.getCSeq = m.getCSeq := by
  unfold BasicSipMessage.getCSeq
  rw [h.cseq]

theorem SameCall.getCSeqMethod : m'.getCSeqMethod = m.getCSeqMethod := by
  unfold BasicSipMessage.getCSeqMethod
  rw [h.cseq]

end Same

/-- **The identifier depends on the Call-ID, the CSeq and the branch.** -/
theorem transactionId_congr {head head' branch : Text} {m m' : BasicSipMessage}
    (h : TopVia head branch m) (h' : TopVia head' branch m') (hsame : SameCall m m') (uac : Bool) :
    transactionId uac m' = transactionId uac m := by
  rw [transactionId_eq h, transactionId_eq h', hsame.getCallId, hsame.getCSeq, hsame.getCSeqMethod]

/-! ## What arrives -/

/-- A message that was sent arrives, at a provider or as it is. -/
def Arrives (srcAddr : Text) (m m' : BasicSipMessage) : Prop :=
  m' = m ∨ ∃ forceRport srcPort, onReceivedMessage forceRport srcAddr srcPort m = some m'

/-- **The provider changes the top Via only.** -/
theorem onReceivedMessage_spec {forceRport : Bool} {srcAddr v : Text} {srcPort : ℤ}
    {m m' : BasicSipMessage} (hreq : m.isRequest = true) (hm : m.getViaHeader = some v)
    (hcomma : ∀ p, ViaHeader.receivedVia forceRport srcAddr srcPort v = some p →
      Skips ',' false p.1)
    (h : onReceivedMessage forceRport srcAddr srcPort m = some m') :
    ∃ p, ViaHeader.receivedVia forceRport srcAddr srcPort v = some p ∧
      m'.getViaHeader = some p.1 ∧
      ∀ hname, equalsIgnoreCase hname SipHeaders.via = false →
        m'.getHeaders hname = m.getHeaders hname := by
  unfold onReceivedMessage at h
  rw [if_pos hreq] at h
  simp only [Option.bind_eq_bind, Option.bind_eq_some_iff] at h
  obtain ⟨vias, hvias, vh, hvh, p, hp, h⟩ := h
  have hvalue : vh.value = v := by
    unfold getViaHeader at hm
    rw [hvias] at hm
    have hm' : vias.getTop.map Header.value = some v := hm
    rw [hvh] at hm'
    exact Option.some.inj hm'
  rw [hvalue] at hp
  refine ⟨p, hp, ?_⟩
  by_cases hchanged : p.2 = true
  · rw [if_pos hchanged, Option.bind_eq_some_iff] at h
    obtain ⟨removed, hremoved, h⟩ := h
    have hname : vh.name = vias.name := by
      obtain ⟨w, -, rfl⟩ := Option.map_eq_some_iff.mp hvh
      rfl
    rw [hname] at h
    obtain ⟨hnew, hother⟩ := getVias_replaceTop hvias (hcomma p hp) hremoved
    rw [← Option.some.inj h]
    refine ⟨?_, hother⟩
    unfold getViaHeader
    rw [hnew]
    rfl
  · rw [if_neg hchanged] at h
    rw [← Option.some.inj h, receivedVia_unchanged hp (by simpa using hchanged)]
    exact ⟨hm, fun _ _ => rfl⟩

/-- **A request that has arrived has the same Call-ID, CSeq and branch.** -/
theorem arrives_spec {srcAddr head branch v : Text} {m m' : BasicSipMessage}
    (hm : m.getViaHeader = some v) (hvia : IsVia head branch v) (haddr : IsAddress srcAddr)
    (hspared : Spared srcAddr v) (h : Arrives srcAddr m m') :
    TopVia head branch m' ∧
      ∀ hname, equalsIgnoreCase hname SipHeaders.via = false →
        m'.getHeaders hname = m.getHeaders hname := by
  obtain rfl | ⟨forceRport, srcPort, h⟩ := h
  · exact ⟨⟨v, hm, hvia⟩, fun _ _ => rfl⟩
  by_cases hreq : m.isRequest = true
  · obtain ⟨p, hp, htop, hother⟩ := onReceivedMessage_spec hreq hm
      (fun p hp => (isVia_receivedVia hvia haddr hspared hp).comma) h
    exact ⟨⟨_, htop, isVia_receivedVia hvia haddr hspared hp⟩, hother⟩
  · unfold onReceivedMessage at h
    rw [if_neg hreq] at h
    rw [← Option.some.inj h]
    exact ⟨⟨v, hm, hvia⟩, fun _ _ => rfl⟩

theorem sameCall_of_getHeaders {m m' : BasicSipMessage}
    (h : ∀ hname, equalsIgnoreCase hname SipHeaders.via = false →
      m'.getHeaders hname = m.getHeaders hname) : SameCall m m' :=
  ⟨getHeader_congr (h _ (by decide)), getHeader_congr (h _ (by decide))⟩

/-! ## Responses -/

/-- A response has the Call-ID, the CSeq and the branch of its request. -/
theorem answers_spec {head branch : Text} {req resp : BasicSipMessage} {code : ℤ}
    {localTag : Option Text} (h : Answers req code localTag resp) (hvia : TopVia head branch req) :
    TopVia head branch resp ∧ SameCall req resp := by
  obtain ⟨v, hv, hv'⟩ := hvia
  refine ⟨⟨v, ?_, hv'⟩, ⟨h.callId, h.cseq⟩⟩
  unfold getViaHeader at hv ⊢
  rw [h.vias]
  exact hv

/-! ## The ACK and the CANCEL -/

/-- The top Via, where there is one header with it. -/
theorem getViaHeader_of_getHeaders {m : BasicSipMessage} {v : Text} {hs : List Header}
    (hv : Skips ',' false v) (hm : m.getHeaders SipHeaders.via = ⟨SipHeaders.via, v⟩ :: hs) :
    m.getViaHeader = some v := by
  unfold getViaHeader getVias getMultiple
  rw [hm]
  show (MultipleHeader.getTop ⟨_, (_ :: hs).flatMap Header.values, false⟩).map Header.value = some v
  rw [List.flatMap_cons, Header.values_of_skips hv]
  rfl

theorem getViaHeader_congr {m m' : BasicSipMessage} (h : m'.getVias = m.getVias) :
    m'.getViaHeader = m.getViaHeader := by
  unfold getViaHeader
  rw [h]

/-- **The ACK for a response that was built from `r'`** has the identifier of `r` as a server
transaction, also when it has arrived. -/
theorem ack_matches {config : FactoryConfig} {pick : Token} {head branch addr : Text}
    {r r' resp ack ack' : BasicSipMessage} {code : ℤ} {localTag : Option Text}
    (hr : TopVia head branch r) (hr' : TopVia head branch r')
    (hinvite : r.getCSeqMethod = some "INVITE".toList) (hresp : Answers r' code localTag resp)
    (hack : createNon2xxAckRequest config pick r resp = some ack) (haddr : IsAddress addr)
    (harr : Arrives addr ack ack') : transactionId false ack' = transactionId false r := by
  have hmade := createNon2xxAckRequest_spec hack
  obtain ⟨w, hw, hvia⟩ := (answers_spec hresp hr').1
  obtain ⟨v, viaBranch, host, port, hv, hbranch, hhost, hport, hheaders⟩ := hmade.via
  rw [hw] at hv
  obtain rfl := Option.some.inj hv
  rw [hvia.getBranch] at hbranch
  obtain rfl := Option.some.inj hbranch
  obtain ⟨hviaMade, -, -, -, hspared⟩ := isVia_made hvia hhost hport rfl
  have htop := getViaHeader_of_getHeaders hviaMade.comma hheaders
  obtain ⟨htop', hother⟩ := arrives_spec htop hviaMade haddr (hspared addr) harr
  rw [transactionId_congr ⟨_, htop, hviaMade⟩ htop' (sameCall_of_getHeaders hother),
    transactionId_eq ⟨_, htop, hviaMade⟩, transactionId_eq hr, hmade.callId.2, hmade.cseq.2.1,
    hmade.cseq.2.2, hinvite]
  rfl

/-- **The CANCEL of `r`**, when it has arrived, has the identifier of the
`CancelTransactionServer` for `r'`. -/
theorem cancel_matches {config : FactoryConfig} {pick : Token} {head branch addr v : Text}
    {r r' cancel cancel' : BasicSipMessage} (hv : r.getViaHeader = some v)
    (hvia : IsVia head branch v) (hr' : TopVia head branch r') (hsame : SameCall r r')
    (hcancel : createCancelRequest config pick r = some cancel) (haddr : IsAddress addr)
    (hspared : Spared addr v) (harr : Arrives addr cancel cancel') :
    transactionId false cancel' = cancelServerId r' := by
  obtain ⟨-, -, hcallId, hcseq, hmethod, vias, via, hvias, htop, hheaders⟩ :=
    createCancelRequest_spec hcancel
  have hvalue : via.value = v ∧ via.name = vias.name := by
    unfold getViaHeader at hv
    rw [hvias] at hv
    have hv' : vias.getTop.map Header.value = some v := hv
    rw [htop] at hv'
    obtain ⟨u, -, rfl⟩ := Option.map_eq_some_iff.mp htop
    exact ⟨Option.some.inj hv', rfl⟩
  have htop : cancel.getViaHeader = some v := by
    unfold getViaHeader getVias getMultiple
    rw [hheaders]
    show (MultipleHeader.getTop ⟨_, [via, _].flatMap Header.values, false⟩).map Header.value = some v
    rw [List.flatMap_cons]
    obtain ⟨n, w⟩ := via
    obtain rfl : w = v := hvalue.1
    rw [Header.values_of_skips hvia.comma]
    rfl
  obtain ⟨htop', hother⟩ := arrives_spec htop hvia haddr hspared harr
  rw [transactionId_congr ⟨_, htop, hvia⟩ htop' (sameCall_of_getHeaders hother),
    transactionId_eq ⟨_, htop, hvia⟩, cancelServerId_eq hr', hcallId, hcseq, hmethod,
    hsame.getCallId, hsame.getCSeq]
  cases r.getCallId <;> cases r.getCSeq <;> rfl

/-! ## All the messages of a transaction -/

/-- **The messages of a transaction have its identifiers.**  The request `r` with the top Via `v`
has arrived as `r'`, and the provider has spared the branch.  Every response that is built from
`r'` has the client identifier of `r` and the server identifier of `r'`, which is the one of `r`.
For an INVITE, an ACK that is made for one of the responses arrives under this server identifier,
and a CANCEL arrives under the identifier of the `CancelTransactionServer`. -/
theorem matching {head branch addr v : Text} {r r' : BasicSipMessage}
    (hcallId : r.getCallId ≠ none) (hcseq : r.getCSeq ≠ none) (hv : r.getViaHeader = some v)
    (hvia : IsVia head branch v) (haddr : IsAddress addr) (hspared : Spared addr v)
    (harr : Arrives addr r r') :
    ∃ client server cancelServer, transactionId true r = some client ∧
      transactionId false r = some server ∧ transactionId false r' = some server ∧
      cancelServerId r' = some cancelServer ∧
      (∀ config code reason localTag contact contentType body resp,
        createResponse config r' code reason localTag contact contentType body = some resp →
          transactionId true resp = some client ∧ transactionId false resp = some server ∧
          (r.getCSeqMethod = some "INVITE".toList → ∀ config pick ack addr ack',
            createNon2xxAckRequest config pick r resp = some ack → IsAddress addr →
              Arrives addr ack ack' → transactionId false ack' = some server)) ∧
      ∀ config pick cancel addr cancel', createCancelRequest config pick r = some cancel →
        IsAddress addr → Spared addr v → Arrives addr cancel cancel' →
          transactionId false cancel' = some cancelServer := by
  obtain ⟨htop', hother⟩ := arrives_spec hv hvia haddr hspared harr
  have htop : TopVia head branch r := ⟨v, hv, hvia⟩
  have hsame := sameCall_of_getHeaders hother
  obtain ⟨callId, hcallId⟩ := Option.ne_none_iff_exists'.mp hcallId
  obtain ⟨seqn, hseqn⟩ := Option.ne_none_iff_exists'.mp hcseq
  obtain ⟨method, hmethod⟩ : ∃ method, r.getCSeqMethod = some method := by
    obtain ⟨h, hh, -⟩ := Option.bind_eq_some_iff.mp hseqn
    exact ⟨_, by rw [getCSeqMethod, hh]; rfl⟩
  have hid (uac : Bool) : transactionId uac r =
      some (getTransactionId uac callId seqn method none (some branch)) := by
    rw [transactionId_eq htop, hcallId, hseqn, hmethod]
    rfl
  have hcancelId : cancelServerId r' =
      some (getTransactionId false callId seqn "CANCEL".toList none (some branch)) := by
    rw [cancelServerId_eq htop', hsame.getCallId, hsame.getCSeq, hcallId, hseqn]
    rfl
  refine ⟨_, _, _, hid true, hid false, ?_, hcancelId, ?_, ?_⟩
  · exact (transactionId_congr htop htop' hsame false).trans (hid false)
  · intro config code reason localTag contact contentType body resp h
    have hresp := createResponse_spec h
    obtain ⟨htopResp, hsameResp⟩ := answers_spec hresp htop'
    have hcongr := transactionId_congr htop htopResp (hsame.trans hsameResp)
    refine ⟨(hcongr true).trans (hid true), (hcongr false).trans (hid false), ?_⟩
    intro hinvite config pick ack addr ack' hack haddr harr
    exact (ack_matches htop htop' hinvite hresp hack haddr harr).trans (hid false)
  · intro config pick cancel addr cancel' hcancel haddr hspared harr
    exact (cancel_matches hv hvia htop' hsame hcancel haddr hspared harr).trans hcancelId

/-- An INVITE with a comma, a semicolon and quotes in a parameter of its Via. -/
def quotedInvite (via : Text) : BasicSipMessage where
  startLine := some (.request "INVITE".toList (some "sip:bob@h".toList))
  headers := [⟨SipHeaders.via, via⟩, ⟨SipHeaders.to, "<sip:bob@h>".toList⟩,
    ⟨SipHeaders.from, "<sip:alice@h>;tag=1".toList⟩, ⟨SipHeaders.callId, "call".toList⟩,
    ⟨SipHeaders.cseq, "1 INVITE".toList⟩, ⟨SipHeaders.contact, "<sip:alice@10.0.0.1>".toList⟩]

/-- It goes through a network address translation, and the parameter in quotes does no harm
behind the branch and `rport`. -/
def quotedVia : Text := "SIP/2.0/UDP 10.0.0.1:5060;branch=z9hG4bK1;rport;x=\"a;received=b,\"".toList

theorem matching_quotedVia :
    let r := quotedInvite quotedVia
    ∃ r' client server, onReceivedMessage false "192.0.2.1".toList 4000 r = some r' ∧ r' ≠ r ∧
      transactionId true r = some client ∧ transactionId false r' = some server ∧
      ∀ config code reason localTag contact contentType body resp,
        createResponse config r' code reason localTag contact contentType body = some resp →
          transactionId true resp = some client ∧ transactionId false resp = some server := by
  intro r
  have hvia : IsVia "SIP/2.0/UDP 10.0.0.1:5060".toList "z9hG4bK1".toList quotedVia :=
    ⟨by decide +kernel, ⟨"branch=z9hG4bK1;rport;x=\"a;received=b,\"".toList, rfl, by decide +kernel,
      ⟨"branch".toList, "=z9hG4bK1".toList⟩, by decide +kernel, by decide +kernel⟩, by decide +kernel⟩
  have hr' : ∃ r', onReceivedMessage false "192.0.2.1".toList 4000 r = some r' ∧ r' ≠ r := by
    have hvalues : (onReceivedMessage false "192.0.2.1".toList 4000 r).map (· == r) = some false := by
      decide +kernel
    obtain ⟨r', hr', hne⟩ := Option.map_eq_some_iff.mp hvalues
    exact ⟨r', hr', by simpa using hne⟩
  obtain ⟨r', hr', hne⟩ := hr'
  obtain ⟨client, server, -, hclient, -, hserver, -, hresp, -⟩ :=
    matching (r := r) (v := quotedVia) (by decide +kernel) (by decide +kernel) (by decide +kernel)
      hvia (by decide : IsAddress "192.0.2.1".toList) (by decide +kernel) (.inr ⟨_, _, hr'⟩)
  refine ⟨r', client, server, hr', hne, hclient, hserver, ?_⟩
  intro config code reason localTag contact contentType body resp h
  obtain ⟨h1, h2, -⟩ := hresp config code reason localTag contact contentType body resp h
  exact ⟨h1, h2⟩

/-- **A semicolon in quotes takes the branch away.**  The source address is the host of the Via;
with the branch, the identifier of the response is another one. -/
theorem quoted_rport_not_matching :
    let r := quotedInvite "SIP/2.0/UDP 10.0.0.1:5060;x=\"a;rport=b\";branch=z9hG4bK1;rport".toList
    ∃ r' resp, onReceivedMessage false "10.0.0.1".toList 5060 r = some r' ∧
      createResponse {} r' 200 "OK".toList (some "2".toList) none none none = some resp ∧
      r.getVias.map MultipleHeader.values = some
        ["SIP/2.0/UDP 10.0.0.1:5060;x=\"a;rport=b\";branch=z9hG4bK1;rport".toList] ∧
      resp.getVias.map MultipleHeader.values =
        some ["SIP/2.0/UDP 10.0.0.1:5060;x=\"a;rport=5060".toList] ∧
      transactionId true resp ≠ transactionId true r := by
  intro r
  have hrun : ((onReceivedMessage false "10.0.0.1".toList 5060 r).bind fun r' =>
      createResponse {} r' 200 "OK".toList (some "2".toList) none none none).map (fun resp =>
        (resp.getVias.map MultipleHeader.values, transactionId true resp)) =
      some (some ["SIP/2.0/UDP 10.0.0.1:5060;x=\"a;rport=5060".toList],
        some "call-1-INVITE-client-10.0.0.1:5060".toList) := by
    decide +kernel
  have hid : transactionId true r = some "call-1-INVITE-client-z9hG4bK1".toList := by
    decide +kernel
  obtain ⟨resp, hresp, hvalues⟩ := Option.map_eq_some_iff.mp hrun
  obtain ⟨r', hr', hresp⟩ := Option.bind_eq_some_iff.mp hresp
  obtain ⟨hvias, hclient⟩ := Prod.mk.inj hvalues
  refine ⟨r', resp, hr', hresp, by decide +kernel, hvias, ?_⟩
  rw [hclient, hid]
  decide

end BasicSipMessage
end SoftPhone
