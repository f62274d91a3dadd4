import SoftPhone.Transaction.Server

/-!
# The servers of an INVITE, one method at a time

What the methods of `InviteTransactionServer` and `AckTransactionServer` do is stated here
field by field, so that nobody has to open them again.

`InviteTransactionServer.Continues` collects what a server does without being told to: a
retransmission of the INVITE, the ACK and the timers.  It sends what it has sent last,
and it leaves COMPLETED and CONFIRMED only.  `Responds` is `respondWith`: the response is
kept in any state, but sent in a pending one only.
-/

namespace SoftPhone

/-! ## `InviteTransactionServer` -/

namespace InviteTransactionServer

/-- What a server that has its INVITE does by itself: `t` becomes `t'` and calls the
provider. -/
structure Continues (t t' : InviteTransactionServer) (cs : List ProviderCall) : Prop where
  request : t'.request = t.request
  transactionId : t'.transactionId = t.transactionId
  response : t'.response = t.response
  status : t'.status = t.status ∧ t'.listener = t.listener ∨
    (t.status = .completed ∨ t.status = .confirmed) ∧
      (t'.status = .confirmed ∨ t'.status = .terminated)
  sends : ∀ m, .sendMessage m ∈ cs →
    t.response = some m ∧ (t.status = .proceeding ∨ t.status = .completed)
  adds : ∀ id, .addSelectiveListener id ∉ cs

theorem Continues.refl (t : InviteTransactionServer) : t.Continues t [] :=
  ⟨rfl, rfl, rfl, .inl ⟨rfl, rfl⟩, by simp, by simp⟩

/-- The server only stops a timer, or sets one. -/
theorem Continues.congr {t t' t'' : InviteTransactionServer} {cs : List ProviderCall}
    (h : t.Continues t' cs) (hrequest : t''.request = t'.request)
    (hid : t''.transactionId = t'.transactionId) (hresponse : t''.response = t'.response)
    (hstatus : t''.status = t'.status) (hlistener : t''.listener = t'.listener) :
    t.Continues t'' cs :=
  ⟨hrequest.trans h.request, hid.trans h.transactionId, hresponse.trans h.response,
    by rw [hstatus, hlistener]; exact h.status, h.sends, h.adds⟩

/-- What `terminate` does. -/
structure Terminates (t t' : InviteTransactionServer) (cs : List ProviderCall) : Prop where
  request : t'.request = t.request
  transactionId : t'.transactionId = t.transactionId
  response : t'.response = t.response
  status : t'.status = .terminated
  sends : ∀ m, .sendMessage m ∉ cs
  adds : ∀ id, .addSelectiveListener id ∉ cs

theorem terminates_terminate (t : InviteTransactionServer) :
    t.Terminates t.terminate.1 t.terminate.2 := by
  unfold terminate doTerminate
  split
  · next h => exact ⟨rfl, rfl, rfl, h, by simp, by simp⟩
  · exact ⟨rfl, rfl, rfl, rfl, by simp, by simp⟩

/-- A server that is told to terminate in COMPLETED or CONFIRMED. -/
theorem Terminates.continues {t t' : InviteTransactionServer} {cs : List ProviderCall}
    (h : t.Terminates t' cs) (ht : t.status = .completed ∨ t.status = .confirmed) :
    t.Continues t' cs :=
  ⟨h.request, h.transactionId, h.response, .inr ⟨ht, .inr h.status⟩,
    fun m hm => absurd hm (h.sends m), h.adds⟩

theorem mem_repeat {r : Option SipMessage} {m : SipMessage}
    (h : ProviderCall.sendMessage m ∈ r.toList.map ProviderCall.sendMessage) : r = some m := by
  simp only [List.mem_map, Option.mem_toList, ProviderCall.sendMessage.injEq,
    exists_eq_right] at h
  exact h

theorem not_adds_repeat (r : Option SipMessage) (id : SipId) :
    .addSelectiveListener id ∉ r.toList.map ProviderCall.sendMessage := by
  simp

/-- A message for a server, other than the INVITE that it waits for. -/
theorem continues_onReceivedMessage (S : SipStack) {t : InviteTransactionServer} {m : SipMessage}
    (h : ¬ (m.is .invite = true ∧ t.status = .waiting)) :
    t.Continues (t.onReceivedMessage S m).self (t.onReceivedMessage S m).calls := by
  unfold onReceivedMessage
  split
  · next hm =>
    split
    · next hw => exact absurd ⟨hm, hw⟩ h
    · split
      · next hstatus =>
        exact ⟨rfl, rfl, rfl, .inl ⟨rfl, rfl⟩, fun m hm => ⟨mem_repeat hm, hstatus⟩,
          not_adds_repeat _⟩
      · exact .refl t
  · split
    · next hack =>
      exact ⟨rfl, rfl, rfl, .inr ⟨.inl hack.2, .inl rfl⟩, by simp, by simp⟩
    · exact .refl t

/-- It is the ACK that such a server tells its listener of. -/
theorem callback_onReceivedMessage {S : SipStack} {t : InviteTransactionServer} {m : SipMessage}
    (h : ¬ (m.is .invite = true ∧ t.status = .waiting)) {c : ServerCallback}
    (hc : (t.onReceivedMessage S m).callback = some c) : c = .onTransFailureAck m := by
  unfold onReceivedMessage at hc
  split at hc
  · next hm =>
    split at hc
    · next hw => exact absurd ⟨hm, hw⟩ h
    · split at hc <;> cases hc
  · split at hc
    · dsimp only at hc
      split at hc
      · exact (Option.some.inj hc).symm
      · cases hc
    · cases hc

/-- The INVITE that a listening server waits for. -/
theorem onReceivedMessage_of_waiting (S : SipStack) {t : InviteTransactionServer} {m : SipMessage}
    (hm : m.is .invite = true) (hw : t.status = .waiting) :
    t.onReceivedMessage S m =
      { self := (t.begin S m).1
        calls := (t.begin S m).2
        callback := if t.listener then some (.onTransRequest m) else none } := by
  unfold onReceivedMessage
  rw [if_pos hm, if_pos hw]

/-- What a server sends again is for a retransmission of its INVITE. -/
theorem is_invite_of_sends {S : SipStack} {t : InviteTransactionServer} {m m' : SipMessage}
    (hm : .sendMessage m' ∈ (t.onReceivedMessage S m).calls) : m.is .invite = true := by
  unfold onReceivedMessage at hm
  split at hm
  · next h => exact h
  · split at hm <;> cases hm

theorem continues_onTimeout (t : InviteTransactionServer) (n : TimerName) :
    t.Continues (t.onTimeout n).self (t.onTimeout n).calls := by
  unfold onTimeout
  cases n with
  | retransmission =>
    dsimp only
    split
    · next hstatus =>
      exact ⟨rfl, rfl, rfl, .inl ⟨rfl, rfl⟩, fun m hm => ⟨mem_repeat hm, .inr hstatus⟩,
        not_adds_repeat _⟩
    · exact .refl t
  | ending =>
    dsimp only
    split
    · next hstatus => exact t.terminates_terminate.continues (.inl hstatus)
    · exact .refl t
  | clearing =>
    dsimp only
    split
    · next hstatus => exact t.terminates_terminate.continues (.inr hstatus)
    · exact .refl t
  | transaction => exact .refl t

/-- Stopping a timer first makes no difference. -/
theorem Continues.of_haltTimer {t t' : InviteTransactionServer} {n : TimerName}
    {cs : List ProviderCall} (h : (t.haltTimer n).Continues t' cs) : t.Continues t' cs := by
  cases n <;> exact ⟨h.request, h.transactionId, h.response, h.status, h.sends, h.adds⟩

theorem continues_haltTimer (t : InviteTransactionServer) (n : TimerName) :
    t.Continues (t.haltTimer n) [] := by
  cases n <;> exact (Continues.refl t).congr rfl rfl rfl rfl rfl

theorem continues_expire (t : InviteTransactionServer) (n : TimerName) :
    t.Continues (t.expire n).self (t.expire n).calls := by
  unfold expire
  split
  · unfold Timer.expire
    split
    · split
      · exact ((t.haltTimer n).continues_onTimeout n).of_haltTimer
      · exact t.continues_haltTimer n
    · exact .refl t
  · exact .refl t

theorem continues_resume (t : InviteTransactionServer) (r : ServerRest) :
    t.Continues (t.resume r) [] := by
  cases r
  exact (Continues.refl t).congr rfl rfl rfl rfl rfl

theorem callback_expire (t : InviteTransactionServer) (n : TimerName) :
    (t.expire n).callback = none := by
  unfold expire
  split
  · unfold Timer.expire
    split
    · split
      · unfold onTimeout
        cases n with
        | transaction => rfl
        | _ => dsimp only; split <;> rfl
      · rfl
    · rfl
  · rfl

/-- The state after `respondWith`. -/
def responded (s : TransactionStatus) (code : ℤ) : TransactionStatus :=
  if s.isPending then
    if 100 ≤ code ∧ code < 200 then .proceeding
    else if 200 ≤ code ∧ code < 300 then .terminated
    else if 300 ≤ code ∧ code < 700 then .completed
    else s
  else s

/-- What `respondWith` does with the response, `resp` with the connection of the server. -/
structure Responds (t : InviteTransactionServer) (resp : SipMessage)
    (t' : InviteTransactionServer) (cs : List ProviderCall) : Prop where
  request : t'.request = t.request
  transactionId : t'.transactionId = t.transactionId
  response : t'.response = some resp
  status : t'.status = responded t.status resp.code
  listener : t'.status ≠ .terminated → t'.listener = t.listener
  sends : ∀ m, .sendMessage m ∈ cs → m = resp ∧ t.status.isPending = true
  sent : t.status.isPending = true → .sendMessage resp ∈ cs
  adds : ∀ id, .addSelectiveListener id ∉ cs

theorem responds_respondWith (t : InviteTransactionServer) (resp : SipMessage) :
    t.Responds { resp with connectionId := t.connectionId } (t.respondWith resp).1
      (t.respondWith resp).2 := by
  unfold respondWith
  extract_lets resp₁ t₁
  split
  · next hpending =>
    have hpending : t.status.isPending = true := hpending
    split
    · next hcode =>
      have hcode : 100 ≤ resp₁.code ∧ resp₁.code < 200 := hcode
      refine ⟨rfl, rfl, rfl, ?_, fun _ => rfl, ?_, fun _ => List.mem_singleton_self _, by simp⟩
      · rw [responded, if_pos hpending, if_pos hcode]
      · intro m hm
        cases List.mem_singleton.mp hm
        exact ⟨rfl, hpending⟩
    · next hcode =>
      split
      · next hcode' =>
        have hterm := t₁.terminates_terminate
        refine ⟨hterm.request, hterm.transactionId, hterm.response, ?_,
          fun h => absurd hterm.status h, ?_, fun _ => List.mem_cons_self .., ?_⟩
        · rw [hterm.status, responded, if_pos hpending, if_neg hcode, if_pos hcode']
        · intro m hm
          rcases List.mem_cons.mp hm with hm | hm
          · cases hm
            exact ⟨rfl, hpending⟩
          · exact absurd hm (hterm.sends m)
        · intro id hid
          rcases List.mem_cons.mp hid with hid | hid
          · cases hid
          · exact hterm.adds id hid
      · next hcode' =>
        split
        · next hcode'' =>
          refine ⟨rfl, rfl, rfl, ?_, fun _ => rfl, ?_, fun _ => List.mem_singleton_self _,
            by simp⟩
          · rw [responded, if_pos hpending, if_neg hcode, if_neg hcode', if_pos hcode'']
            rfl
          · intro m hm
            cases List.mem_singleton.mp hm
            exact ⟨rfl, hpending⟩
        · next hcode'' =>
          refine ⟨rfl, rfl, rfl, ?_, fun _ => rfl, ?_, fun _ => List.mem_singleton_self _,
            by simp⟩
          · rw [responded, if_pos hpending, if_neg hcode, if_neg hcode', if_neg hcode'']
          · intro m hm
            cases List.mem_singleton.mp hm
            exact ⟨rfl, hpending⟩
  · next hpending =>
    have hpending : ¬ t.status.isPending = true := hpending
    refine ⟨rfl, rfl, rfl, ?_, fun _ => rfl, by simp, fun h => absurd h hpending, by simp⟩
    rw [responded, if_neg hpending]

/-- What a server `t` that gets its INVITE does: it is registered for it, and it may send
"100 Trying". -/
structure Begins (t : InviteTransactionServer) (invite : SipMessage)
    (t' : InviteTransactionServer) (cs : List ProviderCall) : Prop where
  request : t'.request = some invite
  transactionId : t'.transactionId = .transactionServer invite
  status : t'.status = .trying ∨ t'.status = .proceeding
  listener : t'.listener = t.listener
  response : t'.response = t.response ∨ ∃ resp, t'.response = some resp ∧ resp.code = 100 ∧
    resp.passedFor = none
  sends : ∀ m, .sendMessage m ∈ cs → t'.response = some m ∧ m.code = 100 ∧ m.passedFor = none
  adds : ∀ id, .addSelectiveListener id ∈ cs → id = .transactionServer invite
  removes : t.status = .waiting → .removeSelectiveListener t.transactionId ∈ cs

theorem begins_tryInvite (S : SipStack) {t : InviteTransactionServer} {invite : SipMessage}
    (hrequest : t.request = some invite) (hid : t.transactionId = .transactionServer invite)
    (hstatus : t.status = .trying) :
    t.Begins invite (t.tryInvite S invite).1 (t.tryInvite S invite).2 := by
  have hnot : t.status ≠ .waiting := by
    rw [hstatus]
    decide
  unfold tryInvite
  split
  · have hresponds := t.responds_respondWith (createResponse S invite 100 none)
    have hproceeding : (t.respondWith (createResponse S invite 100 none)).1.status =
        .proceeding := by
      rw [hresponds.status, hstatus]
      rfl
    refine ⟨hresponds.request.trans hrequest, hresponds.transactionId.trans hid,
      .inr hproceeding, hresponds.listener (by rw [hproceeding]; decide),
      .inr ⟨_, hresponds.response, rfl, rfl⟩, fun m hm => ?_,
      fun id hid => absurd hid (hresponds.adds id), fun h => absurd h hnot⟩
    rw [(hresponds.sends m hm).1]
    exact ⟨hresponds.response, rfl, rfl⟩
  · exact ⟨hrequest, hid, .inl hstatus, rfl, .inl rfl, by simp, by simp, fun h => absurd h hnot⟩

/-- The calls that register the server come first. -/
theorem Begins.cons {t t₁ t' : InviteTransactionServer} {invite : SipMessage}
    {cs : List ProviderCall} (h : t₁.Begins invite t' cs) (hlistener : t₁.listener = t.listener)
    (hresponse : t₁.response = t.response) {cs' : List ProviderCall}
    (hsends : ∀ m, .sendMessage m ∉ cs')
    (hadds : ∀ id, .addSelectiveListener id ∈ cs' → id = .transactionServer invite)
    (hremoves : t.status = .waiting → .removeSelectiveListener t.transactionId ∈ cs') :
    t.Begins invite t' (cs' ++ cs) where
  request := h.request
  transactionId := h.transactionId
  status := h.status
  listener := h.listener.trans hlistener
  response := hresponse ▸ h.response
  sends m hm := (List.mem_append.mp hm).elim (fun hm => absurd hm (hsends m)) (h.sends m)
  adds id hid := (List.mem_append.mp hid).elim (hadds id) (h.adds id)
  removes hw := List.mem_append_left _ (hremoves hw)

theorem begins_new (S : SipStack) (invite : SipMessage) (listener : Bool) :
    (ofInvite S invite listener).Begins invite (new S invite listener).1
      (new S invite listener).2 := by
  have htry := begins_tryInvite S (t := ofInvite S invite listener) rfl rfl rfl
  have hcons : (ofInvite S invite listener).Begins invite (new S invite listener).1
      ([.addSelectiveListener (.transactionServer invite)] ++
        ((ofInvite S invite listener).tryInvite S invite).2) :=
    htry.cons rfl rfl (by simp) (by simp) fun h => by cases h
  exact hcons

/-- A listening server takes its INVITE. -/
theorem begins_begin (S : SipStack) (t : InviteTransactionServer) (m : SipMessage) :
    t.Begins m (t.begin S m).1 (t.begin S m).2 := by
  unfold «begin»
  extract_lets t₁
  have htry := begins_tryInvite S (t := t₁) rfl rfl rfl
  have hcons : t.Begins m (t₁.tryInvite S m).1
      ([.removeSelectiveListener t.transactionId, .addSelectiveListener (.transactionServer m)] ++
        (t₁.tryInvite S m).2) :=
    .cons (t := t) htry rfl rfl (by simp) (by simp) (by simp)
  exact hcons

end InviteTransactionServer

/-! ## `AckTransactionServer` -/

namespace AckTransactionServer

/-- What an ACK server does once it is started: `t` becomes `t'` and calls the provider. -/
structure Continues (t t' : AckTransactionServer) (cs : List ProviderCall) : Prop where
  transactionId : t'.transactionId = t.transactionId
  response : t'.response = t.response
  sends : ∀ m, .sendMessage m ∈ cs → m = t.response
  adds : ∀ id, .addSelectiveListener id ∉ cs

theorem Continues.refl (t : AckTransactionServer) : t.Continues t [] :=
  ⟨rfl, rfl, by simp, by simp⟩

theorem continues_doTerminate (t : AckTransactionServer) :
    t.Continues t.doTerminate.1 t.doTerminate.2 := by
  unfold doTerminate
  split
  · exact .refl t
  · exact ⟨rfl, rfl, by simp, by simp⟩

theorem continues_terminate (t : AckTransactionServer) :
    t.Continues t.terminate.1 t.terminate.2 := by
  have h := t.continues_doTerminate
  exact ⟨h.transactionId, h.response, h.sends, h.adds⟩

theorem continues_onReceivedMessage (t : AckTransactionServer) (m : SipMessage) :
    t.Continues (t.onReceivedMessage m).self (t.onReceivedMessage m).calls := by
  refine ⟨rfl, rfl, fun m hm => ?_, fun id hid => ?_⟩
  · unfold onReceivedMessage at hm
    dsimp only at hm
    split at hm
    · cases List.mem_singleton.mp hm
      rfl
    · cases hm
  · unfold onReceivedMessage at hid
    dsimp only at hid
    split at hid
    · cases List.mem_singleton.mp hid
    · cases hid

/-- A 2xx is sent again for a retransmission of the INVITE. -/
theorem is_invite_of_sends {t : AckTransactionServer} {m m' : SipMessage}
    (hm : .sendMessage m' ∈ (t.onReceivedMessage m).calls) : m.is .invite = true := by
  unfold onReceivedMessage at hm
  dsimp only at hm
  split at hm
  · next h => exact h.2
  · cases hm

theorem continues_expire (t : AckTransactionServer) (n : TimerName) :
    t.Continues (t.expire n).self (t.expire n).calls := by
  have hhalt : t.Continues (t.haltTimer n) [] := by
    cases n <;> exact ⟨rfl, rfl, by simp, by simp⟩
  have htimeout : t.Continues ((t.haltTimer n).onTimeout n).self
      ((t.haltTimer n).onTimeout n).calls := by
    cases n with
    | retransmission =>
      unfold onTimeout
      dsimp only
      split
      · refine ⟨rfl, rfl, fun m hm => ?_, by simp⟩
        cases List.mem_singleton.mp hm
        rfl
      · exact hhalt
    | transaction =>
      unfold onTimeout
      dsimp only
      split
      · have h := (t.haltTimer .transaction).continues_doTerminate
        exact ⟨h.transactionId, h.response, h.sends, h.adds⟩
      · exact hhalt
    | ending => exact hhalt
    | clearing => exact hhalt
  unfold expire
  split
  · unfold Timer.expire
    split
    · split
      · exact htimeout
      · exact hhalt
    · exact .refl t
  · exact .refl t

end AckTransactionServer

end SoftPhone
