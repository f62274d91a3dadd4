import SoftPhone.Dialog.Attended

/-!
# Silence after the final response

Once a final response to an INVITE was passed, no provisional response to it goes out any
more.  The server transaction takes care of that as long as it gets the responses: after
the final response it is not pending, and what it sends again is the final one.

But the reliable responder goes on by itself.  A failure response does not stop it, and
`respondWith` overwrites the response that a COMPLETED server sends again.  It also stays
with the first INVITE that needed it.  So the condition (`HandsInPlace`) is about what the
responder hands over: its server is pending and has the INVITE of the response, or it does
not send any more.
-/

namespace SoftPhone

open Machine

/-- A provisional response to the INVITE of the server `r`: one that was passed for it, or
one that the server has made. -/
def Obs.IsProvisional (r : ℕ) : Obs → Prop
  | .sent a m => m.cseqMethod = .invite ∧ (100 ≤ m.code ∧ m.code < 200) ∧
      (m.passedFor = some r ∨ m.passedFor = none ∧ a = .inviteServer r)
  | _ => False

/-- A final response that was passed for the INVITE of the server `r`. -/
def Obs.IsFinal (r : ℕ) : Obs → Prop
  | .sent _ m => m.cseqMethod = .invite ∧ (200 ≤ m.code ∧ m.code < 700) ∧ m.passedFor = some r
  | _ => False

instance (r : ℕ) : DecidablePred (Obs.IsProvisional r)
  | .sent _ _ => inferInstanceAs (Decidable (_ ∧ _ ∧ _))
  | .received _ _ | .processed _ | .fired _ => isFalse id

instance (r : ℕ) : DecidablePred (Obs.IsFinal r)
  | .sent _ _ => inferInstanceAs (Decidable (_ ∧ _ ∧ _))
  | .received _ _ | .processed _ | .fired _ => isFalse id

/-- The server has sent its final response. -/
def TransactionStatus.IsPast (s : TransactionStatus) : Prop :=
  s = .completed ∨ s = .confirmed ∨ s = .terminated

/-- What the server `r` may hold in order to send it again. -/
def InviteTransactionServer.Holds (t : InviteTransactionServer) (r : ℕ) : Prop :=
  match t.status with
  | .idle | .waiting => t.response = none
  | .trying | .proceeding => ∀ resp ∈ t.response,
      (resp.passedFor = none ∨ resp.passedFor = some r) ∧ ¬ (200 ≤ resp.code ∧ resp.code < 700)
  | .completed => ∀ resp ∈ t.response, resp.passedFor = some r ∧ 200 ≤ resp.code
  | .confirmed | .terminated => True

namespace World

variable {S : SipStack}

/-- A response that the responder hands to its server does no harm: the server is pending
and has the INVITE of the response, or it does not send any more. -/
def InPlace (heap : Heap InviteTransactionServer) (p : ℕ × SipMessage) : Prop :=
  ∀ t ∈ heap.get p.1, t.status = .confirmed ∨ t.status = .terminated ∨
    t.status.isPending = true ∧ p.2.passedFor = some p.1

/-- What the responder hands over in the event does no harm. -/
def HandsInPlace (S : SipStack) (w : World) (e : Event) : Prop :=
  ∀ p ∈ w.handed S e, InPlace w.inviteServers p

instance (heap : Heap InviteTransactionServer) (p : ℕ × SipMessage) :
    Decidable (InPlace heap p) :=
  inferInstanceAs (Decidable (∀ t ∈ heap.get p.1, _))

instance (w : World) (e : Event) : Decidable (HandsInPlace S w e) :=
  inferInstanceAs (Decidable (∀ p ∈ w.handed S e, _))

/-- The server `r` has sent its final response. -/
def Over (w : World) (r : ℕ) : Prop := ∃ t, w.inviteServers.get r = some t ∧ t.status.IsPast

/-- Nothing provisional comes after a final response, and no server is about to send it. -/
structure Hushed (w : World) : Prop where
  ordered : w.log.Pairwise fun later earlier => ∀ r, earlier.IsFinal r → ¬ later.IsProvisional r
  past : ∀ o ∈ w.log, ∀ r, o.IsFinal r → w.Over r
  holds : ∀ r t, w.inviteServers.get r = some t → t.Holds r
  acks : ∀ k t, w.ackServers.get k = some t →
    200 ≤ t.response.code ∧ ∀ r, t.response.passedFor = some r → w.Over r

namespace Hushed

variable {w w' : World}

/-- The log grows by what one transaction sends. -/
theorem extend (h : w.Hushed) {l : List Obs} (hlog : w'.log = l ++ w.log)
    (hmono : ∀ r, w.Over r → w'.Over r)
    (hprovisional : ∀ o ∈ l, ∀ r, o.IsProvisional r → ¬ w.Over r)
    (hfinal : ∀ o ∈ l, ∀ r, o.IsFinal r → w'.Over r)
    (hl : l.Pairwise fun later earlier => ∀ r, earlier.IsFinal r → ¬ later.IsProvisional r)
    (hholds : ∀ r t, w'.inviteServers.get r = some t → t.Holds r)
    (hacks : ∀ k t, w'.ackServers.get k = some t →
      200 ≤ t.response.code ∧ ∀ r, t.response.passedFor = some r → w'.Over r) : w'.Hushed := by
  refine ⟨?_, fun o ho r hr => ?_, hholds, hacks⟩
  · rw [hlog]
    refine List.pairwise_append.mpr ⟨hl, h.ordered, fun later hlater earlier hearlier r hr hprov => ?_⟩
    exact hprovisional later hlater r hprov (h.past earlier hearlier r hr)
  · rw [hlog] at ho
    rcases List.mem_append.mp ho with ho | ho
    · exact hfinal o ho r hr
    · exact hmono r (h.past o ho r hr)

/-- Nobody touches a server or the log. -/
theorem congr (h : w.Hushed) (hlog : w'.log = w.log) (hinvite : w'.inviteServers = w.inviteServers)
    (hack : w'.ackServers = w.ackServers) : w'.Hushed := by
  have hmono (r : ℕ) (hr : w.Over r) : w'.Over r := by
    unfold Over
    rw [hinvite]
    exact hr
  refine ⟨by rw [hlog]; exact h.ordered, fun o ho r hr => hmono r ?_, hinvite ▸ h.holds,
    fun k t ht => ?_⟩
  · rw [hlog] at ho
    exact h.past o ho r hr
  · rw [hack] at ht
    exact ⟨(h.acks k t ht).1, fun r hr => hmono r ((h.acks k t ht).2 r hr)⟩

/-- Observations that are no responses to an INVITE. -/
theorem observe (h : w.Hushed) {l : List Obs} (hlog : w'.log = l ++ w.log)
    (hl : ∀ o ∈ l, ∀ r, ¬ o.IsProvisional r ∧ ¬ o.IsFinal r)
    (hinvite : w'.inviteServers = w.inviteServers) (hack : w'.ackServers = w.ackServers) :
    w'.Hushed := by
  have hmono (r : ℕ) (hr : w.Over r) : w'.Over r := by
    unfold Over
    rw [hinvite]
    exact hr
  refine h.extend hlog hmono (fun o ho r hr => absurd hr (hl o ho r).1)
    (fun o ho r hr => absurd hr (hl o ho r).2) ?_ (hinvite ▸ h.holds) fun k t ht => ?_
  · exact List.pairwise_of_forall_mem_list fun later _ earlier hearlier r hr =>
      absurd hr (hl earlier hearlier r).2
  · rw [hack] at ht
    exact ⟨(h.acks k t ht).1, fun r hr => hmono r ((h.acks k t ht).2 r hr)⟩

/-- One server changes, and sends at most one response. -/
theorem setInviteServer (h : w.Hushed) {r : ℕ} {t' : InviteTransactionServer}
    {cs : List ProviderCall} (hmono : w.Over r → t'.status.IsPast) (hholds : t'.Holds r)
    (hone : ∀ m m', .sendMessage m ∈ cs → .sendMessage m' ∈ cs → m = m')
    (hprovisional : ∀ m, .sendMessage m ∈ cs → m.code < 200 →
      ¬ w.Over r ∧ (m.passedFor = none ∨ m.passedFor = some r))
    (hfinal : ∀ m, .sendMessage m ∈ cs → 200 ≤ m.code ∧ m.code < 700 → m.passedFor ≠ none →
      m.passedFor = some r ∧ t'.status.IsPast) : (w.setInviteServer r t' cs).Hushed := by
  have hover (s : ℕ) (hs : w.Over s) : (w.setInviteServer r t' cs).Over s := by
    obtain ⟨t, hget, hpast⟩ := hs
    by_cases hsr : s = r
    · subst hsr
      exact ⟨t', Heap.get_put_self .., hmono ⟨t, hget, hpast⟩⟩
    · exact ⟨t, by rw [← hget]; exact Heap.get_put_of_ne _ hsr _, hpast⟩
  refine h.extend (l := SipProvider.sents (.inviteServer r) cs) (SipProvider.log_calls ..) hover
    ?_ ?_ ?_ ?_ ?_
  · intro o ho s hs
    obtain ⟨m, hm, rfl⟩ := SipProvider.mem_sents.mp ho
    obtain ⟨-, hcode, hpassed⟩ := hs
    obtain ⟨hnot, hown⟩ := hprovisional m hm hcode.2
    rcases hpassed with hpassed | ⟨-, hs⟩
    · rcases hown with hown | hown
      · rw [hown] at hpassed
        cases hpassed
      · rw [hown] at hpassed
        exact Option.some.inj hpassed ▸ hnot
    · cases hs
      exact hnot
  · intro o ho s hs
    obtain ⟨m, hm, rfl⟩ := SipProvider.mem_sents.mp ho
    obtain ⟨-, hcode, hpassed⟩ := hs
    obtain ⟨hown, hpast⟩ := hfinal m hm hcode (by rw [hpassed]; exact Option.some_ne_none s)
    rw [hown] at hpassed
    exact ⟨t', by rw [← Option.some.inj hpassed]; exact Heap.get_put_self .., hpast⟩
  · refine List.pairwise_of_forall_mem_list fun later hlater earlier hearlier s hs hprov => ?_
    obtain ⟨m, hm, rfl⟩ := SipProvider.mem_sents.mp hlater
    obtain ⟨m', hm', rfl⟩ := SipProvider.mem_sents.mp hearlier
    have hlt := hprov.2.1.2
    have hle := hs.2.1.1
    rw [hone m m' hm hm'] at hlt
    omega
  · exact Heap.forall_put (P := fun r (t : InviteTransactionServer) => t.Holds r) h.holds hholds
  · exact fun k t ht => ⟨(h.acks k t ht).1, fun s hs => hover s ((h.acks k t ht).2 s hs)⟩

theorem over_iff {r : ℕ} {t : InviteTransactionServer} (hget : w.inviteServers.get r = some t) :
    w.Over r ↔ t.status.IsPast := by
  refine ⟨?_, fun h => ⟨t, hget, h⟩⟩
  rintro ⟨t', hget', h⟩
  rw [hget] at hget'
  cases hget'
  exact h

theorem not_isPast_of_pending {s : TransactionStatus} (h : s.isPending = true) : ¬ s.IsPast := by
  rintro (heq | heq | heq) <;> rw [heq] at h <;> cases h

/-- What is not the response of an invite server or an ACK server. -/
theorem of_spared {o : Obs} (ho : o.IsSpared) (r : ℕ) : ¬ o.IsProvisional r ∧ ¬ o.IsFinal r := by
  cases o with
  | sent a m =>
    obtain ⟨hagent, hunpassed⟩ := ho
    have hnone (hmethod : m.cseqMethod = .invite) (hcode : 100 ≤ m.code) : m.passedFor = none := by
      refine hunpassed ?_ hmethod
      cases hc : m.code? with
      | none =>
        have hzero : m.code = 0 := by simp [SipMessage.code, hc]
        omega
      | some c => simp [SipMessage.isResponse, hc]
    constructor
    · rintro ⟨hmethod, hcode, hpassed | ⟨-, rfl⟩⟩
      · rw [hnone hmethod hcode.1] at hpassed
        cases hpassed
      · exact hagent trivial
    · rintro ⟨hmethod, hcode, hpassed⟩
      rw [hnone hmethod (by omega)] at hpassed
      cases hpassed
  | _ => exact ⟨id, id⟩

/-- A provisional response to a pending server. -/
theorem provisional (h : w.Hushed) {r : ℕ} {t t' : InviteTransactionServer} {resp : SipMessage}
    {cs : List ProviderCall} (hget : w.inviteServers.get r = some t)
    (hpending : t.status.isPending = true) (hcode : 100 ≤ resp.code ∧ resp.code < 200)
    (hpassed : resp.passedFor = some r) (hr : t.Responds resp t' cs) :
    (w.setInviteServer r t' cs).Hushed := by
  have hnot : ¬ w.Over r := fun hover =>
    not_isPast_of_pending hpending ((over_iff hget).mp hover)
  have hstatus : t'.status = .proceeding := by
    rw [hr.status, InviteTransactionServer.responded, if_pos hpending, if_pos hcode]
  refine h.setInviteServer (fun hover => absurd hover hnot) ?_ ?_ ?_ ?_
  · unfold InviteTransactionServer.Holds
    rw [hstatus, hr.response]
    intro resp' hresp
    rw [← Option.some.inj hresp]
    exact ⟨.inr hpassed, by omega⟩
  · intro m m' hm hm'
    rw [(hr.sends m hm).1, (hr.sends m' hm').1]
  · intro m hm _
    rw [(hr.sends m hm).1]
    exact ⟨hnot, .inr hpassed⟩
  · intro m hm hfinal
    rw [(hr.sends m hm).1] at hfinal
    omega

/-- A response to a server that does not send any more. -/
theorem ignored (h : w.Hushed) {r : ℕ} {t t' : InviteTransactionServer} {resp : SipMessage}
    {cs : List ProviderCall} (hstatus : t.status = .confirmed ∨ t.status = .terminated)
    (hr : t.Responds resp t' cs) : (w.setInviteServer r t' cs).Hushed := by
  have hidle : t.status.isPending = false := by rcases hstatus with heq | heq <;> rw [heq] <;> rfl
  have hsame : t'.status = t.status := by
    rw [hr.status, InviteTransactionServer.responded, hidle]
    rfl
  have hnone (m : SipMessage) : .sendMessage m ∉ cs := by
    intro hm
    have hpending := (hr.sends m hm).2
    rw [hidle] at hpending
    cases hpending
  refine h.setInviteServer (fun _ => ?_) ?_ (fun m m' hm => absurd hm (hnone m))
    (fun m hm => absurd hm (hnone m)) fun m hm => absurd hm (hnone m)
  · rw [hsame]
    exact .inr hstatus
  · unfold InviteTransactionServer.Holds
    rw [hsame]
    rcases hstatus with heq | heq <;> rw [heq] <;> trivial

/-- A failure response, or one without a valid code. -/
theorem failure (h : w.Hushed) {r : ℕ} {t t' : InviteTransactionServer} {resp : SipMessage}
    {cs : List ProviderCall} (hget : w.inviteServers.get r = some t)
    (hpending : t.status.isPending = true) (hcode : resp.code < 100 ∨ 300 ≤ resp.code)
    (hpassed : resp.passedFor = some r) (hr : t.Responds resp t' cs) :
    (w.setInviteServer r t' cs).Hushed := by
  have hnot : ¬ w.Over r := fun hover =>
    not_isPast_of_pending hpending ((over_iff hget).mp hover)
  have hresponded := hr.status
  unfold InviteTransactionServer.responded at hresponded
  rw [if_pos hpending, if_neg (by omega), if_neg (by omega)] at hresponded
  refine h.setInviteServer (fun hover => absurd hover hnot) ?_ ?_ ?_ ?_
  · unfold InviteTransactionServer.Holds
    rw [hr.response]
    split at hresponded
    · rw [hresponded]
      intro resp' hresp
      rw [← Option.some.inj hresp]
      exact ⟨hpassed, by omega⟩
    · rw [hresponded]
      cases hs : t.status with
      | trying | proceeding =>
        intro resp' hresp
        rw [← Option.some.inj hresp]
        exact ⟨.inr hpassed, by omega⟩
      | _ =>
        rw [hs] at hpending
        cases hpending
  · intro m m' hm hm'
    rw [(hr.sends m hm).1, (hr.sends m' hm').1]
  · intro m hm _
    rw [(hr.sends m hm).1]
    exact ⟨hnot, .inr hpassed⟩
  · intro m hm hfinal _
    rw [(hr.sends m hm).1] at hfinal ⊢
    rw [if_pos (by omega)] at hresponded
    exact ⟨hpassed, .inl hresponded⟩

/-- A server is terminated. -/
theorem terminates (h : w.Hushed) {r : ℕ} {t t' : InviteTransactionServer}
    {cs : List ProviderCall} (ht : t.Terminates t' cs) : (w.setInviteServer r t' cs).Hushed := by
  refine h.setInviteServer (fun _ => .inr (.inr ht.status)) ?_
    (fun m m' hm => absurd hm (ht.sends m)) (fun m hm => absurd hm (ht.sends m))
    fun m hm => absurd hm (ht.sends m)
  unfold InviteTransactionServer.Holds
  rw [ht.status]
  trivial

/-- A server does something by itself. -/
theorem continues (h : w.Hushed) {r : ℕ} {t t' : InviteTransactionServer}
    {cs : List ProviderCall} (hget : w.inviteServers.get r = some t) (hc : t.Continues t' cs) :
    (w.setInviteServer r t' cs).Hushed := by
  have hholds := h.holds r t hget
  refine h.setInviteServer (fun hover => ?_) ?_ ?_ ?_ ?_
  · have hpast := (over_iff hget).mp hover
    rcases hc.status with ⟨heq, -⟩ | ⟨-, heq | heq⟩
    · rw [heq]
      exact hpast
    · exact .inr (.inl heq)
    · exact .inr (.inr heq)
  · unfold InviteTransactionServer.Holds at hholds ⊢
    rcases hc.status with ⟨heq, -⟩ | ⟨-, heq | heq⟩
    · rw [heq, hc.response]
      exact hholds
    · rw [heq]
      trivial
    · rw [heq]
      trivial
  · intro m m' hm hm'
    exact Option.some.inj ((hc.sends m hm).1.symm.trans (hc.sends m' hm').1)
  · intro m hm hcode
    obtain ⟨hresp, hstatus⟩ := hc.sends m hm
    unfold InviteTransactionServer.Holds at hholds
    rcases hstatus with hstatus | hstatus <;> rw [hstatus] at hholds
    · have hpending : t.status.isPending = true := by rw [hstatus]; rfl
      exact ⟨fun hover => not_isPast_of_pending hpending ((over_iff hget).mp hover),
        (hholds m hresp).1⟩
    · have hle := (hholds m hresp).2
      omega
  · intro m hm hcode _
    obtain ⟨hresp, hstatus⟩ := hc.sends m hm
    unfold InviteTransactionServer.Holds at hholds
    rcases hstatus with hstatus | hstatus <;> rw [hstatus] at hholds
    · exact absurd hcode (hholds m hresp).2
    · refine ⟨(hholds m hresp).1, ?_⟩
      rcases hc.status with ⟨heq, -⟩ | ⟨-, heq | heq⟩
      · rw [heq]
        exact .inl hstatus
      · exact .inr (.inl heq)
      · exact .inr (.inr heq)

/-- A server gets its INVITE. -/
theorem begins (h : w.Hushed) {r : ℕ} {t t' : InviteTransactionServer} {m : SipMessage}
    {cs : List ProviderCall} (hnot : ¬ w.Over r) (hresponse : t.response = none)
    (hb : t.Begins m t' cs) : (w.setInviteServer r t' cs).Hushed := by
  refine h.setInviteServer (fun hover => absurd hover hnot) ?_ ?_ ?_ ?_
  · have hall : ∀ resp ∈ t'.response,
        (resp.passedFor = none ∨ resp.passedFor = some r) ∧
          ¬ (200 ≤ resp.code ∧ resp.code < 700) := by
      intro resp hresp
      rcases hb.response with heq | ⟨resp', heq, hcode, hpassed⟩
      · rw [heq, hresponse] at hresp
        cases hresp
      · rw [heq] at hresp
        cases Option.some.inj hresp
        exact ⟨.inl hpassed, by omega⟩
    unfold InviteTransactionServer.Holds
    rcases hb.status with heq | heq <;> rw [heq] <;> exact hall
  · intro m m' hm hm'
    exact Option.some.inj ((hb.sends m hm).1.symm.trans (hb.sends m' hm').1)
  · exact fun m hm _ => ⟨hnot, .inl (hb.sends m hm).2.2⟩
  · intro m hm hcode
    have h100 := (hb.sends m hm).2.1
    omega

/-- There is a new server that has sent nothing. -/
theorem new (h : w.Hushed) {t : InviteTransactionServer} (ht : t.Holds w.inviteServers.next) :
    World.Hushed { w with inviteServers := w.inviteServers.new t } := by
  have hover (r : ℕ) (hr : w.Over r) : World.Over { w with inviteServers := w.inviteServers.new t } r := by
    obtain ⟨t', hget, hpast⟩ := hr
    exact ⟨t', Heap.get_new_of_get hget t, hpast⟩
  exact ⟨h.ordered, fun o ho r hr => hover r (h.past o ho r hr),
    Heap.forall_new (P := fun r (t : InviteTransactionServer) => t.Holds r) h.holds ht,
    fun k t ht => ⟨(h.acks k t ht).1, fun r hr => hover r ((h.acks k t ht).2 r hr)⟩⟩

/-- A new INVITE gets a new server. -/
theorem opened (h : w.Hushed) (m : SipMessage) : (w.opened S m).Hushed := by
  set w₁ := (((w.changeStatus (if w.status = .init then .invited else .reInvited)).setInviteReq
    m).updateDialogInfo false m).setInviteTs w.inviteServers.next with hw₁
  have h₁ : w₁.Hushed := by
    refine h.congr ?_ rfl rfl
    exact (log_updateDialogInfo ..).trans (log_changeStatus w _)
  have hnew : World.Hushed { w₁ with
      inviteServers := w₁.inviteServers.new (.ofInvite S m true) } := by
    refine h₁.new ?_
    exact fun _ hresp => nomatch hresp
  have hbegins := hnew.begins (r := w₁.inviteServers.next)
    (fun hover => not_isPast_of_pending rfl ((over_iff (Heap.get_new_self ..)).mp hover)) rfl
    (InviteTransactionServer.begins_new S m true)
  have hopened : w.opened S m = World.setInviteServer { w₁ with
      inviteServers := w₁.inviteServers.new (.ofInvite S m true) } w₁.inviteServers.next
      (InviteTransactionServer.new S m true).1 (InviteTransactionServer.new S m true).2 :=
    World.startInviteServer_eq S w₁ m
  rw [hopened]
  exact hbegins

/-- A dialog starts to listen. -/
theorem listen (h : w.Hushed) (hw : w.status = .init) : (w.listen S).Hushed := by
  have h₁ : World.Hushed ((w.changeStatus .waiting).setInviteTs w.inviteServers.next) :=
    h.congr (log_changeStatus w .waiting) rfl rfl
  have h₂ : World.Hushed { (w.changeStatus .waiting).setInviteTs w.inviteServers.next with
      inviteServers := w.inviteServers.new (.newListening S true) } :=
    h₁.new (t := .newListening S true) rfl
  unfold World.listen
  rw [if_pos hw]
  dsimp only
  rw [onInviteServer_of_get (Heap.get_new_self ..)]
  refine h₂.setInviteServer (fun hover => ?_) rfl ?_ ?_ ?_
  · exact absurd ((over_iff (Heap.get_new_self ..)).mp hover) (by
      rintro (heq | heq | heq) <;> cases heq)
  · exact fun m m' hm => by simp [InviteTransactionServer.listen, InviteTransactionServer.newListening] at hm
  · exact fun m hm => by simp [InviteTransactionServer.listen, InviteTransactionServer.newListening] at hm
  · exact fun m hm => by simp [InviteTransactionServer.listen, InviteTransactionServer.newListening] at hm

/-- An ACK server sends its 2xx. -/
theorem setAckServer (h : w.Hushed) {k : ℕ} {t t' : AckTransactionServer}
    {cs : List ProviderCall} (hget : w.ackServers.get k = some t) (hk : t.Continues t' cs) :
    (w.setAckServer k t' cs).Hushed := by
  obtain ⟨hcode, hpassed⟩ := h.acks k t hget
  refine h.extend (l := SipProvider.sents (.ackServer k) cs) (SipProvider.log_calls ..)
    (fun _ hr => hr) ?_ ?_ ?_ h.holds ?_
  · intro o ho r hr
    obtain ⟨m, hm, rfl⟩ := SipProvider.mem_sents.mp ho
    have hlt := hr.2.1.2
    rw [hk.sends m hm] at hlt
    omega
  · intro o ho r hr
    obtain ⟨m, hm, rfl⟩ := SipProvider.mem_sents.mp ho
    refine hpassed r ?_
    rw [← hk.sends m hm]
    exact hr.2.2
  · refine List.pairwise_of_forall_mem_list fun later hlater earlier _ r _ hprov => ?_
    obtain ⟨m, hm, rfl⟩ := SipProvider.mem_sents.mp hlater
    have hlt := hprov.2.1.2
    rw [hk.sends m hm] at hlt
    omega
  · refine Heap.forall_put (P := fun _ (t : AckTransactionServer) => 200 ≤ t.response.code ∧
      ∀ r, t.response.passedFor = some r → w.Over r) h.acks ?_
    rw [hk.response]
    exact ⟨hcode, hpassed⟩

/-- A 2xx is sent by a new ACK server. -/
theorem startDialogAckServer (h : w.Hushed) {r : ℕ} {conn : Option ConnectionId}
    {invite : SipMessage} {p : DialogInfo × SipMessage}
    (hover : (w.startDialogAckServer conn invite p).Over r)
    (hcode : 200 ≤ p.2.code ∧ p.2.code < 300) (hpassed : p.2.passedFor = some r) :
    (w.startDialogAckServer conn invite p).Hushed := by
  have hresp : 200 ≤ ({ p.2 with connectionId := conn } : SipMessage).code := hcode.1
  refine h.extend (l := [.sent (.ackServer w.ackServers.next) { p.2 with connectionId := conn }])
    ?_ (fun _ hr => hr) ?_ ?_ (List.pairwise_singleton ..) h.holds ?_
  · exact SipProvider.log_calls ..
  · intro o ho s hs
    rw [List.mem_singleton.mp ho] at hs
    have hlt := hs.2.1.2
    omega
  · intro o ho s hs
    rw [List.mem_singleton.mp ho] at hs
    rw [← Option.some.inj (hpassed.symm.trans hs.2.2)]
    exact hover
  · refine Heap.forall_new (P := fun _ (t : AckTransactionServer) => 200 ≤ t.response.code ∧
      ∀ s, t.response.passedFor = some s → w.Over s) h.acks ⟨hresp, fun s hs => ?_⟩
    rw [← Option.some.inj (hpassed.symm.trans hs)]
    exact hover

end Hushed

/-- **Every piece keeps it**, if the responder hands no response to the wrong server. -/
theorem Attends.hushed {heap : Heap InviteTransactionServer} {H : List (ℕ × SipMessage)}
    (hH : ∀ p ∈ H, InPlace heap p) {w w' : World} (ha : Attends S heap H w w') (hw : w.Posted)
    (h : w.Hushed) : w'.Hushed := by
  have hpends (hinvited : w.status.IsInvited) {r : ℕ} (hts : w.dlg.inviteTs = some r)
      {t : InviteTransactionServer} (hget : w.inviteServers.get r = some t) :
      t.status.isPending = true := by
    obtain ⟨s, u, invite, hts', hu, -, hpends⟩ := hw.invited hinvited
    rw [hts] at hts'
    cases hts'
    rw [hget] at hu
    cases hu
    exact hpends.status
  have hlistening {r : ℕ} {t : InviteTransactionServer} (hget : w.inviteServers.get r = some t)
      (hwaiting : t.status = .waiting) : ¬ w.Over r ∧ t.response = none := by
    have hholds := h.holds r t hget
    unfold InviteTransactionServer.Holds at hholds
    rw [hwaiting] at hholds
    refine ⟨fun hover => ?_, hholds⟩
    rcases (Hushed.over_iff hget).mp hover with heq | heq | heq <;> rw [hwaiting] at heq <;>
      cases heq
  have hstatus (s : Status) : (w.changeStatus s).Hushed :=
    h.congr (log_changeStatus w s) rfl rfl
  cases ha with
  | spares hs =>
    obtain ⟨l, hlog, hl⟩ := hs.log
    exact h.observe hlog (fun o ho r => Hushed.of_spared (hl o ho) r) hs.inviteServers hs.ackServers
  | takes m =>
    exact h.observe (l := [.processed m]) rfl (by simp [Obs.IsProvisional, Obs.IsFinal]) rfl rfl
  | opens m => exact h.opened m
  | startsCancel hinvited r m => exact h.congr rfl rfl rfl
  | goesOn hrr hts hresp => exact h.congr rfl rfl rfl
  | queues hinvited hts hrr hcode hmethod hpassed => exact h.congr rfl rfl rfl
  | @hands rr t t' cs resp hrr hresp hheap hmem hget hr =>
    have hplace := hH _ hmem t (hheap ▸ hget)
    rcases hplace with hidle | hidle | ⟨hpending, hpassed⟩
    · exact h.ignored (.inl hidle) hr
    · exact h.ignored (.inr hidle) hr
    · have hcode : 100 ≤ ({ resp with connectionId := t.connectionId } : SipMessage).code ∧
          ({ resp with connectionId := t.connectionId } : SipMessage).code < 200 :=
        (hw.queued rr hrr resp hresp).1
      exact h.provisional hget hpending hcode hpassed hr
  | rings hinvited hts hget hcode hpassed hr =>
    exact h.provisional hget (hpends hinvited hts hget) hcode hpassed hr
  | fails hinvited hts hget hcode hpassed hr =>
    exact (hstatus _).failure hget (hpends hinvited hts hget) hcode hpassed hr
  | @succeeds r t t' cs invite conn p hinvited hts hget hreq hcode hpassed ht =>
    have hterm := (hstatus (if w.status = .invited then .accepted else .reAccepted)).terminates
      (r := r) ht
    have hover : World.Over (((w.changeStatus (if w.status = .invited then .accepted else
        .reAccepted)).setInviteServer r t' cs).terminateResponder.startDialogAckServer conn invite p)
        r := ⟨t', Heap.get_put_self .., .inr (.inr ht.status)⟩
    have hsame : World.Hushed (((w.changeStatus (if w.status = .invited then .accepted else
        .reAccepted)).setInviteServer r t' cs).terminateResponder) := hterm.congr rfl rfl rfl
    exact hsame.startDialogAckServer hover hcode hpassed
  | continues hget hc => exact h.continues hget hc
  | begins hget hwaiting hb =>
    exact h.begins (hlistening hget hwaiting).1 (hlistening hget hwaiting).2 hb
  | accepts hwaiting hget hp =>
    exact h.congr ((log_updateDialogInfo ..).trans (log_changeStatus w .invited)) rfl rfl
  | @misled r t t' t'' m resp cs cs' hget hwaiting hb hcode hpassed hr =>
    have hpending : t'.status.isPending = true := by
      rcases hb.status with heq | heq <;> rw [heq] <;> rfl
    have hover : t''.status = .terminated := by
      rw [hr.status, InviteTransactionServer.responded, if_pos hpending, if_neg (by omega),
        if_pos (by omega)]
    have hbegun := h.begins (hlistening hget hwaiting).1 (hlistening hget hwaiting).2 hb
    refine hbegun.setInviteServer (fun _ => .inr (.inr hover)) ?_ ?_ ?_ ?_
    · unfold InviteTransactionServer.Holds
      rw [hover]
      trivial
    · intro m m' hm hm'
      rw [(hr.sends m hm).1, (hr.sends m' hm').1]
    · intro m hm hlt
      rw [(hr.sends m hm).1] at hlt
      omega
    · intro m hm _ hne
      rw [(hr.sends m hm).1] at hne
      exact absurd hpassed hne
  | listens hinit => exact h.listen hinit
  | ends hidle hget ht => exact h.terminates ht
  | forgets hclose => exact h.congr rfl rfl rfl
  | acks hget hk => exact h.setAckServer hget hk

theorem hushed_init (S : SipStack) : (World.init S).Hushed :=
  ⟨.nil, fun _ ho => absurd ho List.not_mem_nil, fun _ _ ht => (nomatch ht), fun _ _ ht => nomatch ht⟩

/-- A chain of pieces keeps it. -/
theorem Attended.hushed {heap : Heap InviteTransactionServer} {H : List (ℕ × SipMessage)}
    (hH : ∀ p ∈ H, InPlace heap p) {w w' : World} (ha : Attended S heap H w w') (hw : w.Posted)
    (h : w.Hushed) : w'.Posted ∧ w'.Hushed :=
  ha.induction (I := fun w => w.Posted ∧ w.Hushed)
    (fun _ _ hstep hI => ⟨hstep.posted hI.1, hstep.hushed hH hI.1 hI.2⟩) ⟨hw, h⟩

theorem Start.hushed {w : World} (hw : Start S w) : w.Posted ∧ w.Hushed :=
  hw.attended.hushed (fun _ hp => (List.not_mem_nil hp).elim) (posted_init S) (hushed_init S)

theorem hushed_step {w : World} {e : Event} (he : HandsInPlace S w e) (h : w.Posted ∧ w.Hushed) :
    (w.step S e).Posted ∧ (w.step S e).Hushed :=
  (attended_step h.1 e).hushed he h.1 h.2

/-! ## The final response is sent at once -/

/-- The log only grows. -/
theorem Attends.log {heap : Heap InviteTransactionServer} {H : List (ℕ × SipMessage)}
    {w w' : World} (ha : Attends S heap H w w') : w.log <:+ w'.log := by
  have hcalls (w : World) (a : Agent) (cs : List ProviderCall) :
      w.log <:+ (w.provider.calls a cs).log := SipProvider.suffix_calls ..
  have hstatus (w : World) (s : Status) : (w.changeStatus s).log = w.log := log_changeStatus w s
  have hupdate (w : World) (m : SipMessage) : (w.updateDialogInfo false m).log = w.log :=
    log_updateDialogInfo ..
  cases ha with
  | spares hs =>
    obtain ⟨l, hlog, -⟩ := hs.log
    exact ⟨l, hlog.symm⟩
  | takes m => exact List.suffix_cons ..
  | opens m =>
    have hbefore : ((((w.changeStatus (if w.status = .init then .invited else .reInvited)).setInviteReq
        m).updateDialogInfo false m).setInviteTs w.inviteServers.next).log = w.log :=
      (hupdate _ m).trans (hstatus w _)
    rw [← hbefore]
    exact hcalls ..
  | startsCancel hinvited r m => exact hcalls ..
  | goesOn hrr hts hresp => exact List.suffix_refl _
  | queues hinvited hts hrr hcode hmethod hpassed => exact List.suffix_refl _
  | hands hrr hresp hheap hmem hget hr => exact hcalls ..
  | rings hinvited hts hget hcode hpassed hr => exact hcalls ..
  | fails hinvited hts hget hcode hpassed hr =>
    rw [← hstatus w (if w.status = .invited then .refused else .reRefused)]
    exact hcalls ..
  | @succeeds r t t' cs invite conn p hinvited hts hget hreq hcode hpassed ht =>
    rw [← hstatus w (if w.status = .invited then .accepted else .reAccepted)]
    exact (hcalls _ (.inviteServer r) cs).trans (SipProvider.suffix_calls ..)
  | continues hget hc => exact hcalls ..
  | begins hget hwaiting hb => exact hcalls ..
  | accepts hwaiting hget hp => exact ((hupdate _ _).trans (hstatus w _)) ▸ List.suffix_refl _
  | @misled r t t' t'' m resp cs cs' hget hwaiting hb hcode hpassed hr =>
    exact (hcalls w (.inviteServer r) cs).trans (SipProvider.suffix_calls ..)
  | listens hinit =>
    unfold World.listen
    rw [if_pos hinit, ← hstatus w .waiting]
    exact hcalls ..
  | ends hidle hget ht => exact hcalls ..
  | forgets hclose => exact List.suffix_refl _
  | acks hget hk => exact hcalls ..

theorem Attended.log {heap : Heap InviteTransactionServer} {H : List (ℕ × SipMessage)}
    {w w' : World} (ha : Attended S heap H w w') : w.log <:+ w'.log :=
  ha.induction (I := fun w' => w.log <:+ w'.log) (fun _ _ hstep hI => hI.trans hstep.log)
    (List.suffix_refl _)

theorem log_run {w : World} (h : w.Posted) (es : List Event) :
    w.log <:+ (run (step S) w es).log := by
  have hstep : ∀ w' e, w'.Posted ∧ w.log <:+ w'.log →
      (step S w' e).Posted ∧ w.log <:+ (step S w' e).log := fun w' e hI =>
    ⟨posted_step hI.1 e, hI.2.trans (attended_step hI.1 e).log⟩
  have hrun := run_invariant hstep es ⟨h, List.suffix_refl _⟩
  exact hrun.2

/-- A final response is sent at once when it is passed to `respond`. -/
theorem final_of_respond {w : World} (h : w.Posted) (hw : w.status.IsInvited) {r : ℕ}
    (hts : w.dlg.inviteTs = some r) {resp : SipMessage}
    (hmethod : resp.getTransactionMethod = .invite) (hcode : 200 ≤ resp.code ∧ resp.code < 700) :
    ∃ l o, (w.respond S resp).log = l ++ w.log ∧ o ∈ l ∧ o.IsFinal r ∧
      ∀ o ∈ l, ∀ r, ¬ o.IsProvisional r := by
  have hfinal {m : SipMessage} (a : Agent) (hm : m.cseqMethod = .invite)
      (hmcode : 200 ≤ m.code ∧ m.code < 700) (hpassed : m.passedFor = some r) :
      (Obs.sent a m).IsFinal r ∧ ∀ r, ¬ (Obs.sent a m).IsProvisional r :=
    ⟨⟨hm, hmcode, hpassed⟩, fun r hr => by
      have hlt := hr.2.1.2
      omega⟩
  obtain ⟨r', t, invite, hts', hget, hreq, hpends⟩ := h.invited hw
  rw [hts] at hts'
  cases hts'
  rw [respond_of_invite w hmethod]
  unfold respondInvite
  rw [if_pos hw]
  extract_lets resp₁ w₁
  have hcode₁ : 200 ≤ resp₁.code ∧ resp₁.code < 700 := hcode
  have hw₁ : w₁ = w.updateDialogInfo false resp₁ := if_pos hcode₁.1
  have hlog₁ : w₁.log = w.log := by rw [hw₁, log_updateDialogInfo]
  have hts₁ : w₁.dlg.inviteTs = some r := by
    rw [hw₁]
    exact hts
  have hget₁ : w₁.inviteServers.get r = some t := by
    rw [hw₁]
    exact hget
  have hreq₁ : w₁.dlg.inviteReq = some invite := by
    rw [hw₁]
    exact hreq
  rw [if_neg (by omega)]
  split
  · next hsuccess =>
    obtain ⟨hc, hm, hpassed⟩ := w₁.addSupported_spec resp₁
    unfold respondSuccess
    extract_lets w₂ conn w₃
    have hlog₃ : w₃.log = w.log := by
      have hterm := t.terminates_terminate
      have hw₃ : w₃ = (w₂.setInviteServer r t.terminate.1 t.terminate.2).terminateResponder := by
        unfold w₃
        rw [show w₂.dlg.inviteTs = some r from hts₁,
          onInviteServer_of_get (show w₂.inviteServers.get r = some t from hget₁)]
      have hnone : SipProvider.sents (.inviteServer r) t.terminate.2 = [] := by
        refine List.eq_nil_iff_forall_not_mem.mpr fun o ho => ?_
        obtain ⟨m, hm, -⟩ := SipProvider.mem_sents.mp ho
        exact hterm.sends m hm
      rw [hw₃]
      refine (SipProvider.log_calls w₂.provider (.inviteServer r) t.terminate.2).trans ?_
      rw [hnone, List.nil_append]
      exact (log_changeStatus w₁ _).trans hlog₁
    have hreq₃ : w₃.dlg.inviteReq = some invite := hreq₁
    rw [hreq₃]
    set p := sessionTimers S w₃.dlg.info invite (w₁.addSupported resp₁) with hp
    obtain ⟨hpc, hpm, hpp⟩ : p.2.code = resp₁.code ∧ p.2.cseqMethod = resp₁.cseqMethod ∧
        p.2.passedFor = resp₁.passedFor := by
      have hspec := sessionTimers_spec (S := S) w₃.dlg.info invite (w₁.addSupported resp₁)
      exact ⟨hspec.1.trans hc, hspec.2.1.trans hm, hspec.2.2.trans hpassed⟩
    obtain ⟨hfin, hprov⟩ := hfinal (m := { p.2 with connectionId := conn })
      (.ackServer w₃.ackServers.next) (hpm.trans hmethod)
      (show 200 ≤ p.2.code ∧ p.2.code < 700 by rw [hpc]; exact hcode₁) (hpp.trans hts)
    refine ⟨_, _, ?_, List.mem_singleton_self _, hfin, ?_⟩
    · rw [← hlog₃]
      exact SipProvider.log_calls ..
    · intro o ho
      rw [List.mem_singleton.mp ho]
      exact hprov
  · next hfailure =>
    unfold respondFailure
    have hget₂ : (w₁.changeStatus (if w₁.status = .invited then .refused else .reRefused)).inviteServers.get r =
        some t := hget₁
    rw [hts₁, onInviteServer_of_get hget₂]
    have hr := t.responds_respondWith resp₁
    obtain ⟨hfin, hprov⟩ := hfinal (m := { resp₁ with connectionId := t.connectionId })
      (.inviteServer r) hmethod hcode₁ hts
    refine ⟨SipProvider.sents (.inviteServer r) (t.respondWith resp₁).2, _, ?_,
      SipProvider.mem_sents.mpr ⟨_, hr.sent hpends.status, rfl⟩, hfin, ?_⟩
    · rw [← hlog₁, ← log_changeStatus w₁ (if w₁.status = .invited then .refused else .reRefused)]
      exact SipProvider.log_calls ..
    · intro o ho
      obtain ⟨m, hm, rfl⟩ := SipProvider.mem_sents.mp ho
      rw [(hr.sends m hm).1]
      exact hprov

/-! ## A run -/

/-- The user passes a final response to the pending INVITE, whose server is `r`. -/
def PassesFinal (S : SipStack) (w : World) (a : Api) (r : ℕ) : Prop :=
  w.AtUser ∧ w.status.IsInvited ∧ w.dlg.inviteTs = some r ∧
    ∃ resp ∈ w.passed S a, resp.getTransactionMethod = .invite ∧ 200 ≤ resp.code ∧ resp.code < 700

theorem step_of_passed {w : World} {a : Api} (huser : w.AtUser) {resp : SipMessage}
    (h : w.passed S a = some resp) : w.step S (.api a) = w.respond S resp := by
  have hstep : w.step S (.api a) = w.call S a := if_pos huser
  have hcode {code : ℤ} {contact : Option NameAddress} {contentType body : Option String}
      (h : w.codeResponse S code contact contentType body = some resp) :
      w.respondCode S code contact contentType body = w.respond S resp := by
    rw [respondCode_eq, h]
  rw [hstep]
  cases a with
  | ring | accept | refuse | refuseWith | redirect | respond => exact hcode h
  | respondMessage m =>
    cases h
    rfl
  | _ => cases h

/-- **Silence after the final response.**  If the responder hands over only what is in place,
no provisional response to an INVITE comes after a final one; and once the user has passed a
final response, no provisional response goes out any more. -/
theorem silent_after_final {w₀ : World} (h : Start S w₀) {es : List Event}
    (hes : Meets (step S) (HandsInPlace S) w₀ es) :
    ((run (step S) w₀ es).log.Pairwise fun later earlier =>
      ∀ r, earlier.IsFinal r → ¬ later.IsProvisional r) ∧
    ∀ es₁ a es₂ r, es = es₁ ++ .api a :: es₂ → (run (step S) w₀ es₁).PassesFinal S a r →
      ∃ l, (run (step S) w₀ es).log = l ++ (run (step S) w₀ es₁).log ∧
        ∀ o ∈ l, ¬ o.IsProvisional r := by
  obtain ⟨-, hhushed⟩ := run_invariant_of_meets (I := fun w : World => w.Posted ∧ w.Hushed)
    (fun _ _ he hI => hushed_step he hI) hes h.hushed
  refine ⟨hhushed.ordered, ?_⟩
  rintro es₁ a es₂ r heq ⟨huser, hinvited, hts, resp, hpassed, hmethod, hcode⟩
  have hposted : (run (step S) w₀ es₁).Posted :=
    run_invariant (I := Posted) (fun _ e hI => posted_step hI e) es₁ h.posted
  have hstep := step_of_passed huser hpassed
  obtain ⟨l, o, hlog, ho, hfinal, hnone⟩ := final_of_respond hposted hinvited hts hmethod hcode
  have hrun : run (step S) w₀ es = run (step S) ((run (step S) w₀ es₁).step S (.api a)) es₂ := by
    rw [heq, run_append]
    rfl
  obtain ⟨l', hl'⟩ := log_run (posted_step hposted (.api a)) es₂ (S := S)
  rw [← hrun, hstep, hlog] at hl'
  refine ⟨l' ++ l, by rw [← hl', List.append_assoc], fun o' ho' => ?_⟩
  have hordered := hhushed.ordered
  rw [← hl'] at hordered
  rcases List.mem_append.mp ho' with ho' | ho'
  · exact (List.pairwise_append.mp hordered).2.2 o' ho' o (List.mem_append_left _ ho) r hfinal
  · exact hnone o' ho' r

/-- Alice's INVITE, when she wants reliable provisional responses. -/
def sampleReliableInvite : Request .invite :=
  ⟨{ sampleRequest .invite 1 none "1" with requireTags := some [otag100rel] }, rfl, rfl⟩

/-- Bob rings, alice acknowledges that, and bob refuses. -/
def sampleRefused : List Event :=
  [.ret, .api .ring, .recv { sampleRequest .prack 2 (some "tag") "2" with rack := some ⟨1, 1, .invite⟩ },
    .ret, .ret, .api .refuse]

theorem silent_after_final_refused :
    ((run (step {}) (ofInvite {} sampleReliableInvite.1) sampleRefused).log.Pairwise
      fun later earlier => ∀ r, earlier.IsFinal r → ¬ later.IsProvisional r) ∧
    ∀ es₁ a es₂ r, sampleRefused = es₁ ++ .api a :: es₂ →
      (run (step {}) (ofInvite {} sampleReliableInvite.1) es₁).PassesFinal {} a r →
      ∃ l, (run (step {}) (ofInvite {} sampleReliableInvite.1) sampleRefused).log =
          l ++ (run (step {}) (ofInvite {} sampleReliableInvite.1) es₁).log ∧
        ∀ o ∈ l, ¬ o.IsProvisional r :=
  silent_after_final (.ofInvite sampleReliableInvite) (by decide +kernel)

/-- Bob rings and refuses before alice acknowledges that.  The timer of the responder expires,
and then the one of the server. -/
def sampleLate : List Event :=
  [.ret, .api .ring, .api .refuse, .responderTimeout .retransmission,
    .timeout (.inviteServer 0) .retransmission]

/-- **The 180 is sent after the 486.** -/
theorem provisional_after_final :
    (run (step {}) (ofInvite {} sampleReliableInvite.1) (sampleLate.take 2)).PassesFinal {} .refuse 0 ∧
    ∃ provisional final rest,
      (run (step {}) (ofInvite {} sampleReliableInvite.1) sampleLate).log =
        provisional :: final :: rest ∧ final.IsFinal 0 ∧ provisional.IsProvisional 0 := by
  refine ⟨⟨by decide +kernel, by decide +kernel, by decide +kernel, ?_⟩, ?_⟩
  · exact ⟨createResponse {} sampleReliableInvite.1 486 none, by decide +kernel, by decide +kernel⟩
  · have hsent : ∀ l, l = (run (step {}) (ofInvite {} sampleReliableInvite.1) sampleLate).log →
        (∃ o ∈ l[0]?, o.IsProvisional 0) → (∃ o ∈ l[1]?, o.IsFinal 0) →
        ∃ provisional final rest, l = provisional :: final :: rest ∧ final.IsFinal 0 ∧
          provisional.IsProvisional 0 := by
      rintro l - ⟨o, ho, hprovisional⟩ ⟨o', ho', hfinal⟩
      obtain _ | ⟨_, _ | ⟨_, rest⟩⟩ := l
      · cases ho
      · cases ho'
      · cases ho
        cases ho'
        exact ⟨_, _, rest, rfl, hfinal, hprovisional⟩
    exact hsent _ rfl (by decide +kernel) (by decide +kernel)

end World
end SoftPhone
