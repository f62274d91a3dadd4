import SoftPhone.Dialog.AfterFinal

/-!
# Each response by its own server

A response that the user passes for an INVITE should be sent by the server transaction of that
INVITE, a 2xx by the ACK server made for it, and it should be sent again for retransmissions of
that INVITE only.

The dialog itself uses the server of the INVITE that is pending.  The reliable responder stays
with the server that it was made for, and it gets the responses to later INVITEs as well.  So
the condition (`HandsOwn`) is about what it hands over: the response was passed for the INVITE
of its server, or that server does not send any more.
-/

namespace SoftPhone

open Machine

/-- A response that was passed to `respond` for the INVITE of the server `r`. -/
def SipMessage.IsFor (m : SipMessage) (r : ℕ) : Prop :=
  m.isResponse = true ∧ m.cseqMethod = .invite ∧ m.passedFor = some r

instance (m : SipMessage) (r : ℕ) : Decidable (m.IsFor r) :=
  inferInstanceAs (Decidable (_ ∧ _ ∧ _))

/-! ## One server -/

namespace InviteTransactionServer

/-- The response was passed for the INVITE of the server `r`, or made by the server. -/
def Owns (r : ℕ) (resp : SipMessage) : Prop := resp.passedFor = none ∨ resp.passedFor = some r

/-- The server `r` is registered under its INVITE, and what it may send again is its own. -/
structure Minds (t : InviteTransactionServer) (r : ℕ) : Prop where
  listening : t.status = .idle ∨ t.status = .waiting →
    t.request = none ∧ t.transactionId = .method .invite
  unasked : t.request = none → t.status = .idle ∨ t.status = .waiting ∨ t.status = .terminated
  asked : ∀ invite, t.request = some invite → t.transactionId = .transactionServer invite
  holds : t.status = .confirmed ∨ t.status = .terminated ∨ ∀ resp ∈ t.response, Owns r resp

variable {t t' : InviteTransactionServer} {r : ℕ} {cs : List ProviderCall}

theorem Minds.continues (h : t.Minds r) (hc : t.Continues t' cs) : t'.Minds r := by
  have hcases : t'.status = t.status ∨ (t.status = .completed ∨ t.status = .confirmed) ∧
      (t'.status = .confirmed ∨ t'.status = .terminated) := hc.status.imp And.left id
  refine ⟨fun hs => ?_, fun hr => ?_, fun invite hinvite => ?_, ?_⟩
  · rw [hc.request, hc.transactionId]
    rcases hcases with heq | ⟨-, heq | heq⟩
    · exact h.listening (heq ▸ hs)
    · rw [heq] at hs
      rcases hs with hs | hs <;> cases hs
    · rw [heq] at hs
      rcases hs with hs | hs <;> cases hs
  · have hunasked := h.unasked (hc.request ▸ hr)
    rcases hcases with heq | ⟨hpast, -⟩
    · rw [heq]
      exact hunasked
    · rcases hpast with hpast | hpast <;> rw [hpast] at hunasked <;> simp at hunasked
  · rw [hc.transactionId]
    exact h.asked invite (hc.request ▸ hinvite)
  · rcases hcases with heq | ⟨-, heq | heq⟩
    · rw [heq, hc.response]
      exact h.holds
    · exact .inl heq
    · exact .inr (.inl heq)

theorem Minds.terminates (h : t.Minds r) (ht : t.Terminates t' cs) : t'.Minds r := by
  refine ⟨fun hs => ?_, fun _ => .inr (.inr ht.status), fun invite hinvite => ?_,
    .inr (.inl ht.status)⟩
  · rw [ht.status] at hs
    rcases hs with hs | hs <;> cases hs
  · rw [ht.transactionId]
    exact h.asked invite (ht.request ▸ hinvite)

/-- `respondWith` changes the state of a pending server only. -/
theorem responded_cases (s : TransactionStatus) (code : ℤ) :
    responded s code = s ∨ s.isPending = true ∧ responded s code ≠ .idle ∧
      responded s code ≠ .waiting := by
  unfold responded
  split
  · next hpending =>
    refine .inr ⟨hpending, ?_⟩
    split
    · decide
    · split
      · decide
      · split
        · decide
        · cases s with
          | trying | proceeding => decide
          | _ => cases hpending
  · exact .inl rfl

theorem Minds.responds (h : t.Minds r) {resp : SipMessage} (hr : t.Responds resp t' cs)
    (hown : t.status = .confirmed ∨ t.status = .terminated ∨ Owns r resp) : t'.Minds r := by
  have hcases := responded_cases t.status resp.code
  rw [← hr.status] at hcases
  refine ⟨fun hs => ?_, fun hnone => ?_, fun invite hinvite => ?_, ?_⟩
  · rw [hr.request, hr.transactionId]
    rcases hcases with heq | ⟨-, hidle, hwaiting⟩
    · exact h.listening (heq ▸ hs)
    · exact (hs.elim hidle hwaiting).elim
  · have hunasked := h.unasked (hr.request ▸ hnone)
    rcases hcases with heq | ⟨hpending, -⟩
    · rw [heq]
      exact hunasked
    · rcases hunasked with heq | heq | heq <;> rw [heq] at hpending <;> cases hpending
  · rw [hr.transactionId]
    exact h.asked invite (hr.request ▸ hinvite)
  · rcases hown with hstatus | hstatus | hown
    · left
      rw [hr.status, hstatus]
      rfl
    · right; left
      rw [hr.status, hstatus]
      rfl
    · right; right
      rw [hr.response]
      intro resp' hresp
      rw [← Option.some.inj hresp]
      exact hown

theorem Minds.begins {invite : SipMessage} (h : ∀ resp ∈ t.response, Owns r resp)
    (hb : t.Begins invite t' cs) : t'.Minds r := by
  refine ⟨fun hs => ?_, fun hnone => ?_, fun _ hinvite => ?_, .inr (.inr ?_)⟩
  · rcases hb.status with heq | heq <;> rw [heq] at hs <;> rcases hs with hs | hs <;> cases hs
  · rw [hb.request] at hnone
    cases hnone
  · rw [hb.transactionId]
    exact congrArg _ (Option.some.inj (hb.request.symm.trans hinvite))
  · intro resp hresp
    rcases hb.response with heq | ⟨resp', heq, -, hpassed⟩
    · exact h resp (heq ▸ hresp)
    · rw [heq] at hresp
      rw [← Option.some.inj hresp]
      exact .inl hpassed

end InviteTransactionServer

/-! ## The table of the provider -/

namespace SipProvider

/-- Who is registered after some calls of `a` has asked for it in them, or was there before. -/
theorem added_of_listener {p : SipProvider} {a : Agent} {cs : List ProviderCall} {id : SipId}
    (h : (p.calls a cs).sipListeners id = some a) :
    .addSelectiveListener id ∈ cs ∨
      p.sipListeners id = some a ∧ .removeSelectiveListener id ∉ cs := by
  unfold calls at h
  induction cs generalizing p with
  | nil => exact .inr ⟨h, List.not_mem_nil⟩
  | cons c cs ih =>
    rcases ih h with hadded | ⟨hbefore, hkept⟩
    · exact .inl (List.mem_cons_of_mem c hadded)
    · cases c with
      | sendMessage m => exact .inr ⟨hbefore, by simpa using hkept⟩
      | addSelectiveListener id' =>
        by_cases hid : id = id'
        · exact .inl (by simp [hid])
        · refine .inr ⟨?_, by simpa using hkept⟩
          simpa [call, Function.update_of_ne hid] using hbefore
      | removeSelectiveListener id' =>
        by_cases hid : id = id'
        · rw [hid] at hbefore
          simp [call] at hbefore
        · refine .inr ⟨?_, by simpa [hid] using hkept⟩
          simpa [call, Function.update_of_ne hid] using hbefore

end SipProvider

namespace World

variable {S : SipStack}

/-- The server `r` was made for this INVITE. -/
def HasInvite (w : World) (r : ℕ) (invite : SipMessage) : Prop :=
  ∃ t, w.inviteServers.get r = some t ∧ t.request = some invite

/-- The ACK server `k` was made for the INVITE of the server `r`. -/
def AcksFor (w : World) (k r : ℕ) : Prop :=
  ∃ u invite, w.ackServers.get k = some u ∧ w.HasInvite r invite ∧
    u.transactionId = .transactionServer invite

/-- The transaction was made for the INVITE of the server `r`. -/
def Serving (w : World) (r : ℕ) : Agent → Prop
  | .inviteServer s => s = r
  | .ackServer k => w.AcksFor k r
  | _ => False

/-- Responses are where they belong. -/
structure OwnServers (w : World) : Prop where
  sent : ∀ a m, .sent a m ∈ w.log → ∀ r, m.IsFor r → w.Serving r a
  servers : ∀ r t, w.inviteServers.get r = some t → t.Minds r
  acks : ∀ k u, w.ackServers.get k = some u → ∀ r, u.response.passedFor = some r → w.AcksFor k r
  entries : ∀ id r, w.provider.sipListeners id = some (.inviteServer r) →
    ∃ t, w.inviteServers.get r = some t ∧ t.transactionId = id
  ackEntries : ∀ id k, w.provider.sipListeners id = some (.ackServer k) →
    ∃ u, w.ackServers.get k = some u ∧ u.transactionId = id

namespace OwnServers

variable {w w' : World}

theorem acksFor_mono (hmono : ∀ r invite, w.HasInvite r invite → w'.HasInvite r invite)
    (hacks : ∀ k u, w.ackServers.get k = some u →
      ∃ u', w'.ackServers.get k = some u' ∧ u'.transactionId = u.transactionId) {k r : ℕ}
    (h : w.AcksFor k r) : w'.AcksFor k r := by
  obtain ⟨u, invite, hget, hinvite, hid⟩ := h
  obtain ⟨u', hget', hid'⟩ := hacks k u hget
  exact ⟨u', invite, hget', hmono r invite hinvite, hid'.trans hid⟩

theorem serving_mono (hmono : ∀ r invite, w.HasInvite r invite → w'.HasInvite r invite)
    (hacks : ∀ k u, w.ackServers.get k = some u →
      ∃ u', w'.ackServers.get k = some u' ∧ u'.transactionId = u.transactionId) {a : Agent} {r : ℕ}
    (h : w.Serving r a) : w'.Serving r a := by
  cases a with
  | inviteServer s => exact h
  | ackServer k => exact acksFor_mono hmono hacks h
  | _ => exact h.elim

/-- Nobody touches a server, and nothing is sent for an INVITE. -/
theorem congr (h : w.OwnServers) {l : List Obs} (hlog : w'.log = l ++ w.log)
    (hl : ∀ a m, .sent a m ∈ l → ∀ r, ¬ m.IsFor r) (hinvite : w'.inviteServers = w.inviteServers)
    (hack : w'.ackServers = w.ackServers)
    (hlisteners : ∀ id a, a.AnswersInvite → w'.provider.sipListeners id = some a →
      w.provider.sipListeners id = some a) : w'.OwnServers := by
  have hmono (r : ℕ) (invite : SipMessage) (hr : w.HasInvite r invite) : w'.HasInvite r invite := by
    unfold HasInvite
    rw [hinvite]
    exact hr
  have hacks (k : ℕ) (u : AckTransactionServer) (hu : w.ackServers.get k = some u) :
      ∃ u', w'.ackServers.get k = some u' ∧ u'.transactionId = u.transactionId :=
    ⟨u, by rw [hack]; exact hu, rfl⟩
  refine ⟨fun a m hm r hr => ?_, hinvite ▸ h.servers, fun k u hu r hr => ?_, fun id r hid => ?_,
    fun id k hid => ?_⟩
  · rw [hlog] at hm
    rcases List.mem_append.mp hm with hm | hm
    · exact absurd hr (hl a m hm r)
    · exact serving_mono hmono hacks (h.sent a m hm r hr)
  · rw [hack] at hu
    exact acksFor_mono hmono hacks (h.acks k u hu r hr)
  · rw [hinvite]
    exact h.entries id r (hlisteners id _ trivial hid)
  · rw [hack]
    exact h.ackEntries id k (hlisteners id _ trivial hid)

/-- Calls of somebody else, who sends nothing for an INVITE. -/
theorem of_calls (h : w.OwnServers) {a : Agent} (ha : ¬ a.AnswersInvite) {cs : List ProviderCall}
    (hprovider : w'.provider = w.provider.calls a cs)
    (hcs : ∀ m, .sendMessage m ∈ cs → ∀ r, ¬ m.IsFor r)
    (hinvite : w'.inviteServers = w.inviteServers) (hack : w'.ackServers = w.ackServers) :
    w'.OwnServers := by
  refine h.congr (l := SipProvider.sents a cs) ?_ ?_ hinvite hack ?_
  · rw [log, hprovider, SipProvider.log_calls]
  · intro a' m hm r
    obtain ⟨m', hm', heq⟩ := SipProvider.mem_sents.mp hm
    cases heq
    exact hcs m hm' r
  · intro id b hb hid
    rw [hprovider] at hid
    exact SipProvider.listener_calls_of_ne (by rintro rfl; exact ha hb) cs hid

theorem changeStatus (h : w.OwnServers) (s : Status) : (w.changeStatus s).OwnServers := by
  refine h.of_calls (a := .dialog) id rfl (fun m hm => ?_) rfl rfl
  unfold statusCalls at hm
  split at hm
  · cases hm
  · split at hm <;> split at hm <;> simp at hm

theorem updateDialogInfo (h : w.OwnServers) (isClient : Bool) (m : SipMessage) :
    (w.updateDialogInfo isClient m).OwnServers := by
  refine h.of_calls (a := .dialog) id rfl (fun m hm => ?_) rfl rfl
  split at hm
  · cases hm
  · simp at hm

/-- One server changes, and sends what is its own. -/
theorem setInviteServer (h : w.OwnServers) {r : ℕ} {t t' : InviteTransactionServer}
    (hget : w.inviteServers.get r = some t) {cs : List ProviderCall} (ht' : t'.Minds r)
    (hrequest : ∀ invite, t.request = some invite → t'.request = some invite)
    (hsends : ∀ m, .sendMessage m ∈ cs → InviteTransactionServer.Owns r m)
    (hid : ∀ id, .addSelectiveListener id ∈ cs ∨
      t.transactionId = id ∧ .removeSelectiveListener id ∉ cs → t'.transactionId = id) :
    (w.setInviteServer r t' cs).OwnServers := by
  have hmono (s : ℕ) (invite : SipMessage) (hs : w.HasInvite s invite) :
      (w.setInviteServer r t' cs).HasInvite s invite := by
    exact Heap.exists_get_put hget (fun _ => hrequest invite) hs
  have hacks (k : ℕ) (u : AckTransactionServer) (hu : w.ackServers.get k = some u) :
      ∃ u', (w.setInviteServer r t' cs).ackServers.get k = some u' ∧
        u'.transactionId = u.transactionId := ⟨u, hu, rfl⟩
  have hlog : (w.setInviteServer r t' cs).log = SipProvider.sents (.inviteServer r) cs ++ w.log :=
    SipProvider.log_calls ..
  refine ⟨fun a m hm s hs => ?_, ?_, fun k u hu s hs => acksFor_mono hmono hacks (h.acks k u hu s hs),
    fun id s hentry => ?_, fun id k hentry => ?_⟩
  · rw [hlog] at hm
    rcases List.mem_append.mp hm with hm | hm
    · obtain ⟨m', hm', heq⟩ := SipProvider.mem_sents.mp hm
      cases heq
      rcases hsends m hm' with hnone | hown
      · have hpassed := hs.2.2
        rw [hnone] at hpassed
        cases hpassed
      · exact Option.some.inj (hown.symm.trans hs.2.2)
    · exact serving_mono hmono hacks (h.sent a m hm s hs)
  · exact Heap.forall_put (P := fun r (t : InviteTransactionServer) => t.Minds r) h.servers ht'
  · by_cases hsr : s = r
    · subst hsr
      refine ⟨t', Heap.get_put_self .., hid id ?_⟩
      rcases SipProvider.added_of_listener hentry with hadded | ⟨hbefore, hkept⟩
      · exact .inl hadded
      · obtain ⟨u, hu, huid⟩ := h.entries id s hbefore
        rw [hget] at hu
        cases hu
        exact .inr ⟨huid, hkept⟩
    · have hne : Agent.inviteServer r ≠ .inviteServer s := fun heq => hsr (by cases heq; rfl)
      obtain ⟨u, hu, huid⟩ := h.entries id s (SipProvider.listener_calls_of_ne hne cs hentry)
      exact ⟨u, (Heap.get_put_of_ne _ hsr _).trans hu, huid⟩
  · have hne : Agent.inviteServer r ≠ .ackServer k := nofun
    exact h.ackEntries id k (SipProvider.listener_calls_of_ne hne cs hentry)

/-- A server that stays registered where it was. -/
theorem keepsEntry {t t' : InviteTransactionServer} {cs : List ProviderCall}
    (hid : t'.transactionId = t.transactionId) (hadds : ∀ id, .addSelectiveListener id ∉ cs)
    (id : SipId) (h : .addSelectiveListener id ∈ cs ∨
      t.transactionId = id ∧ .removeSelectiveListener id ∉ cs) : t'.transactionId = id :=
  h.elim (fun hadded => absurd hadded (hadds id)) fun hsame => hid.trans hsame.1

/-- A response that is handed to a server. -/
theorem responds (h : w.OwnServers) {r : ℕ} {t t' : InviteTransactionServer} {resp : SipMessage}
    {cs : List ProviderCall} (hget : w.inviteServers.get r = some t) (hr : t.Responds resp t' cs)
    (hown : t.status = .confirmed ∨ t.status = .terminated ∨
      InviteTransactionServer.Owns r resp) : (w.setInviteServer r t' cs).OwnServers := by
  refine h.setInviteServer hget ((h.servers r t hget).responds hr hown)
    (fun invite hinvite => hr.request.trans hinvite) (fun m hm => ?_)
    (keepsEntry hr.transactionId hr.adds)
  obtain ⟨heq, hpending⟩ := hr.sends m hm
  rw [heq]
  rcases hown with hstatus | hstatus | hown
  · rw [hstatus] at hpending
    cases hpending
  · rw [hstatus] at hpending
    cases hpending
  · exact hown

theorem terminates (h : w.OwnServers) {r : ℕ} {t t' : InviteTransactionServer}
    {cs : List ProviderCall} (hget : w.inviteServers.get r = some t) (ht : t.Terminates t' cs) :
    (w.setInviteServer r t' cs).OwnServers :=
  h.setInviteServer hget ((h.servers r t hget).terminates ht)
    (fun _ hinvite => ht.request.trans hinvite) (fun m hm => absurd hm (ht.sends m))
    (keepsEntry ht.transactionId ht.adds)

/-- A server does something by itself. -/
theorem continues (h : w.OwnServers) {r : ℕ} {t t' : InviteTransactionServer}
    {cs : List ProviderCall} (hget : w.inviteServers.get r = some t) (hc : t.Continues t' cs) :
    (w.setInviteServer r t' cs).OwnServers := by
  have hminds := h.servers r t hget
  refine h.setInviteServer hget (hminds.continues hc)
    (fun invite hinvite => hc.request.trans hinvite) (fun m hm => ?_)
    (keepsEntry hc.transactionId hc.adds)
  obtain ⟨hresp, hstatus⟩ := hc.sends m hm
  rcases hminds.holds with hs | hs | hholds
  · rcases hstatus with hstatus | hstatus <;> rw [hs] at hstatus <;> cases hstatus
  · rcases hstatus with hstatus | hstatus <;> rw [hs] at hstatus <;> cases hstatus
  · exact hholds m hresp

/-- A listening server gets its INVITE. -/
theorem begins (h : w.OwnServers) {r : ℕ} {t t' : InviteTransactionServer} {m : SipMessage}
    {cs : List ProviderCall} (hget : w.inviteServers.get r = some t)
    (hwaiting : t.status = .waiting) (hb : t.Begins m t' cs) :
    (w.setInviteServer r t' cs).OwnServers := by
  have hminds := h.servers r t hget
  have hholds : ∀ resp ∈ t.response, InviteTransactionServer.Owns r resp := by
    rcases hminds.holds with hs | hs | hholds
    · rw [hwaiting] at hs
      cases hs
    · rw [hwaiting] at hs
      cases hs
    · exact hholds
  refine h.setInviteServer hget (.begins hholds hb) (fun _ hinvite => ?_)
    (fun m' hm' => .inl (hb.sends m' hm').2.2) fun id hid => ?_
  · rw [(hminds.listening (.inr hwaiting)).1] at hinvite
    cases hinvite
  · rcases hid with hadded | ⟨rfl, hkept⟩
    · exact hb.transactionId.trans (hb.adds id hadded).symm
    · exact absurd (hb.removes hwaiting) hkept

/-- There is a new server. -/
theorem new (h : w.OwnServers) {t : InviteTransactionServer} (ht : t.Minds w.inviteServers.next) :
    World.OwnServers { w with inviteServers := w.inviteServers.new t } := by
  set w₁ : World := { w with inviteServers := w.inviteServers.new t }
  have hmono (r : ℕ) (invite : SipMessage) (hr : w.HasInvite r invite) : w₁.HasInvite r invite := by
    obtain ⟨u, hu, hinvite⟩ := hr
    exact ⟨u, Heap.get_new_of_get hu t, hinvite⟩
  have hacks (k : ℕ) (u : AckTransactionServer) (hu : w.ackServers.get k = some u) :
      ∃ u', w₁.ackServers.get k = some u' ∧ u'.transactionId = u.transactionId := ⟨u, hu, rfl⟩
  refine ⟨fun a m hm r hr => serving_mono hmono hacks (h.sent a m hm r hr),
    Heap.forall_new (P := fun r (t : InviteTransactionServer) => t.Minds r) h.servers ht,
    fun k u hu r hr => acksFor_mono hmono hacks (h.acks k u hu r hr), fun id r hid => ?_, h.ackEntries⟩
  obtain ⟨u, hu, huid⟩ := h.entries id r hid
  exact ⟨u, Heap.get_new_of_get hu t, huid⟩

/-- A new INVITE gets a new server. -/
theorem opened (h : w.OwnServers) (m : SipMessage) : (w.opened S m).OwnServers := by
  set w₁ := (((w.changeStatus (if w.status = .init then .invited else .reInvited)).setInviteReq
    m).updateDialogInfo false m).setInviteTs w.inviteServers.next
  have h₁ : w₁.OwnServers :=
    ((h.changeStatus (if w.status = .init then .invited else .reInvited)).congr (l := []) rfl
      (by simp) rfl rfl fun _ _ _ h => h).updateDialogInfo false m |>.congr (l := []) rfl
      (by simp) rfl rfl fun _ _ _ h => h
  have hnone : ∀ resp ∈ (InviteTransactionServer.ofInvite S m true).response,
      InviteTransactionServer.Owns w₁.inviteServers.next resp := fun _ hresp => nomatch hresp
  have hbegins := InviteTransactionServer.begins_new S m true
  have hnew : World.OwnServers { w₁ with
      inviteServers := w₁.inviteServers.new (.ofInvite S m true) } := by
    refine h₁.new ⟨fun hs => ?_, fun hr => ?_, fun invite hinvite => ?_, .inr (.inr hnone)⟩
    · rcases hs with hs | hs <;> cases hs
    · cases hr
    · exact congrArg SipId.transactionServer (Option.some.inj hinvite)
  have hset := hnew.setInviteServer (Heap.get_new_self ..) (.begins hnone hbegins)
    (fun invite hinvite => hbegins.request.trans hinvite)
    (fun m' hm' => .inl (hbegins.sends m' hm').2.2) fun id hid => by
      rcases hid with hadded | ⟨hid, -⟩
      · exact hbegins.transactionId.trans (hbegins.adds id hadded).symm
      · exact hbegins.transactionId.trans hid
  have hopened : w.opened S m = World.setInviteServer { w₁ with
      inviteServers := w₁.inviteServers.new (.ofInvite S m true) } w₁.inviteServers.next
      (InviteTransactionServer.new S m true).1 (InviteTransactionServer.new S m true).2 :=
    World.startInviteServer_eq S w₁ m
  rw [hopened]
  exact hset

/-- A dialog starts to listen. -/
theorem listen (h : w.OwnServers) (hw : w.status = .init) : (w.listen S).OwnServers := by
  have h₁ : World.OwnServers ((w.changeStatus .waiting).setInviteTs w.inviteServers.next) :=
    (h.changeStatus .waiting).congr (l := []) rfl (by simp) rfl rfl fun _ _ _ h => h
  have hminds (t : InviteTransactionServer) (hstatus : t.status = .idle ∨ t.status = .waiting)
      (hrequest : t.request = none) (hid : t.transactionId = .method .invite)
      (hresponse : t.response = none) (r : ℕ) : t.Minds r := by
    refine ⟨fun _ => ⟨hrequest, hid⟩, fun _ => hstatus.imp_right .inl, fun invite hinvite => ?_,
      .inr (.inr fun resp hresp => ?_)⟩
    · rw [hrequest] at hinvite
      cases hinvite
    · rw [hresponse] at hresp
      cases hresp
  have h₂ : World.OwnServers { (w.changeStatus .waiting).setInviteTs w.inviteServers.next with
      inviteServers := w.inviteServers.new (.newListening S true) } :=
    h₁.new (hminds (.newListening S true) (.inl rfl) rfl rfl rfl _)
  unfold World.listen
  rw [if_pos hw]
  dsimp only
  rw [onInviteServer_of_get (Heap.get_new_self ..)]
  have hlisten := hminds (InviteTransactionServer.newListening S true).listen.1 (.inr rfl) rfl rfl rfl
  refine h₂.setInviteServer (Heap.get_new_self ..) (hlisten _) (fun invite hinvite => ?_)
    (fun m hm => ?_) fun id hid => ?_
  · cases hinvite
  · simp [InviteTransactionServer.listen, InviteTransactionServer.newListening] at hm
  · rcases hid with hadded | ⟨hid, -⟩
    · exact (ProviderCall.addSelectiveListener.inj (List.mem_singleton.mp hadded)).symm
    · exact hid

/-- An ACK server sends its 2xx. -/
theorem setAckServer (h : w.OwnServers) {k : ℕ} {u u' : AckTransactionServer}
    {cs : List ProviderCall} (hget : w.ackServers.get k = some u) (hk : u.Continues u' cs) :
    (w.setAckServer k u' cs).OwnServers := by
  have hmono (s : ℕ) (invite : SipMessage) (hs : w.HasInvite s invite) :
      (w.setAckServer k u' cs).HasInvite s invite := hs
  have hacks (j : ℕ) (v : AckTransactionServer) (hv : w.ackServers.get j = some v) :
      ∃ v', (w.setAckServer k u' cs).ackServers.get j = some v' ∧
        v'.transactionId = v.transactionId :=
    Heap.exists_get_put hget (fun _ hid => hk.transactionId.trans hid) ⟨v, hv, rfl⟩
  have hlog : (w.setAckServer k u' cs).log = SipProvider.sents (.ackServer k) cs ++ w.log :=
    SipProvider.log_calls ..
  refine ⟨fun a m hm s hs => ?_, h.servers, ?_, fun id s hentry => ?_, fun id j hentry => ?_⟩
  · rw [hlog] at hm
    rcases List.mem_append.mp hm with hm | hm
    · obtain ⟨m', hm', heq⟩ := SipProvider.mem_sents.mp hm
      cases heq
      refine acksFor_mono hmono hacks (h.acks k u hget s ?_)
      rw [← hk.sends m hm']
      exact hs.2.2
    · exact serving_mono hmono hacks (h.sent a m hm s hs)
  · refine Heap.forall_put (P := fun j (v : AckTransactionServer) =>
      ∀ r, v.response.passedFor = some r → (w.setAckServer k u' cs).AcksFor j r)
      (fun j v hv r hr => acksFor_mono hmono hacks (h.acks j v hv r hr)) fun r hr => ?_
    rw [hk.response] at hr
    exact acksFor_mono hmono hacks (h.acks k u hget r hr)
  · have hne : Agent.ackServer k ≠ .inviteServer s := by simp
    exact h.entries id s (SipProvider.listener_calls_of_ne hne cs hentry)
  · by_cases hjk : j = k
    · subst hjk
      rcases SipProvider.added_of_listener hentry with hadded | ⟨hbefore, -⟩
      · exact absurd hadded (hk.adds id)
      · obtain ⟨v, hv, hid⟩ := h.ackEntries id j hbefore
        rw [hget] at hv
        cases hv
        exact ⟨u', Heap.get_put_self .., hk.transactionId.trans hid⟩
    · have hne : Agent.ackServer k ≠ .ackServer j := fun heq => hjk (by cases heq; rfl)
      obtain ⟨v, hv, hid⟩ := h.ackEntries id j (SipProvider.listener_calls_of_ne hne cs hentry)
      exact ⟨v, (Heap.get_put_of_ne _ hjk _).trans hv, hid⟩

/-- A 2xx is sent by a new ACK server. -/
theorem startDialogAckServer (h : w.OwnServers) {r : ℕ} {conn : Option ConnectionId}
    {invite : SipMessage} {p : DialogInfo × SipMessage} (hinvite : w.HasInvite r invite)
    (hpassed : p.2.passedFor = some r) : (w.startDialogAckServer conn invite p).OwnServers := by
  set w₁ := w.startDialogAckServer conn invite p
  set k := w.ackServers.next
  set u := (AckTransactionServer.new conn invite p.2 true).respond.1
  have hmono (s : ℕ) (invite : SipMessage) (hs : w.HasInvite s invite) : w₁.HasInvite s invite := hs
  have hacks (j : ℕ) (v : AckTransactionServer) (hv : w.ackServers.get j = some v) :
      ∃ v', w₁.ackServers.get j = some v' ∧ v'.transactionId = v.transactionId :=
    ⟨v, Heap.get_new_of_get hv u, rfl⟩
  have hnew : w₁.AcksFor k r := ⟨u, invite, Heap.get_new_self .., hinvite, rfl⟩
  have hlog : w₁.log = [.sent (.ackServer k) { p.2 with connectionId := conn }] ++ w.log :=
    SipProvider.log_calls ..
  refine ⟨fun a m hm s hs => ?_, h.servers, ?_, fun id s hentry => ?_, fun id j hentry => ?_⟩
  · rw [hlog] at hm
    rcases List.mem_append.mp hm with hm | hm
    · cases List.mem_singleton.mp hm
      rw [← Option.some.inj (hpassed.symm.trans hs.2.2)]
      exact hnew
    · exact serving_mono hmono hacks (h.sent a m hm s hs)
  · refine Heap.forall_new (P := fun j (v : AckTransactionServer) =>
      ∀ s, v.response.passedFor = some s → w₁.AcksFor j s)
      (fun j v hv s hs => acksFor_mono hmono hacks (h.acks j v hv s hs)) fun s hs => ?_
    rw [← Option.some.inj (hpassed.symm.trans hs)]
    exact hnew
  · have hne : Agent.ackServer k ≠ .inviteServer s := by simp
    exact h.entries id s (SipProvider.listener_calls_of_ne hne _ hentry)
  · by_cases hjk : j = k
    · subst hjk
      refine ⟨u, Heap.get_new_self .., ?_⟩
      rcases SipProvider.added_of_listener hentry with hadded | ⟨hbefore, -⟩
      · have hid : id = (AckTransactionServer.new conn invite p.2 true).transactionId := by
          simpa [AckTransactionServer.respond] using hadded
        exact hid.symm
      · obtain ⟨v, hv, -⟩ := h.ackEntries id k hbefore
        exact absurd (Heap.lt_next_of_get hv) (Nat.lt_irrefl _)
    · have hne : Agent.ackServer k ≠ .ackServer j := fun heq => hjk (by cases heq; rfl)
      obtain ⟨v, hv, hid⟩ := h.ackEntries id j (SipProvider.listener_calls_of_ne hne _ hentry)
      exact ⟨v, Heap.get_new_of_get hv u, hid⟩

end OwnServers

/-! ## Runs -/

/-- A response that the responder hands over belongs to its server, or its server does not
send any more. -/
def HandedToOwn (heap : Heap InviteTransactionServer) (p : ℕ × SipMessage) : Prop :=
  ∀ t ∈ heap.get p.1, t.status = .confirmed ∨ t.status = .terminated ∨ p.2.passedFor = some p.1

/-- What the responder hands over in the event goes to the right server. -/
def HandsOwn (S : SipStack) (w : World) (e : Event) : Prop :=
  ∀ p ∈ w.handed S e, HandedToOwn w.inviteServers p

instance (heap : Heap InviteTransactionServer) (p : ℕ × SipMessage) :
    Decidable (HandedToOwn heap p) :=
  inferInstanceAs (Decidable (∀ t ∈ heap.get p.1, _))

instance (w : World) (e : Event) : Decidable (HandsOwn S w e) :=
  inferInstanceAs (Decidable (∀ p ∈ w.handed S e, _))

/-- **Every piece keeps it**, if the responder hands no response to the wrong server. -/
theorem Attends.ownServers {heap : Heap InviteTransactionServer} {H : List (ℕ × SipMessage)}
    (hH : ∀ p ∈ H, HandedToOwn heap p) {w w' : World} (ha : Attends S heap H w w') (hw : w.Posted)
    (h : w.OwnServers) : w'.OwnServers := by
  have hstay {w' : World} (hlog : w'.log = w.log) (hinvite : w'.inviteServers = w.inviteServers)
      (hack : w'.ackServers = w.ackServers)
      (hlisteners : w'.provider.sipListeners = w.provider.sipListeners) : w'.OwnServers :=
    h.congr (l := []) hlog (by simp) hinvite hack fun _ _ _ hid => by rw [← hlisteners]; exact hid
  cases ha with
  | spares hs =>
    obtain ⟨l, hlog, hl⟩ := hs.log
    refine h.congr hlog (fun a m hm r hr => ?_) hs.inviteServers hs.ackServers hs.listeners
    have hunpassed := (hl _ hm).2 hr.1 hr.2.1
    rw [hr.2.2] at hunpassed
    cases hunpassed
  | takes m =>
    exact h.congr (l := [.processed m]) rfl (by simp) rfl rfl fun _ _ _ hid => hid
  | opens m => exact h.opened m
  | startsCancel hinvited r m =>
    refine h.of_calls (a := .cancelServer r) id rfl (fun m' hm' => ?_) rfl rfl
    simp [TransactionServer.listen, TransactionServer.newCancel] at hm'
  | goesOn hrr hts hresp => exact hstay rfl rfl rfl rfl
  | queues hinvited hts hrr hcode hmethod hpassed => exact hstay rfl rfl rfl rfl
  | @hands rr t t' cs resp hrr hresp hheap hmem hget hr =>
    have hown := hH _ hmem t (hheap ▸ hget)
    exact h.responds hget hr (hown.imp_right (.imp_right .inr))
  | rings hinvited hts hget hcode hpassed hr => exact h.responds hget hr (.inr (.inr (.inr hpassed)))
  | fails hinvited hts hget hcode hpassed hr =>
    exact (h.changeStatus _).responds hget hr (.inr (.inr (.inr hpassed)))
  | @succeeds r t t' cs invite conn p hinvited hts hget hreq hcode hpassed ht =>
    have hterm := (h.changeStatus
      (if w.status = .invited then .accepted else .reAccepted)).terminates hget ht
    have hsame : World.OwnServers (((w.changeStatus (if w.status = .invited then .accepted else
        .reAccepted)).setInviteServer r t' cs).terminateResponder) :=
      hterm.congr (l := []) rfl (by simp) rfl rfl fun _ _ _ hid => hid
    obtain ⟨s, v, invite', hts', hv, hreq', hpends⟩ := hw.invited hinvited
    rw [hts] at hts'
    cases hts'
    rw [hget] at hv
    cases hv
    rw [hreq] at hreq'
    cases hreq'
    exact hsame.startDialogAckServer ⟨t', Heap.get_put_self .., ht.request.trans hpends.request⟩
      hpassed
  | continues hget hc => exact h.continues hget hc
  | begins hget hwaiting hb => exact h.begins hget hwaiting hb
  | @accepts r t m hwaiting hget hp =>
    have hinvited : ((w.changeStatus .invited).setInviteReq m).OwnServers :=
      (h.changeStatus .invited).congr (l := []) rfl (by simp) rfl rfl fun _ _ _ hid => hid
    exact hinvited.updateDialogInfo false m
  | @misled r t t' t'' m resp cs cs' hget hwaiting hb hcode hpassed hr =>
    exact (h.begins hget hwaiting hb).responds (Heap.get_put_self ..) hr (.inr (.inr (.inl hpassed)))
  | listens hinit => exact h.listen hinit
  | ends hidle hget ht => exact h.terminates hget ht
  | forgets hclose => exact hstay rfl rfl rfl rfl
  | acks hget hk => exact h.setAckServer hget hk

theorem ownServers_init (S : SipStack) : (World.init S).OwnServers :=
  ⟨fun _ _ hm => absurd hm List.not_mem_nil, fun _ _ ht => (nomatch ht), fun _ _ hu => (nomatch hu),
    fun _ _ hid => (nomatch hid), fun _ _ hid => nomatch hid⟩

/-- A chain of pieces keeps it. -/
theorem Attended.ownServers {heap : Heap InviteTransactionServer} {H : List (ℕ × SipMessage)}
    (hH : ∀ p ∈ H, HandedToOwn heap p) {w w' : World} (ha : Attended S heap H w w') (hw : w.Posted)
    (h : w.OwnServers) : w'.Posted ∧ w'.OwnServers :=
  ha.induction (I := fun w => w.Posted ∧ w.OwnServers)
    (fun _ _ hstep hI => ⟨hstep.posted hI.1, hstep.ownServers hH hI.1 hI.2⟩) ⟨hw, h⟩

theorem Start.ownServers {w : World} (hw : Start S w) : w.Posted ∧ w.OwnServers :=
  hw.attended.ownServers (fun _ hp => (List.not_mem_nil hp).elim) (posted_init S)
    (ownServers_init S)

theorem ownServers_step {w : World} {e : Event} (he : HandsOwn S w e)
    (h : w.Posted ∧ w.OwnServers) : (w.step S e).Posted ∧ (w.step S e).OwnServers :=
  (attended_step h.1 e).ownServers he h.1 h.2

/-- What the server of an INVITE, or its ACK server, sends when the provider receives `m`. -/
def repeated (S : SipStack) (w : World) (m : SipMessage) : List ProviderCall :=
  match w.provider.getListener m with
  | some (.inviteServer r) => (w.inviteServers.get r).toList.flatMap fun t =>
      (t.onReceivedMessage S m).calls
  | some (.ackServer k) => (w.ackServers.get k).toList.flatMap fun u =>
      (u.onReceivedMessage m).calls
  | _ => []

/-- The message is the INVITE of the server `r`, or a retransmission of it. -/
def IsInviteOf (w : World) (r : ℕ) (m : SipMessage) : Prop :=
  m.is .invite = true ∧ ∃ invite, w.HasInvite r invite ∧
    SipId.transactionServer m = SipId.transactionServer invite

/-- Only a request with the identifier of the INVITE finds its transaction. -/
theorem transactionServer_of_listener {p : SipProvider} {m invite : SipMessage} {a : Agent}
    (h : p.getListener m = some a)
    (hid : ∀ id, p.sipListeners id = some a → id = .transactionServer invite) (hm : m.is .invite = true) :
    SipId.transactionServer m = SipId.transactionServer invite := by
  have hrequest : m.isRequest = true := by
    unfold SipMessage.is at hm
    unfold SipMessage.isRequest
    rw [eq_of_beq hm]
    rfl
  unfold SipProvider.getListener at h
  simp only [hrequest, if_true, Option.orElse_eq_orElse, Option.orElse_eq_or] at h
  rcases Option.or_eq_some_iff.mp h with h | ⟨-, h⟩
  · exact hid _ h
  · rcases Option.or_eq_some_iff.mp h with h | ⟨-, h⟩
    · have hdialog := hid _ h
      unfold SipId.ofMessage at hdialog
      split at hdialog <;> cases hdialog
    · have hmethod := hid _ h
      cases hmethod

/-- What a transaction of an INVITE sends again is for a retransmission of that INVITE. -/
theorem OwnServers.repeated {w : World} (h : w.OwnServers) {m resp : SipMessage}
    (hsent : .sendMessage resp ∈ w.repeated S m) {r : ℕ} (hr : resp.IsFor r) : w.IsInviteOf r m := by
  unfold World.repeated at hsent
  split at hsent
  · next s hlistener =>
    obtain ⟨t, ht, hcalls⟩ := List.mem_flatMap.mp hsent
    have hget : w.inviteServers.get s = some t := Option.mem_toList.mp ht
    have hinvite := InviteTransactionServer.is_invite_of_sends hcalls
    have hminds := h.servers s t hget
    have hnot : ¬ (m.is .invite = true ∧ t.status = .waiting) := by
      rintro ⟨hm, hw⟩
      rw [InviteTransactionServer.onReceivedMessage_of_waiting S hm hw] at hcalls
      have hpassed := ((InviteTransactionServer.begins_begin S t m).sends resp hcalls).2.2
      rw [hr.2.2] at hpassed
      cases hpassed
    obtain ⟨hresponse, hstatus⟩ :=
      (InviteTransactionServer.continues_onReceivedMessage S hnot).sends resp hcalls
    have hown : InviteTransactionServer.Owns s resp := by
      rcases hminds.holds with hs | hs | hholds
      · rcases hstatus with hstatus | hstatus <;> rw [hs] at hstatus <;> cases hstatus
      · rcases hstatus with hstatus | hstatus <;> rw [hs] at hstatus <;> cases hstatus
      · exact hholds resp hresponse
    have hsr : s = r := by
      rcases hown with hnone | hown
      · have hpassed := hr.2.2
        rw [hnone] at hpassed
        cases hpassed
      · exact Option.some.inj (hown.symm.trans hr.2.2)
    cases hrequest : t.request with
    | none =>
      rcases hminds.unasked hrequest with hs | hs | hs <;>
        rcases hstatus with hstatus | hstatus <;> rw [hs] at hstatus <;> cases hstatus
    | some invite =>
      refine ⟨hinvite, invite, ⟨t, hsr ▸ hget, hrequest⟩,
        transactionServer_of_listener hlistener (fun id hentry => ?_) hinvite⟩
      obtain ⟨v, hv, hvid⟩ := h.entries id s hentry
      rw [hget] at hv
      cases hv
      exact hvid.symm.trans (hminds.asked invite hrequest)
  · next k hlistener =>
    obtain ⟨u, hu, hcalls⟩ := List.mem_flatMap.mp hsent
    have hget : w.ackServers.get k = some u := Option.mem_toList.mp hu
    have hinvite := AckTransactionServer.is_invite_of_sends hcalls
    have hresp := (u.continues_onReceivedMessage m).sends resp hcalls
    obtain ⟨u', invite, hget', hhas, hid⟩ := h.acks k u hget r (hresp ▸ hr.2.2)
    rw [hget] at hget'
    cases hget'
    refine ⟨hinvite, invite, hhas, transactionServer_of_listener hlistener (fun id hentry => ?_) hinvite⟩
    obtain ⟨v, hv, hvid⟩ := h.ackEntries id k hentry
    rw [hget] at hv
    cases hv
    exact hvid.symm.trans hid
  · cases hsent

/-- A reliable 180 to alice's INVITE, which she acknowledges. -/
def sampleReliableRinging : List Event :=
  [.ret, .api .ring,
    .recv { sampleRequest .prack 2 (some "tag") "2" with rack := some ⟨1, 1, .invite⟩ }, .ret, .ret]

/-- Alice sends a second INVITE before the first one is answered, and bob rings. -/
def sampleAnsweredAgain : List Event :=
  sampleReliableRinging ++
    [.recv { sampleRequest .invite 3 (some "tag") "3" with requireTags := some [otag100rel] }, .ret,
      .api .ring]

/-- Does the observation say that `a` sent a response to the INVITE of server r? -/
def sentFor (a : Agent) (r : ℕ) : Obs → Bool
  | .sent b m => decide (b = a ∧ m.IsFor r)
  | _ => false

theorem exists_sent {l : List Obs} {a : Agent} {r : ℕ} (h : l.any (sentFor a r) = true) :
    ∃ m, .sent a m ∈ l ∧ m.IsFor r := by
  obtain ⟨o, ho, hfor⟩ := List.any_eq_true.mp h
  cases o with
  | sent b m =>
    obtain ⟨rfl, hm⟩ := of_decide_eq_true hfor
    exact ⟨m, ho, hm⟩
  | _ => cases hfor

end World
end SoftPhone
