import SoftPhone.Dialog.Calls
import SoftPhone.Transaction.ClientState

/-!
# What one event can do

`Happens S w e w'` lists what the event `e` can do to the world `w`, in the terms of
the handlers' own statements.  `happens_step` says that the list is complete: a proof
about all runs is one case analysis of `Happens`.
-/

namespace SoftPhone
namespace World

variable {S : SipStack}

/-- What one event can do. -/
inductive Happens (S : SipStack) (w : World) : Event → World → Prop where
  /-- Server work, or nothing. -/
  | serves {e : Event} {w' : World} (h : Serves w w') : Happens S w e w'
  /-- The listener returns. -/
  | returns {c : DialogCallback} {rest : List Frame} (hstack : w.stack = .listener c :: rest) :
      Happens S w .ret { w with stack := rest }
  /-- A message comes to the dialog. -/
  | receives {m : SipMessage} {w' : World} (hidle : w.stack = [])
      (hl : w.provider.getListener m = some .dialog)
      (h : Receives S (w.observe (.received .dialog m)) m w') : Happens S w (.recv m) w'
  /-- An invite client goes on without a callback. -/
  | inviteClient {e : Event} {w₁ : World} {r : ℕ} {t : InviteTransactionClient}
      {o : Outcome InviteTransactionClient ClientCallback ClientRest} (hidle : w.stack = [])
      (h₁ : Serves w w₁) (hget : w₁.inviteClients.get r = some t)
      (hdid : t.state.Did o.callback o.rest o.self.state) (hc : o.callback = none) :
      Happens S w e (w₁.putInviteClient r o)
  /-- An invite client calls the dialog back. -/
  | inviteClientCalls {e : Event} {w₁ w' : World} {r : ℕ} {t : InviteTransactionClient}
      {o : Outcome InviteTransactionClient ClientCallback ClientRest} {c : ClientCallback}
      (hidle : w.stack = []) (h₁ : Serves w w₁) (hdlg : w₁.dlg = w.dlg)
      (hget : w₁.inviteClients.get r = some t)
      (hdid : t.state.Did o.callback o.rest o.self.state) (hc : o.callback = some c)
      (hm : ∀ m, c.message = some m →
        e = .recv m ∧ w.provider.getListener m = some (.inviteClient r) ∧
          Obs.received (.inviteClient r) m ∈ w₁.log)
      (h : Notifies S (w₁.putInviteClient r o) o.self.request.getTransactionMethod c w') :
      Happens S w e w'
  /-- A client goes on without a callback. -/
  | client {e : Event} {w₁ : World} {r : ℕ} {t : TransactionClient}
      {o : Outcome TransactionClient ClientCallback ClientRest} (hidle : w.stack = [])
      (h₁ : Serves w w₁) (hget : w₁.clients.get r = some t)
      (hdid : t.state.Did o.callback o.rest o.self.state) (hc : o.callback = none) :
      Happens S w e (w₁.putClient r o)
  /-- A client calls the dialog back. -/
  | clientCalls {e : Event} {w₁ w' : World} {r : ℕ} {t : TransactionClient}
      {o : Outcome TransactionClient ClientCallback ClientRest} {c : ClientCallback}
      (hidle : w.stack = []) (h₁ : Serves w w₁) (hget : w₁.clients.get r = some t)
      (hdid : t.state.Did o.callback o.rest o.self.state) (hc : o.callback = some c)
      (h : Notifies S (w₁.putClient r o) o.self.request.getTransactionMethod c w') :
      Happens S w e w'
  /-- A server transaction calls the dialog back. -/
  | served {e : Event} {w' : World} (hidle : w.stack = []) (h : Served w w') : Happens S w e w'
  /-- The user calls a method. -/
  | called {a : Api} {w' : World} (huser : w.AtUser) (h : Called S w a w') :
      Happens S w (.api a) w'
  /-- Code other than server work goes on. -/
  | resumes {c : Rest} {rest : List Frame} (hstack : w.stack = .code c :: rest)
      (hc : ¬ c.IsServing) : Happens S w .ret ({ w with stack := rest }.resume c)
  /-- Code of the server side goes on. -/
  | goesOn {c : Rest} {rest : List Frame} {w' : World} (hstack : w.stack = .code c :: rest)
      (hc : c.IsServing) (h : Serves { w with stack := rest } w') : Happens S w .ret w'

/-! ## Server transactions -/

theorem serves_putInviteServer (w : World) (r : ℕ)
    (o : Outcome InviteTransactionServer ServerCallback ServerRest) :
    Serves w (w.putInviteServer r o) := by
  have hcalls : Serves w { w with
      inviteServers := w.inviteServers.put r o.self
      provider := w.provider.calls (.inviteServer r) o.calls } :=
    serves_of_calls (a := .inviteServer r) trivial rfl rfl rfl rfl rfl
  unfold putInviteServer
  cases o.rest with
  | none => exact hcalls
  | some rest =>
    exact hcalls.trans (serves_suspend _ (show (Rest.inviteServer r rest).IsServing from trivial))

theorem serves_putServer (w : World) (r : ℕ)
    (o : Outcome TransactionServer ServerCallback ServerRest) : Serves w (w.putServer r o) :=
  serves_of_calls (a := .server r) trivial rfl rfl rfl rfl rfl

theorem serves_putCancelServer (w : World) (r : ℕ)
    (o : Outcome TransactionServer ServerCallback ServerRest) :
    Serves w (w.putCancelServer r o) :=
  serves_of_calls (a := .cancelServer r) trivial rfl rfl rfl rfl rfl

theorem serves_putAckServer (w : World) (r : ℕ)
    (o : Outcome AckTransactionServer AckServerCallback ServerRest) :
    Serves w (w.putAckServer r o) :=
  serves_of_calls (a := .ackServer r) trivial rfl rfl rfl rfl rfl

theorem served_inviteServerDid (hS : S.extended = false) (w : World) (r : ℕ)
    (o : Outcome InviteTransactionServer ServerCallback ServerRest) :
    Served w (w.inviteServerDid S r o) := by
  unfold inviteServerDid
  split
  · exact .serves (serves_putInviteServer ..)
  · exact .of_serves (serves_putInviteServer ..) (served_onServerCallback hS ..)

theorem served_serverDid (hS : S.extended = false) (w : World) (r : ℕ)
    (o : Outcome TransactionServer ServerCallback ServerRest) :
    Served w (w.serverDid S r o) := by
  unfold serverDid
  split
  · exact .serves (serves_putServer ..)
  · exact .of_serves (serves_putServer ..) (served_onServerCallback hS ..)

theorem served_cancelServerDid (hS : S.extended = false) (w : World) (r : ℕ)
    (o : Outcome TransactionServer ServerCallback ServerRest) :
    Served w (w.cancelServerDid S r o) := by
  unfold cancelServerDid
  split
  · exact .serves (serves_putCancelServer ..)
  · exact .of_serves (serves_putCancelServer ..) (served_onServerCallback hS ..)

theorem served_ackServerDid (w : World) (r : ℕ)
    (o : Outcome AckTransactionServer AckServerCallback ServerRest) :
    Served w (w.ackServerDid r o) := by
  unfold ackServerDid
  split
  · exact .serves (serves_putAckServer ..)
  · exact .of_serves (serves_putAckServer ..) (served_onTransAckTimeout _)

/-! ## One event -/

/-- Only the invite clients, the clients and the dialog are more than servers. -/
theorem happens_served {w w₁ w' : World} {e : Event} (hidle : w.stack = [])
    (h₁ : Serves w w₁) (h : Served w₁ w') : Happens S w e w' :=
  .served hidle (.of_serves h₁ h)

theorem happens_inviteClientDid (hS : S.extended = false) {w w₁ : World} {e : Event} {r : ℕ}
    {t : InviteTransactionClient} {o : Outcome InviteTransactionClient ClientCallback ClientRest}
    (hidle : w.stack = []) (h₁ : Serves w w₁) (hdlg : w₁.dlg = w.dlg)
    (hget : w₁.inviteClients.get r = some t)
    (hdid : t.state.Did o.callback o.rest o.self.state)
    (hm : ∀ c, o.callback = some c → ∀ m, c.message = some m →
      e = .recv m ∧ w.provider.getListener m = some (.inviteClient r) ∧
        Obs.received (.inviteClient r) m ∈ w₁.log) :
    Happens S w e (w₁.inviteClientDid S r o) := by
  unfold inviteClientDid
  split
  · next hc => exact .inviteClient hidle h₁ hget hdid hc
  · next c hc =>
    exact .inviteClientCalls hidle h₁ hdlg hget hdid hc (hm c hc) (notifies_onClientCallback hS ..)

theorem happens_clientDid (hS : S.extended = false) {w w₁ : World} {e : Event} {r : ℕ}
    {t : TransactionClient} {o : Outcome TransactionClient ClientCallback ClientRest}
    (hidle : w.stack = []) (h₁ : Serves w w₁) (hget : w₁.clients.get r = some t)
    (hdid : t.state.Did o.callback o.rest o.self.state) :
    Happens S w e (w₁.clientDid S r o) := by
  unfold clientDid
  split
  · next hc => exact .client hidle h₁ hget hdid hc
  · next c hc =>
    exact .clientCalls hidle h₁ hget hdid hc (notifies_onClientCallback hS ..)

theorem happens_deliver (hS : S.extended = false) {w : World} {a : Agent} {m : SipMessage}
    (hidle : w.stack = []) (hl : w.provider.getListener m = some a) :
    Happens S w (.recv m) (w.deliver S a m) := by
  unfold deliver
  extract_lets w₁
  have h₁ : Serves w w₁ := serves_received ..
  have hlog : Obs.received a m ∈ w₁.log := List.mem_cons_self ..
  cases a with
  | dialog => exact .receives hidle hl (receives_onReceivedMessage hS ..)
  | ackClient => exact .serves h₁
  | inviteClient r =>
    dsimp only
    split
    · exact .serves h₁
    · next t hget =>
      refine happens_inviteClientDid hS hidle h₁ rfl hget (t.did_onReceivedMessage ..) ?_
      intro c hc m' hm'
      obtain rfl := InviteTransactionClient.message_onReceivedMessage hc hm'
      exact ⟨rfl, hl, hlog⟩
  | client r =>
    dsimp only
    split
    · exact .serves h₁
    · next t hget => exact happens_clientDid hS hidle h₁ hget (t.did_onReceivedMessage m)
  | inviteServer r =>
    dsimp only
    split
    · exact .serves h₁
    · exact happens_served hidle h₁ (served_inviteServerDid hS ..)
  | server r =>
    dsimp only
    split
    · exact .serves h₁
    · exact happens_served hidle h₁ (served_serverDid hS ..)
  | cancelServer r =>
    dsimp only
    split
    · exact .serves h₁
    · exact happens_served hidle h₁ (served_cancelServerDid hS ..)
  | ackServer r =>
    dsimp only
    split
    · exact .serves h₁
    · exact happens_served hidle h₁ (served_ackServerDid ..)

theorem happens_expire (hS : S.extended = false) {w : World} (a : Agent) (n : TimerName)
    (hidle : w.stack = []) : Happens S w (.timeout a n) (w.expire S a n) := by
  have hrefl : Serves w w := .refl w
  unfold expire
  cases a with
  | dialog => exact .serves hrefl
  | ackClient => exact .serves hrefl
  | inviteClient r =>
    dsimp only
    split
    · exact .serves hrefl
    · next t hget =>
      refine happens_inviteClientDid hS hidle hrefl rfl hget (t.did_expire n) ?_
      intro c hc m hm
      rw [InviteTransactionClient.message_expire hc] at hm
      cases hm
  | client r =>
    dsimp only
    split
    · exact .serves hrefl
    · next t hget => exact happens_clientDid hS hidle hrefl hget (t.did_expire n)
  | inviteServer r =>
    dsimp only
    split
    · exact .serves hrefl
    · exact happens_served hidle hrefl (served_inviteServerDid hS ..)
  | server r =>
    dsimp only
    split
    · exact .serves hrefl
    · exact happens_served hidle hrefl (served_serverDid hS ..)
  | cancelServer r =>
    dsimp only
    split
    · exact .serves hrefl
    · exact happens_served hidle hrefl (served_cancelServerDid hS ..)
  | ackServer r =>
    dsimp only
    split
    · exact .serves hrefl
    · exact happens_served hidle hrefl (served_ackServerDid ..)

/-- **The list is complete.** -/
theorem happens_step (hS : S.extended = false) (w : World) (e : Event) :
    Happens S w e (w.step S e) := by
  have hrefl : Serves w w := .refl w
  cases e with
  | recv m =>
    unfold step
    dsimp only
    split
    · next hidle =>
      unfold receive
      split
      · exact .serves hrefl
      · next a hl => exact happens_deliver hS hidle hl
    · exact .serves hrefl
  | timeout a n =>
    unfold step
    dsimp only
    split
    · next hidle => exact happens_expire hS a n hidle
    · exact .serves hrefl
  | responderTimeout n =>
    unfold step
    dsimp only
    split
    · exact .serves (serves_processTimeout w n)
    · exact .serves hrefl
  | api a =>
    unfold step
    dsimp only
    split
    · next huser => exact .called huser (called_call hS w a)
    · exact .serves hrefl
  | ret =>
    unfold step
    dsimp only
    split
    · exact .serves hrefl
    · next hstack => exact .returns hstack
    · next c rest hstack =>
      by_cases hc : c.IsServing
      · exact .goesOn hstack hc (serves_resume _ hc)
      · exact .resumes hstack hc

end World
end SoftPhone
