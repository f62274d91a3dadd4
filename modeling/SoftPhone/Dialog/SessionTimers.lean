import SoftPhone.Dialog.Step
import SoftPhone.Sip.Update

/-!
# The session interval of a 2xx

An INVITE may ask for a session interval (Session-Expires) and set a lower bound for it (Min-SE).  The
2xx that `respond` sends has a Session-Expires header between the two only if the own session interval
fits.

* If the INVITE supports timers and has a Session-Expires header, that interval is cut down to the own
  one.  So it is never above the one that was asked for, but Min-SE is not looked at.
* Otherwise the own interval is taken, and it is raised to Min-SE, or to the own lower bound.  So it is
  never below Min-SE, but Session-Expires is not looked at.

`sessionBounds_iff` says when both bounds are kept.
-/

namespace SoftPhone

open Machine

variable {S : SipStack}

/-- The session interval is within the bounds of the INVITE, as far as there are any. -/
structure SessionExpires.Within (se : SessionExpires) (invite : SipMessage) : Prop where
  lower : ∀ min, invite.minSE = some min → min ≤ se.deltaSeconds
  upper : ∀ sh, invite.sessionExpires = some sh → se.deltaSeconds ≤ sh.deltaSeconds

/-- The Session-Expires header that `respond` puts into a 2xx, with the own session interval. -/
def putSessionExpires (S : SipStack) (sessionInterval : ℤ) (invite : SipMessage) :
    Option SessionExpires :=
  match invite.supports otagTimer, invite.sessionExpires with
  | true, some sh =>
    some ⟨if 0 < sessionInterval ∧ sessionInterval < sh.deltaSeconds then sessionInterval
      else sh.deltaSeconds, some "uac"⟩
  | _, _ =>
    if 0 < sessionInterval then
      some ⟨max (invite.minSE.getD S.minSessionInterval) sessionInterval, some "uas"⟩
    else none

/-- The own session interval and the one that was asked for fit the bounds. -/
structure SessionIntervalFits (S : SipStack) (sessionInterval : ℤ) (invite : SipMessage) :
    Prop where
  /-- Where the interval that was asked for is cut down. -/
  asked : invite.supports otagTimer = true → ∀ sh, invite.sessionExpires = some sh →
    ∀ min, invite.minSE = some min →
      min ≤ sh.deltaSeconds ∧ (0 < sessionInterval → min ≤ sessionInterval)
  /-- Where the own interval is raised. -/
  own : invite.supports otagTimer = false → ∀ sh, invite.sessionExpires = some sh →
    0 < sessionInterval → sessionInterval ≤ sh.deltaSeconds ∧
      invite.minSE.getD S.minSessionInterval ≤ sh.deltaSeconds

/-! ## The interval -/

section Interval

variable {sessionInterval : ℤ} {invite : SipMessage}

theorem putSessionExpires_asked {sh : SessionExpires} (hs : invite.supports otagTimer = true)
    (hsh : invite.sessionExpires = some sh) :
    putSessionExpires S sessionInterval invite =
      some ⟨if 0 < sessionInterval ∧ sessionInterval < sh.deltaSeconds then sessionInterval
        else sh.deltaSeconds, some "uac"⟩ := by
  unfold putSessionExpires
  rw [hs, hsh]

theorem putSessionExpires_own
    (h : ∀ sh, invite.supports otagTimer = true → invite.sessionExpires = some sh → False) :
    putSessionExpires S sessionInterval invite =
      if 0 < sessionInterval then
        some ⟨max (invite.minSE.getD S.minSessionInterval) sessionInterval, some "uas"⟩
      else none := by
  unfold putSessionExpires
  split
  · next sh hs hsh => exact (h sh hs hsh).elim
  · rfl

/-- The interval that was asked for, cut down to the own one. -/
theorem within_asked_iff {sh : SessionExpires} (hsh : invite.sessionExpires = some sh)
    (refresher : Option String) :
    SessionExpires.Within ⟨if 0 < sessionInterval ∧ sessionInterval < sh.deltaSeconds then
        sessionInterval else sh.deltaSeconds, refresher⟩ invite ↔
      ∀ min, invite.minSE = some min →
        min ≤ sh.deltaSeconds ∧ (0 < sessionInterval → min ≤ sessionInterval) := by
  set delta := if 0 < sessionInterval ∧ sessionInterval < sh.deltaSeconds then sessionInterval
    else sh.deltaSeconds with hdelta
  have hmin (min : ℤ) : min ≤ delta ↔
      min ≤ sh.deltaSeconds ∧ (0 < sessionInterval → min ≤ sessionInterval) := by
    rw [hdelta]
    split <;> omega
  have hupper : delta ≤ sh.deltaSeconds := by
    rw [hdelta]
    split <;> omega
  constructor
  · intro h min hm
    exact (hmin min).mp (h.lower min hm)
  · intro h
    refine ⟨fun min hm => (hmin min).mpr (h min hm), fun sh' hsh' => ?_⟩
    rw [hsh, Option.some.injEq] at hsh'
    exact hsh' ▸ hupper

/-- The own interval, raised to the lower bound. -/
theorem within_own_iff (S : SipStack) (sessionInterval : ℤ) (invite : SipMessage)
    (refresher : Option String) :
    SessionExpires.Within ⟨max (invite.minSE.getD S.minSessionInterval) sessionInterval,
        refresher⟩ invite ↔
      ∀ sh, invite.sessionExpires = some sh → sessionInterval ≤ sh.deltaSeconds ∧
        invite.minSE.getD S.minSessionInterval ≤ sh.deltaSeconds := by
  constructor
  · intro h sh hsh
    exact (Int.max_le.mp (h.upper sh hsh)).symm
  · intro h
    refine ⟨fun min hm => ?_, fun sh hsh => Int.max_le.mpr (h sh hsh).symm⟩
    rw [hm]
    exact Int.le_max_left min sessionInterval

/-- The header that is put into a 2xx is within the bounds if and only if the intervals fit. -/
theorem putSessionExpires_iff :
    (∀ se, putSessionExpires S sessionInterval invite = some se → se.Within invite) ↔
      SessionIntervalFits S sessionInterval invite := by
  by_cases hasked : ∃ sh, invite.supports otagTimer = true ∧ invite.sessionExpires = some sh
  · obtain ⟨sh, hs, hsh⟩ := hasked
    rw [putSessionExpires_asked hs hsh]
    simp only [Option.some.injEq, forall_eq']
    rw [within_asked_iff hsh]
    constructor
    · intro h
      refine ⟨fun _ sh' hsh' => ?_, fun hf => absurd (hs.symm.trans hf) (by simp)⟩
      rw [hsh, Option.some.injEq] at hsh'
      exact hsh' ▸ h
    · intro h
      exact h.asked hs sh hsh
  · have hown (sh : SessionExpires) (hs : invite.supports otagTimer = true)
        (hsh : invite.sessionExpires = some sh) : False := hasked ⟨sh, hs, hsh⟩
    rw [putSessionExpires_own hown]
    constructor
    · intro h
      refine ⟨fun hs sh hsh => (hown sh hs hsh).elim, fun _ sh hsh hpos => ?_⟩
      exact (within_own_iff ..).mp (h _ (if_pos hpos)) sh hsh
    · intro h se hse
      obtain ⟨hpos, hse⟩ := Option.ite_none_right_eq_some.mp hse
      obtain rfl := Option.some.inj hse
      refine (within_own_iff ..).mpr fun sh hsh => h.own ?_ sh hsh hpos
      exact Bool.eq_false_iff.mpr fun hs => hown sh hs hsh

end Interval

namespace World

/-! ## The response that is sent -/

/-- What `sessionTimers` leaves in a response: the header that it puts there, or the one that was
there. -/
theorem sessionExpires_sessionTimers (S : SipStack) (info : DialogInfo)
    (invite resp : SipMessage) :
    (sessionTimers S info invite resp).2.sessionExpires =
      (putSessionExpires S info.sessionInterval invite <|> resp.sessionExpires) := by
  unfold sessionTimers
  split
  · next sh hs hsh =>
    rw [putSessionExpires_asked hs hsh]
    rfl
  · next hown =>
    rw [putSessionExpires_own hown]
    split <;> rfl

/-- The response that the `AckTransactionServer` of the dialog sends. -/
def ackResponse (w : World) : Option SipMessage :=
  (w.dlg.ackTs.bind w.ackServers.get).map (·.response)

theorem ackResponse_startDialogAckServer (w : World) (conn : Option ConnectionId)
    (invite : SipMessage) (p : DialogInfo × SipMessage) :
    (w.startDialogAckServer conn invite p).ackResponse =
      some { p.2 with connectionId := conn } := by
  unfold ackResponse
  rw [show (w.startDialogAckServer conn invite p).dlg.ackTs.bind
    (w.startDialogAckServer conn invite p).ackServers.get =
      some ((AckTransactionServer.new conn invite p.2 true).respond).1 from
    Heap.get_new_self ..]
  rfl

end World

/-- An update leaves the session interval alone. -/
theorem DialogInfo.sessionInterval_update (d : DialogInfo) (isClient : Bool) (m : SipMessage) :
    (d.update isClient m).sessionInterval = d.sessionInterval := by
  unfold update
  dsimp only
  rw [updateContact_eq, updateRouteClient_eq, updateRouteServer_eq]
  obtain ⟨secure, hsecure⟩ := updateSecure_eq (if isClient then _ else _) m
  rw [hsecure]
  cases isClient <;> rfl

namespace World

theorem sessionInterval_updateDialogInfo (w : World) (isClient : Bool) (m : SipMessage) :
    (w.updateDialogInfo isClient m).dlg.info.sessionInterval = w.dlg.info.sessionInterval := by
  show (w.dlg.updateInfo isClient m).info.sessionInterval = _
  unfold InviteDialog.updateInfo
  split
  · rfl
  · exact DialogInfo.sessionInterval_update ..

/-- A 2xx to the INVITE that is pending: the dialog is updated with it, and then it is sent. -/
theorem respond_success {w : World} (hw : w.status.IsInvited) {resp : SipMessage}
    (hmethod : resp.getTransactionMethod = .invite) (hcode : 200 ≤ resp.code ∧ resp.code < 300) :
    w.respond S resp =
      (w.updateDialogInfo false { resp with passedFor := w.dlg.inviteTs }).respondSuccess S
        ((w.updateDialogInfo false { resp with passedFor := w.dlg.inviteTs }).addSupported
          { resp with passedFor := w.dlg.inviteTs }) := by
  have hrespond : w.respond S resp = w.respondInvite S resp := by
    unfold respond inviteDialogRespond
    simp only [hmethod, ne_eq, not_true_eq_false, false_and, and_false, if_false]
  rw [hrespond]
  unfold respondInvite
  rw [if_pos hw]
  extract_lets resp₁ w₁
  have hcode₁ : 200 ≤ resp₁.code ∧ resp₁.code < 300 := hcode
  have hw₁ : w₁ = w.updateDialogInfo false resp₁ := if_pos hcode₁.1
  have hnot : ¬ (100 ≤ resp₁.code ∧ resp₁.code < 200) := by omega
  rw [if_neg hnot, if_pos hcode₁, hw₁]

/-- **The Session-Expires header of the 2xx that `respond` sends.** -/
theorem sessionExpires_respond {w : World} (hw : w.status.IsInvited) {invite : SipMessage}
    (hreq : w.dlg.inviteReq = some invite) {resp : SipMessage}
    (hmethod : resp.getTransactionMethod = .invite) (hcode : 200 ≤ resp.code ∧ resp.code < 300) :
    ∃ m, (w.respond S resp).ackResponse = some m ∧ m.sessionExpires =
      (putSessionExpires S w.dlg.info.sessionInterval invite <|> resp.sessionExpires) := by
  rw [respond_success hw hmethod hcode]
  set resp₁ : SipMessage := { resp with passedFor := w.dlg.inviteTs }
  set w₁ := w.updateDialogInfo false resp₁ with hw₁
  unfold respondSuccess
  extract_lets w₂ conn w₃
  have hreq₃ : w₃.dlg.inviteReq = some invite := by
    show (w.dlg.updateInfo false resp₁).inviteReq = some invite
    unfold InviteDialog.updateInfo
    split <;> exact hreq
  have hinterval₃ : w₃.dlg.info.sessionInterval = w.dlg.info.sessionInterval :=
    sessionInterval_updateDialogInfo w false resp₁
  have hput : (w₁.addSupported resp₁).sessionExpires = resp.sessionExpires := by
    unfold addSupported
    split <;> rfl
  rw [hreq₃]
  refine ⟨_, ackResponse_startDialogAckServer .., ?_⟩
  rw [← hinterval₃, ← hput]
  exact sessionExpires_sessionTimers ..

/-- `respond` puts a Session-Expires header into a 2xx. -/
def PutsSessionExpires (w : World) (invite : SipMessage) : Prop :=
  (invite.supports otagTimer = true ∧ invite.sessionExpires ≠ none) ∨
    0 < w.dlg.info.sessionInterval

/-- If `respond` puts a Session-Expires header into the 2xx `resp`, then the interval is within the
bounds of the INVITE. -/
def KeepsSessionBounds (S : SipStack) (w : World) (invite resp : SipMessage) : Prop :=
  w.PutsSessionExpires invite → ∀ m se, (w.respond S resp).ackResponse = some m →
    m.sessionExpires = some se → se.Within invite

theorem putSessionExpires_ne_none_iff {w : World} {invite : SipMessage} :
    putSessionExpires S w.dlg.info.sessionInterval invite ≠ none ↔ w.PutsSessionExpires invite := by
  unfold PutsSessionExpires
  by_cases hasked : ∃ sh, invite.supports otagTimer = true ∧ invite.sessionExpires = some sh
  · obtain ⟨sh, hs, hsh⟩ := hasked
    rw [putSessionExpires_asked hs hsh]
    simp [hs, hsh]
  · have hown (sh : SessionExpires) (hs : invite.supports otagTimer = true)
        (hsh : invite.sessionExpires = some sh) : False := hasked ⟨sh, hs, hsh⟩
    have hnot : ¬ (invite.supports otagTimer = true ∧ invite.sessionExpires ≠ none) := by
      rintro ⟨hs, hne⟩
      obtain ⟨sh, hsh⟩ := Option.ne_none_iff_exists'.mp hne
      exact hown sh hs hsh
    rw [putSessionExpires_own hown, or_iff_right hnot]
    simp

/-- **Both bounds of the INVITE are kept if and only if the own session interval and the one that was
asked for fit them.** -/
theorem sessionBounds_iff {w : World} (hw : w.status.IsInvited) {invite : SipMessage}
    (hreq : w.dlg.inviteReq = some invite) {resp : SipMessage}
    (hmethod : resp.getTransactionMethod = .invite) (hcode : 200 ≤ resp.code ∧ resp.code < 300) :
    KeepsSessionBounds S w invite resp ↔
      SessionIntervalFits S w.dlg.info.sessionInterval invite := by
  obtain ⟨m, hm, hse⟩ := sessionExpires_respond (S := S) hw hreq hmethod hcode
  rw [← putSessionExpires_iff]
  constructor
  · intro h se hput
    have hputs : w.PutsSessionExpires invite :=
      putSessionExpires_ne_none_iff.mp (hput ▸ Option.some_ne_none se)
    rw [hput] at hse
    exact h hputs m se hm hse
  · intro h hputs m' se hm' hse'
    obtain rfl : m = m' := Option.some.inj (hm.symm.trans hm')
    obtain ⟨se', hput⟩ := Option.ne_none_iff_exists'.mp (putSessionExpires_ne_none_iff.mpr hputs)
    rw [hput] at hse
    obtain rfl : se' = se := Option.some.inj (hse.symm.trans hse')
    exact h se' hput

/-- Alice's INVITE, with timers, Session-Expires 1800 and the lower bound `min`. -/
def sampleTimedInvite (min : ℤ) : SipMessage :=
  { sampleRequest .invite 1 none "1" with
    supportedTags := some [otagTimer]
    sessionExpires := some ⟨1800, none⟩
    minSE := some min }

/-- Bob's dialog with an own session interval of 100 seconds, when the INVITE has come. -/
def sampleTimed (min : ℤ) : World :=
  run (step { defaultSessionInterval := 100 }) (init { defaultSessionInterval := 100 })
    [.api .listen, .recv (sampleTimedInvite min), .ret]

theorem sessionBounds_sample :
    KeepsSessionBounds { defaultSessionInterval := 100 } (sampleTimed 90) (sampleTimedInvite 90)
      (sampleResponse (sampleTimedInvite 90) 200) :=
  (sessionBounds_iff (.inl (by decide +kernel)) (by decide +kernel) (by decide +kernel)
    (by decide +kernel)).mpr
      { asked := fun _ sh hsh min hmin => by
          obtain rfl := Option.some.inj hsh
          obtain rfl := Option.some.inj hmin
          decide +kernel
        own := fun hs => absurd hs (by decide +kernel) }

/-- **The interval that was asked for is cut down below Min-SE.** -/
theorem sessionBounds_broken :
    ¬ KeepsSessionBounds { defaultSessionInterval := 100 } (sampleTimed 120)
      (sampleTimedInvite 120) (sampleResponse (sampleTimedInvite 120) 200) := by
  intro h
  have hm : ∃ m, ((sampleTimed 120).respond { defaultSessionInterval := 100 }
      (sampleResponse (sampleTimedInvite 120) 200)).ackResponse = some m ∧
        m.sessionExpires = some ⟨100, some "uac"⟩ :=
    ⟨_, rfl, by decide +kernel⟩
  obtain ⟨m, hm, hse⟩ := hm
  have hwithin := h (.inl (by decide +kernel)) m _ hm hse
  exact absurd (hwithin.lower 120 rfl) (by decide)

end World
end SoftPhone
