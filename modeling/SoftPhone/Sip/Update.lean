import SoftPhone.Sip.DialogInfo

/-!
# What `update` does to each attribute

As transaction client and as transaction server, `update` keeps the names and the Call-ID that
are known, keeps one tag and overwrites the other one, and sets the route set from Record-Route
of a response (client) or of a request (server).
-/

namespace SoftPhone

/-- A message is a request or a response. -/
theorem SipMessage.isResponse_eq (m : SipMessage) : m.isResponse = !m.isRequest := by
  unfold isResponse isRequest code? requestMethod
  cases m.firstLine <;> rfl

namespace DialogInfo

/-- The contact of a message, or the one that is known. -/
def contactOr (m : SipMessage) (known : Option NameAddress) : Option NameAddress :=
  m.contact <|> known

/-- The route set after `update` as transaction client. -/
def clientRoute (d : DialogInfo) (m : SipMessage) : Option (List NameAddress) :=
  if m.isResponse && !m.recordRoutes.isEmpty then some m.recordRoutes.reverse
  else if m.isRequest && !m.routes.isEmpty && d.route.isNone then some m.routes
  else d.route

/-- The route set after `update` as transaction server. -/
def serverRoute (d : DialogInfo) (m : SipMessage) : Option (List NameAddress) :=
  if m.isRequest && !m.recordRoutes.isEmpty then some m.recordRoutes
  else if m.isRequest && !m.routes.isEmpty && d.route.isNone then some m.routes.reverse
  else d.route

/-- The attributes after `update` as transaction client. -/
structure ClientUpdate (d : DialogInfo) (m : SipMessage) (d' : DialogInfo) : Prop where
  callId : d'.callId = (d.callId <|> some m.callId)
  localName : d'.localName = (d.localName <|> some m.fromName)
  remoteName : d'.remoteName = (d.remoteName <|> some m.toName)
  localTag : d'.localTag = (d.localTag <|> m.fromTag)
  remoteTag : d'.remoteTag = m.toTag
  localContact : d'.localContact =
    if m.isRequest then contactOr m d.localContact else d.localContact
  remoteContact : d'.remoteContact =
    if m.isRequest then d.remoteContact else contactOr m d.remoteContact
  localCSeq : d'.localCSeq = max d.localCSeq m.cseq
  route : d'.route = clientRoute d m

/-- The attributes after `update` as transaction server. -/
structure ServerUpdate (d : DialogInfo) (m : SipMessage) (d' : DialogInfo) : Prop where
  callId : d'.callId = (d.callId <|> some m.callId)
  localName : d'.localName = (d.localName <|> some m.toName)
  remoteName : d'.remoteName = (d.remoteName <|> some m.fromName)
  localTag : d'.localTag = m.toTag
  remoteTag : d'.remoteTag = (d.remoteTag <|> m.fromTag)
  localContact : d'.localContact =
    if m.isResponse then contactOr m d.localContact else d.localContact
  remoteContact : d'.remoteContact =
    if m.isResponse then d.remoteContact else contactOr m d.remoteContact
  remoteCSeq : d'.remoteCSeq = max d.remoteCSeq m.cseq
  route : d'.route = serverRoute d m

/-- Everything but the contacts, or everything but the route set, or but the secure flag. -/
theorem updateContact_eq (d : DialogInfo) (isClient : Bool) (m : SipMessage) :
    d.updateContact isClient m = { d with
      localContact := if (isClient && m.isRequest) || (!isClient && m.isResponse) then
        contactOr m d.localContact else d.localContact
      remoteContact := if (isClient && m.isRequest) || (!isClient && m.isResponse) then
        d.remoteContact else contactOr m d.remoteContact } := by
  unfold updateContact contactOr
  cases m.contact with
  | none => simp
  | some c =>
    dsimp only
    split <;> rfl

theorem updateRouteClient_eq (d : DialogInfo) (m : SipMessage) :
    d.updateRouteClient m = { d with route := clientRoute d m } := by
  unfold updateRouteClient clientRoute
  dsimp only
  split <;> split <;> rfl

theorem updateRouteServer_eq (d : DialogInfo) (m : SipMessage) :
    d.updateRouteServer m = { d with route := serverRoute d m } := by
  unfold updateRouteServer serverRoute
  dsimp only
  split <;> split <;> rfl

theorem updateSecure_eq (d : DialogInfo) (m : SipMessage) :
    ∃ secure, d.updateSecure m = { d with secure := secure } := by
  unfold updateSecure
  split
  · exact ⟨d.secure, rfl⟩
  · exact ⟨_, rfl⟩

theorem update_client (d : DialogInfo) (m : SipMessage) :
    ClientUpdate d m (d.update true m) := by
  unfold update
  dsimp only [if_true]
  rw [if_pos rfl, updateContact_eq, updateRouteClient_eq]
  obtain ⟨secure, hsecure⟩ := updateSecure_eq _ m
  rw [hsecure]
  refine ⟨rfl, rfl, rfl, rfl, rfl, ?_, ?_, ?_, rfl⟩
  · simp [updateNamesClient]
  · simp [updateNamesClient]
  · show (if m.cseq > d.localCSeq then m.cseq else d.localCSeq) = max d.localCSeq m.cseq
    split <;> omega

theorem update_server (d : DialogInfo) (m : SipMessage) :
    ServerUpdate d m (d.update false m) := by
  unfold update
  dsimp only
  rw [if_neg (by decide), if_neg (by decide), updateContact_eq, updateRouteServer_eq]
  obtain ⟨secure, hsecure⟩ := updateSecure_eq _ m
  rw [hsecure]
  refine ⟨rfl, rfl, rfl, rfl, rfl, ?_, ?_, ?_, rfl⟩
  · simp [updateNamesServer]
  · simp [updateNamesServer]
  · show (if m.cseq > d.remoteCSeq then m.cseq else d.remoteCSeq) = max d.remoteCSeq m.cseq
    split <;> omega

end DialogInfo
end SoftPhone
