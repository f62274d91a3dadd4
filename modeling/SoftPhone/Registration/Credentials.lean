import SoftPhone.Auth.DigestAuthentication
import SoftPhone.Registration.RegistrationClient

/-!
# The credentials of a registration client

`RegistrationClient` keeps the realm and the `qop` of the last challenge that it answered, and the
nonce that the registrar has given it for the next request.  A REGISTER gets its credentials in two
ways: as the answer to a 401 or 407, by `DigestAuthentication`, or in front of any challenge, with
the next nonce, parameter by parameter.

Credentials are well formed if they have a `qop` only where one was offered, namely one of those that
were offered, and a client nonce and a count exactly if they have a `qop`.  The credentials with a
next nonce never are: they always have a `qop`, even if it is `null`, and no client nonce.  The
others are, if and only if `auth` is among the options, or there are none, and the challenge has no
client nonce and no count itself (`wellFormed_answer_iff`).  So all credentials of a run are well
formed if and only if every step is of the right kind (`wellFormed_run_iff`).
-/

namespace SoftPhone

open SipParser AuthenticationHeader DigestAuthentication

namespace AuthenticationHeader

/-- `getQopOptionsParam`. -/
def getQopOptionsParam (h : AuthenticationHeader) : Option Text := h.getParameter "qop".toList

/-- `getNextnonceParam`. -/
def getNextnonceParam (h : AuthenticationHeader) : Option Text := h.getParameter "nextnonce".toList

end AuthenticationHeader

/-- The user name and the password of a registration client, and `SipStack.regc_auth_attempts`. -/
structure Login where
  username : Option Text
  passwd : Option Text
  regcAuthAttempts : ℕ := 3

/-- The fields of class `RegistrationClient` of which credentials are made. -/
structure CredentialFields where
  realm : Option Text
  nextNonce : Option Text := none
  qop : Option Text := none
  attempts : ℕ := 0
  deriving DecidableEq

/-- What happens to a registration client: it registers, or a response is received.  A failure comes
with the challenges of the response, the request URI of the transaction, and four random bytes. -/
inductive CredentialEvent where
  | register (uri : Text)
  | unregisterall
  | success (info : Option AuthenticationHeader)
  | failure (code : ℤ) (www proxy : Option AuthenticationHeader) (uri : Text) (random : List UInt8)

namespace CredentialFields

/-! ## The steps -/

section Steps

variable (md5 : List UInt8 → List UInt8) (charset : Charset) (login : Login) (c : CredentialFields)

/-- The parameters that `register` adds in front of the response.  A null value is written as a
word. -/
def nextNonceCalls (username realm nonce uri : Text) : List AddCall :=
  [.quoted "username".toList username, .quoted "realm".toList realm, .quoted "nonce".toList nonce,
    .quoted "uri".toList uri, .unquoted "qop".toList (c.qop.getD "null".toList)]

/-- The credentials of a new REGISTER; none are there without a next nonce, or there is a null
pointer. -/
def authorization (uri : Text) : Option (List AddCall) := do
  let nonce ← c.nextNonce
  let username ← login.username
  let realm ← c.realm
  let cs := c.nextNonceCalls username realm nonce uri
  let ah := cs.foldl add ⟨true, "Digest".toList⟩
  let response :=
    (ofAuthorization "REGISTER".toList ah none login.passwd).getResponse md5 charset
  some (cs ++ [.quoted "response".toList response])

/-- The challenge that a 401 or 407 is answered with credentials for. -/
def challenge (code : ℤ) (www proxy : Option AuthenticationHeader) : Option AuthenticationHeader :=
  if c.attempts < login.regcAuthAttempts then
    if code = 401 then www else if code = 407 then proxy else none
  else none

/-- `realm`, `attempts` and `qop`, as a challenge sets them. -/
def challenged (ah : AuthenticationHeader) (remoteRealm : Text) : CredentialFields :=
  { c with
    realm := if 0 < remoteRealm.length then some remoteRealm else c.realm
    attempts := c.attempts + 1
    qop := ah.getQopOptionsParam.map fun _ => "auth".toList }

/-- The credentials that a challenge is answered with; none is a null pointer. -/
def answer (ah : AuthenticationHeader) (uri : Text) (random : List UInt8) : Option (List AddCall) :=
  (ofChallenge random "REGISTER".toList (some uri) ah c.qop none 0 none login.username
    login.passwd).addCalls md5 charset

/-- One step: the fields, and the credentials that are put into a REGISTER. -/
def step : CredentialEvent → CredentialFields × Option (List AddCall)
  | .register uri =>
    ({ c with attempts := 0 }, { c with attempts := 0 }.authorization md5 charset login uri)
  | .unregisterall => ({ c with attempts := 0 }, none)
  | .success none => (c, none)
  | .success (some info) => ({ c with nextNonce := info.getNextnonceParam }, none)
  | .failure code www proxy uri random =>
    match c.challenge login code www proxy with
    | none => (c, none)
    | some ah =>
      match ah.getRealmParam with
      | none => (c, none)
      | some remoteRealm =>
        let c := c.challenged ah remoteRealm
        (c, c.answer md5 charset login ah uri random)

end Steps

end CredentialFields

/-! ## Runs -/

/-- Credentials that were sent, and the options of the last challenge before. -/
structure SentCredentials where
  offered : Option Text
  calls : List AddCall

/-- A registration client, with the options of the last challenge that was answered, and what was
sent, the latest first. -/
structure CredentialRun where
  client : CredentialFields
  offered : Option Text := none
  sent : List SentCredentials := []

namespace CredentialRun

section Runs

variable (md5 : List UInt8 → List UInt8) (charset : Charset) (login : Login)

/-- The challenge that is answered in a step. -/
def answered (c : CredentialFields) : CredentialEvent → Option AuthenticationHeader
  | .failure code www proxy _ _ => (c.challenge login code www proxy).filter fun ah =>
    ah.getRealmParam ≠ none
  | _ => none

/-- One step of a run. -/
def step (s : CredentialRun) (e : CredentialEvent) : CredentialRun :=
  let p := s.client.step md5 charset login e
  let offered := match answered login s.client e with
    | none => s.offered
    | some ah => ah.getQopOptionsParam
  { client := p.1
    offered := offered
    sent := match p.2 with
      | none => s.sent
      | some calls => ⟨offered, calls⟩ :: s.sent }

/-- The run from a client that is new. -/
def run (realm : Option Text) (es : List CredentialEvent) : CredentialRun :=
  es.foldl (step md5 charset login) { client := { realm } }

end Runs

end CredentialRun

/-! ## Well-formed credentials -/

/-- The options of a challenge: words with commas between them. -/
def qopOptions (options : Text) : List Text := (options.splitOn ',').map trim

namespace SentCredentials

/-- The parameter is there. -/
def Has (x : SentCredentials) (name : Text) : Prop := ∃ c ∈ x.calls, c.name = name

/-- A `qop` is one that was offered, and there are a client nonce and a count exactly if there is a
`qop`. -/
structure WellFormed (x : SentCredentials) : Prop where
  qop : ∀ c ∈ x.calls, c.name = "qop".toList → ∃ options ∈ x.offered, c.value ∈ qopOptions options
  cnonce : x.Has "cnonce".toList ↔ x.Has "qop".toList
  nc : x.Has "nc".toList ↔ x.Has "qop".toList

end SentCredentials

/-! ## What is sent -/

namespace CredentialFields

section Sent

variable {md5 : List UInt8 → List UInt8} {charset : Charset} {login : Login} {c : CredentialFields}

/-- No credentials are computed: the failure is no challenge, or there is a null pointer. -/
theorem step_unanswered {code : ℤ} {www proxy : Option AuthenticationHeader} {uri : Text}
    {random : List UInt8}
    (h : c.challenge login code www proxy = none ∨
      ∃ ah, c.challenge login code www proxy = some ah ∧ ah.getRealmParam = none) :
    c.step md5 charset login (.failure code www proxy uri random) = (c, none) := by
  rcases h with h | ⟨ah, h, hrealm⟩
  · rw [step, h]
  · rw [step, h]
    dsimp only
    rw [hrealm]

/-- A challenge is answered. -/
theorem step_answered {code : ℤ} {www proxy : Option AuthenticationHeader} {uri realm : Text}
    {random : List UInt8} {ah : AuthenticationHeader}
    (h : c.challenge login code www proxy = some ah) (hrealm : ah.getRealmParam = some realm) :
    c.step md5 charset login (.failure code www proxy uri random) =
      (c.challenged ah realm, (c.challenged ah realm).answer md5 charset login ah uri random) := by
  rw [step, h]
  dsimp only
  rw [hrealm]

/-- What is sent with a next nonce. -/
theorem authorization_eq_some {uri : Text} {cs : List AddCall}
    (h : c.authorization md5 charset login uri = some cs) :
    ∃ username realm nonce response,
      cs = c.nextNonceCalls username realm nonce uri ++ [.quoted "response".toList response] := by
  unfold authorization at h
  simp only [Option.bind_eq_bind, Option.bind_eq_some_iff] at h
  obtain ⟨nonce, -, username, -, realm, -, heq⟩ := h
  exact ⟨username, realm, nonce, _, (Option.some.inj heq).symm⟩

theorem authorization_eq_none_iff (md5 : List UInt8 → List UInt8) (charset : Charset)
    (c : CredentialFields) (uri : Text) :
    c.authorization md5 charset login uri = none ↔
      c.nextNonce = none ∨ login.username = none ∨ c.realm = none := by
  unfold authorization
  cases c.nextNonce with
  | none => simp
  | some nonce =>
    cases login.username with
    | none => simp
    | some username => cases c.realm <;> simp

/-- **Credentials with a next nonce are not well formed**: there is a `qop`, and no client nonce. -/
theorem not_wellFormed_authorization {uri : Text} {cs : List AddCall}
    (h : c.authorization md5 charset login uri = some cs) (offered : Option Text) :
    ¬SentCredentials.WellFormed ⟨offered, cs⟩ := by
  obtain ⟨username, realm, nonce, response, rfl⟩ := authorization_eq_some h
  intro hwf
  have hqop : SentCredentials.Has
      ⟨offered, c.nextNonceCalls username realm nonce uri ++ [.quoted "response".toList response]⟩
      "qop".toList :=
    ⟨.unquoted "qop".toList (c.qop.getD "null".toList), by simp [nextNonceCalls], rfl⟩
  obtain ⟨d, hd, hname⟩ := hwf.cnonce.mpr hqop
  simp only [nextNonceCalls, List.cons_append, List.nil_append, List.mem_cons, List.not_mem_nil,
    or_false] at hd
  rcases hd with rfl | rfl | rfl | rfl | rfl | rfl
  all_goals exact absurd hname (by simp [AddCall.name])

/-- When credentials with a `qop` of ours answer the challenge well. -/
def Answers (ah : AuthenticationHeader) : Prop :=
  ah.getCnonceParam = none ∧ (∀ options ∈ ah.getQopOptionsParam, "auth".toList ∈ qopOptions options) ∧
    (ah.getQopOptionsParam = none → ah.getNcParam = none)

/-- The `qop`, the client nonce and the count of an answer. -/
theorem fields_answer (login : Login) (c : CredentialFields) (ah : AuthenticationHeader)
    (realm uri : Text) (random : List UInt8) :
    let d := ofChallenge random "REGISTER".toList (some uri) ah (c.challenged ah realm).qop none 0
      none login.username login.passwd
    d.qop = (ah.getQopOptionsParam.map fun _ => "auth".toList) ∧
      (d.cnonce ≠ none ↔
        if ah.getQopOptionsParam = none then ah.getCnonceParam ≠ none
        else ah.getCnonceParam = none) ∧
      (d.nc ≠ none ↔ ah.getQopOptionsParam ≠ none ∨ ah.getNcParam ≠ none) := by
  unfold ofChallenge challenged
  cases hoptions : ah.getQopOptionsParam with
  | none =>
    refine ⟨rfl, ?_, ?_⟩
    · rw [if_pos rfl]
      exact Iff.rfl
    · exact (or_iff_right fun h => h rfl).symm
  | some options =>
    refine ⟨rfl, ?_, iff_of_true (Option.some_ne_none _) (.inl (Option.some_ne_none _))⟩
    rw [if_neg (Option.some_ne_none options)]
    show (if ah.getCnonceParam ≠ none then none else some _) ≠ none ↔ _
    split
    · rename_i hne
      exact iff_of_false (fun h => h rfl) hne
    · rename_i hnone
      exact iff_of_true (Option.some_ne_none _) (not_not.mp hnone)

/-- **When the answer to a challenge is well formed.** -/
theorem wellFormed_answer_iff {ah : AuthenticationHeader} {realm uri : Text} {random : List UInt8}
    {cs : List AddCall}
    (h : (c.challenged ah realm).answer md5 charset login ah uri random = some cs) :
    SentCredentials.WellFormed ⟨ah.getQopOptionsParam, cs⟩ ↔ Answers ah := by
  obtain ⟨hqop, hcnonce, hnc⟩ := fields_answer login c ah realm uri random
  unfold answer addCalls at h
  split at h
  · cases h
  set d := ofChallenge random "REGISTER".toList (some uri) ah (c.challenged ah realm).qop none 0
    none login.username login.passwd with hd
  rw [← Option.some.inj h]
  have hnodup := nodup_fields md5 charset d
  have hmemqop : (⟨"qop".toList, false, d.qop⟩ : Field) ∈ d.fields md5 charset := by
    simp [DigestAuthentication.fields]
  have hhas : ∀ name value quoted, (⟨name, quoted, value⟩ : Field) ∈ d.fields md5 charset →
      (SentCredentials.Has ⟨ah.getQopOptionsParam, (d.fields md5 charset).filterMap Field.call⟩ name ↔
        value ≠ none) := fun name value quoted hmem => exists_call_iff hnodup hmem
  have hhasqop := hhas "qop".toList d.qop false hmemqop
  have hhascnonce := hhas "cnonce".toList d.cnonce true (by simp [DigestAuthentication.fields])
  have hhasnc := hhas "nc".toList d.nc false (by simp [DigestAuthentication.fields])
  have hsome : d.qop ≠ none ↔ ah.getQopOptionsParam ≠ none := by
    rw [hqop]
    exact not_congr Option.map_eq_none_iff
  constructor
  · intro hwf
    have hc := hhascnonce.symm.trans (hwf.cnonce.trans hhasqop)
    have hn := hhasnc.symm.trans (hwf.nc.trans hhasqop)
    rw [hcnonce, hsome] at hc
    rw [hnc, hsome] at hn
    refine ⟨?_, fun options hoptions => ?_, fun hnone => ?_⟩
    · by_cases hnone : ah.getQopOptionsParam = none
      · rw [if_pos hnone] at hc
        exact not_not.mp fun hne => hc.mp hne hnone
      · rw [if_neg hnone] at hc
        exact hc.mpr hnone
    · obtain ⟨x, hx, hname⟩ := hhasqop.mpr (hsome.mpr (Option.ne_none_iff_exists'.mpr ⟨_, hoptions⟩))
      obtain ⟨options', hoptions', hmem⟩ := hwf.qop x hx hname
      have hvalue := value_of_mem hnodup hmemqop hx hname
      have hauth : d.qop = some "auth".toList := by rw [hqop, Option.mem_def.mp hoptions]; rfl
      rw [← Option.some.inj (hvalue.symm.trans hauth)]
      rwa [Option.some.inj (hoptions.symm.trans hoptions')]
    · exact not_not.mp fun hne => hn.mp (.inr hne) hnone
  · rintro ⟨hnocnonce, hauth, hnonc⟩
    refine ⟨fun x hx hname => ?_, ?_, ?_⟩
    · have hvalue := value_of_mem hnodup hmemqop hx hname
      obtain ⟨options, hoptions⟩ := Option.ne_none_iff_exists'.mp
        (hsome.mp (Option.ne_none_iff_exists'.mpr ⟨x.value, hvalue⟩))
      have hq : d.qop = some "auth".toList := by rw [hqop, hoptions]; rfl
      have heq : x.value = "auth".toList := Option.some.inj (hvalue.symm.trans hq)
      exact ⟨options, hoptions, heq ▸ hauth options hoptions⟩
    · rw [hhascnonce, hhasqop, hcnonce, hsome]
      split
      · rename_i hnone
        exact iff_of_false (fun hne => hne hnocnonce) fun hne => hne hnone
      · rename_i hne
        exact iff_of_true hnocnonce hne
    · rw [hhasnc, hhasqop, hnc, hsome]
      refine ⟨fun hor => hor.elim id fun hne hnone => hne (hnonc hnone), .inl⟩

end Sent

end CredentialFields

/-! ## Every run -/

namespace CredentialRun

section WellFormed

variable {md5 : List UInt8 → List UInt8} {charset : Charset} {login : Login}

/-- A step that sends no credentials, or the answer to a challenge with `auth` among its options, or
without any. -/
def Meets (login : Login) (c : CredentialFields) : CredentialEvent → Prop
  | .register _ => c.nextNonce = none ∨ login.username = none ∨ c.realm = none
  | .failure code www proxy _ _ => ∀ ah ∈ c.challenge login code www proxy,
    ah.getRealmParam = none ∨ ah.getNonceParam = none ∨ login.username = none ∨
      CredentialFields.Answers ah
  | _ => True

theorem answer_eq_none_iff {c : CredentialFields} {ah : AuthenticationHeader} {uri : Text}
    {random : List UInt8} :
    c.answer md5 charset login ah uri random = none ↔
      login.username = none ∨ ah.getRealmParam = none ∨ ah.getNonceParam = none := by
  unfold CredentialFields.answer addCalls
  rw [ite_eq_left_iff, imp_iff_not (Option.some_ne_none _), not_not]
  unfold ofChallenge
  split
  · exact or_congr_right (or_congr_right (or_iff_left (Option.some_ne_none uri)))
  · exact or_congr_right (or_congr_right (or_iff_left (Option.some_ne_none uri)))

/-- **When the answer to a challenge is well formed**, if there is one. -/
theorem forall_answer_iff {c : CredentialFields} {ah : AuthenticationHeader} {realm uri : Text}
    (hrealm : ah.getRealmParam = some realm) {random : List UInt8} :
    (∀ cs ∈ (c.challenged ah realm).answer md5 charset login ah uri random,
      SentCredentials.WellFormed ⟨ah.getQopOptionsParam, cs⟩) ↔
      ah.getNonceParam = none ∨ login.username = none ∨ CredentialFields.Answers ah := by
  cases hcs : (c.challenged ah realm).answer md5 charset login ah uri random with
  | none =>
    refine iff_of_true nofun ?_
    rcases answer_eq_none_iff.mp hcs with hname | hnull | hnonce
    · exact .inr (.inl hname)
    · rw [hrealm] at hnull
      cases hnull
    · exact .inl hnonce
  | some cs =>
    have hsent : ¬(login.username = none ∨ ah.getRealmParam = none ∨ ah.getNonceParam = none) :=
      fun hnone => by
        rw [answer_eq_none_iff.mpr hnone] at hcs
        cases hcs
    rw [not_or, not_or] at hsent
    have hwf := CredentialFields.wellFormed_answer_iff hcs
    refine ⟨fun h => .inr (.inr (hwf.mp (h cs rfl))), fun h calls hcalls => ?_⟩
    rw [← Option.some.inj hcalls]
    refine hwf.mpr ?_
    rcases h with hnonce | hname | hans
    · exact absurd hnonce hsent.2.2
    · exact absurd hname hsent.1
    · exact hans

/-- What a step adds to what was sent. -/
theorem forall_sent_step (s : CredentialRun) (e : CredentialEvent) (offered : Option Text)
    (hoffered : offered = match answered login s.client e with
      | none => s.offered
      | some ah => ah.getQopOptionsParam) :
    (∀ x ∈ (s.step md5 charset login e).sent, x.WellFormed) ↔
      (∀ x ∈ s.sent, x.WellFormed) ∧ ∀ calls ∈ (s.client.step md5 charset login e).2,
        SentCredentials.WellFormed ⟨offered, calls⟩ := by
  unfold CredentialRun.step
  dsimp only
  rw [← hoffered]
  cases (s.client.step md5 charset login e).2 with
  | none => exact ⟨fun h => ⟨h, nofun⟩, fun h => h.1⟩
  | some calls =>
    rw [List.forall_mem_cons, and_comm]
    exact and_congr_right fun _ => ⟨fun h calls hcalls => Option.some.inj hcalls ▸ h, fun h => h _ rfl⟩

/-- **What one step sends is well formed** if and only if the step is of the right kind. -/
theorem wellFormed_step_iff (s : CredentialRun) (e : CredentialEvent) :
    (∀ x ∈ (s.step md5 charset login e).sent, x.WellFormed) ↔
      (∀ x ∈ s.sent, x.WellFormed) ∧ Meets login s.client e := by
  rw [forall_sent_step s e _ rfl]
  refine and_congr_right fun _ => ?_
  cases e with
  | register uri =>
    show (∀ calls ∈ { s.client with attempts := 0 }.authorization md5 charset login uri, _) ↔
      s.client.nextNonce = none ∨ login.username = none ∨ s.client.realm = none
    rw [← CredentialFields.authorization_eq_none_iff md5 charset { s.client with attempts := 0 } uri]
    cases hcs : { s.client with attempts := 0 }.authorization md5 charset login uri with
    | none => exact iff_of_true nofun rfl
    | some cs =>
      refine iff_of_false (fun h => ?_) (Option.some_ne_none cs)
      exact CredentialFields.not_wellFormed_authorization hcs _ (h cs rfl)
  | unregisterall => exact iff_of_true nofun trivial
  | success info => cases info <;> exact iff_of_true nofun trivial
  | failure code www proxy uri random =>
    cases hch : s.client.challenge login code www proxy with
    | none =>
      rw [CredentialFields.step_unanswered (.inl hch)]
      refine iff_of_true nofun fun ah hah => ?_
      rw [hch] at hah
      cases hah
    | some ah =>
      have hmeets : Meets login s.client (.failure code www proxy uri random) ↔
          ah.getRealmParam = none ∨ ah.getNonceParam = none ∨ login.username = none ∨
            CredentialFields.Answers ah :=
        ⟨fun h => h ah hch, fun h a ha => Option.some.inj (hch.symm.trans ha) ▸ h⟩
      rw [hmeets]
      cases hrealm : ah.getRealmParam with
      | none =>
        rw [CredentialFields.step_unanswered (.inr ⟨ah, hch, hrealm⟩)]
        exact iff_of_true nofun (.inl rfl)
      | some remoteRealm =>
        have hanswered : answered login s.client (.failure code www proxy uri random) = some ah := by
          rw [answered, hch]
          exact Option.filter_eq_some_iff.mpr ⟨rfl, by simp [hrealm]⟩
        rw [CredentialFields.step_answered hch hrealm, hanswered, ← hrealm,
          or_iff_right (hrealm ▸ Option.some_ne_none remoteRealm)]
        exact forall_answer_iff hrealm

/-- **All credentials of a run are well formed** if and only if every step is of the right kind:
none has a next nonce, and every challenge that is answered has `auth` among its options, or has no
options, and has no client nonce and no count itself. -/
theorem wellFormed_run_iff (md5 : List UInt8 → List UInt8) (charset : Charset) (login : Login)
    (realm : Option Text) (es : List CredentialEvent) :
    (∀ x ∈ (run md5 charset login realm es).sent, x.WellFormed) ↔
      ∀ pre e, pre ++ [e] <+: es → Meets login (run md5 charset login realm pre).client e := by
  induction es using List.reverseRecOn with
  | nil =>
    refine iff_of_true nofun fun pre e hpre => ?_
    exact absurd (List.prefix_nil.mp hpre) (by simp)
  | append_singleton es e ih =>
    have hrun : run md5 charset login realm (es ++ [e]) =
        (run md5 charset login realm es).step md5 charset login e := List.foldl_concat ..
    rw [hrun, wellFormed_step_iff, ih]
    constructor
    · rintro ⟨hes, he⟩ pre e' hpre
      rcases List.prefix_concat_iff.mp hpre with heq | hpre
      · obtain ⟨rfl, he'⟩ := List.append_inj' heq rfl
        obtain rfl := List.singleton_inj.mp he'
        exact he
      · exact hes pre e' hpre
    · exact fun h => ⟨fun pre e' hpre => h pre e' (hpre.trans (List.prefix_append es [e])),
        h es e List.prefix_rfl⟩

/-- A challenge that offers `auth-int` only. -/
def integrityChallenge : AuthenticationHeader where
  value := "Digest realm=\"r\", nonce=\"n\", qop=\"auth-int\"".toList

/-- **It is answered with `auth`.** -/
theorem integrityChallenge_not_wellFormed :
    ¬∀ es, ∀ x ∈ (run id Charset.latin1 ⟨some "alice".toList, some "secret".toList, 3⟩
      (some "r".toList) es).sent, x.WellFormed := by
  intro hall
  have hstep := hall [.failure 401 (some integrityChallenge) none "sip:r".toList [0, 0, 0, 0]]
  have hmeets := ((wellFormed_step_iff _ _).mp hstep).2 integrityChallenge rfl
  rcases hmeets with hrealm | hnonce | hname | hans
  · exact absurd hrealm (by decide)
  · exact absurd hnonce (by decide)
  · exact absurd hname (by decide)
  · have hauth := hans.2.1 "auth-int".toList (by decide)
    exact absurd hauth (by decide)

end WellFormed

end CredentialRun

/-! ## The client as a whole -/

/-- The fields of a registration client, with their texts. -/
structure RegistrationClient.Agrees (r : RegistrationClient) (c : CredentialFields) : Prop where
  realm : r.realm.map String.toList = c.realm
  nextNonce : r.nextNonce.map String.toList = c.nextNonce
  qop : r.qop.map String.toList = c.qop
  attempts : r.attempts = c.attempts

/-- **A challenge sets the same fields of both.** -/
theorem RegistrationClient.Agrees.challenged {r : RegistrationClient} {c : CredentialFields}
    (h : r.Agrees c) {ch : Challenge} {ah : AuthenticationHeader}
    (hoptions : ch.qopOptions.map String.toList = ah.getQopOptionsParam) (realm : String) :
    (r.challenged ch realm).Agrees (c.challenged ah realm.toList) where
  realm := by
    show (if 0 < realm.length then some realm else r.realm).map String.toList =
      if 0 < realm.toList.length then some realm.toList else c.realm
    rw [String.length_toList, apply_ite (Option.map String.toList), h.realm]
    rfl
  nextNonce := h.nextNonce
  qop := by
    show (ch.qopOptions.map fun _ => "auth").map String.toList =
      ah.getQopOptionsParam.map fun _ => "auth".toList
    rw [← hoptions, Option.map_map, Option.map_map]
    rfl
  attempts := congrArg (· + 1) h.attempts

/-- **Both put credentials into a new REGISTER**, or neither does. -/
theorem RegistrationClient.Agrees.authorization {r : RegistrationClient} {c : CredentialFields}
    (h : r.Agrees c) {A : RegistrationAccount} {login : Login}
    (hname : A.username.map String.toList = login.username) (req : SipMessage) (uri : Text)
    (md5 : List UInt8 → List UInt8) (charset : Charset) :
    (∃ x, r.authorization A req = some (some x)) ↔
      c.authorization md5 charset login uri ≠ none := by
  rw [Ne, CredentialFields.authorization_eq_none_iff, ← h.nextNonce, ← h.realm, ← hname,
    RegistrationClient.authorization]
  cases r.nextNonce <;> cases A.username <;> cases r.realm <;> simp

end SoftPhone
