import SoftPhone.Machine.Run
import SoftPhone.Text.Destination

/-!
# Class `SipURI`

A SIP URI is made from a user part, a host and a port, and gets its parameters afterwards.  The
accessors look for delimiters in the text.  `getUserName` reads up to the `@`, and `getHost` from the
`@` to the next colon, semicolon or question mark.  `getPort` looks for the first colon behind the
scheme: it finds the one of a password, or of an address in brackets, before the one of the port, and
the one of a parameter if there is no port (`isRead_iff`).

Whether the URI is a SIPS one is in its scheme and in a flag.  The constructor with the argument
`secure` does not set the flag, and `setSecure(false)` does not change the scheme back
(`agrees_iff`).
-/

namespace SoftPhone

open SipParser

/-! ## The parts of a URI -/

/-- A visible character that may stand in a user part, apart from `;` and `?`. -/
def isUserChar (c : Char) : Bool := isChar c && !([':', '@', '"', '<', '>'].contains c)

/-- A visible character of a parameter of a URI. -/
def isUriParamChar (c : Char) : Bool :=
  isChar c && !isParamSeparator c && !(['"', '@', '?', '<', '>'].contains c)

/-- A visible character of a host. -/
def isHostChar (c : Char) : Bool := isChar c && !isSeparator c && !([':', '@'].contains c)

/-- The user part, with the password. -/
structure UserInfo where
  user : Text
  password : Option Text := none
  userChars : ∀ c ∈ user, isUserChar c = true := by decide
  passwordChars : ∀ pw ∈ password, ∀ c ∈ pw,
    isUserChar c = true ∧ c ≠ ';' ∧ c ≠ '?' := by decide

/-- A name or an IPv4 address, or an IPv6 address in brackets. -/
inductive Host where
  | name (host : Text) (ne_nil : host ≠ []) (chars : ∀ c ∈ host, isHostChar c = true)
  | ipv6 (addr : Text) (colon : ':' ∈ addr)
      (chars : ∀ c ∈ addr, c = ':' ∨ isHostChar c = true)

/-- A parameter of a URI. -/
structure UriParam where
  name : Text
  value : Option Text := none
  ne_nil : name ≠ [] := by decide
  nameChars : ∀ c ∈ name, isUriParamChar c = true := by decide
  valueChars : ∀ v ∈ value, v ≠ [] ∧ ∀ c ∈ v, isUriParamChar c = true := by decide

namespace UserInfo

def toText (u : UserInfo) : Text :=
  u.user ++ match u.password with
    | none => []
    | some pw => ':' :: pw

end UserInfo

namespace Host

def toText : Host → Text
  | name host _ _ => host
  | ipv6 addr _ _ => '[' :: (addr ++ [']'])

/-- The host is not an address in brackets. -/
def IsName (h : Host) : Prop := '[' ∉ h.toText

end Host

namespace GenericURI

/-- `addParameter(name,value)`. -/
def addParameter (name : Text) (value : Option Text) (uri : Text) : Text :=
  match value with
  | some v => uri ++ ';' :: name ++ '=' :: v
  | none => uri ++ ';' :: name

end GenericURI

namespace UriParam

def toText (p : UriParam) : Text := ';' :: (p.name ++ ViaHeader.addedText p.value)

theorem addParameter_eq (p : UriParam) (uri : Text) :
    GenericURI.addParameter p.name p.value uri = uri ++ p.toText := by
  unfold GenericURI.addParameter toText ViaHeader.addedText
  cases p.value <;> simp

end UriParam

namespace SipURI

/-- `init`. -/
def init (username : Option Text) (hostname : Text) (portnumber : ℤ) (secure : Bool) : Text :=
  (if secure then "sips:".toList else "sip:".toList) ++
    (match username with
      | none => []
      | some username => username ++ ['@']) ++
    hostname ++ if portnumber > 0 then ':' :: valueOf portnumber else []

/-- `getUserName`. -/
def getUserName (uri : Text) : Option Text :=
  let s := (goTo ':' uri).tail
  if '@' ∈ s then some (s.takeWhile (· != '@')) else none

end SipURI

/-- What a SIP URI is made from. -/
structure SipUriParts where
  secure : Bool := false
  user : Option UserInfo := none
  host : Host
  port : Option ℤ := none
  params : List UriParam := []
  portRange : ∀ p ∈ port, 0 < p ∧ p ≤ 2147483647 := by decide

namespace SipUriParts

theorem portRange_none : ∀ p ∈ (none : Option ℤ), 0 < p ∧ p ≤ 2147483647 := by decide

/-- The URI that is constructed, with its parameters added. -/
def toText (u : SipUriParts) : Text :=
  u.params.foldl (fun uri p => GenericURI.addParameter p.name p.value uri)
    (SipURI.init (u.user.map UserInfo.toText) u.host.toText (u.port.getD (-1)) u.secure)

/-- The text of the parameters. -/
def paramsText (params : List UriParam) : Text := params.flatMap UriParam.toText

/-- The text of the port. -/
def portText (port : Option ℤ) : Text :=
  match port with
  | none => []
  | some p => ':' :: valueOf p

/-- What stands behind the user part. -/
def hostText (u : SipUriParts) : Text := u.host.toText ++ (portText u.port ++ paramsText u.params)

/-- What stands behind the scheme. -/
def behindScheme (u : SipUriParts) : Text :=
  match u.user with
  | none => u.hostText
  | some user => user.toText ++ '@' :: u.hostText

/-- The accessors return the parts that the URI was made from. -/
structure IsRead (u : SipUriParts) : Prop where
  userName : SipURI.getUserName u.toText = u.user.map UserInfo.toText
  host : SipURI.getHost u.toText = u.host.toText
  port : SipURI.getPort u.toText = some (u.port.getD (-1))

/-- No password and no address in brackets; and without a port, what stands behind the first colon of
the parameters, if there is one, reads as -1. -/
structure ColonFree (u : SipUriParts) : Prop where
  password : ∀ user ∈ u.user, user.password = none
  host : u.host.IsName
  port : u.port = none → ∀ a b, paramsText u.params = a ++ ':' :: b → ':' ∉ a →
    parseInt (b.takeWhile (· != ';')) = some (-1)

/-! ## Which characters a part has -/

theorem isUserChar_ne {c : Char} (h : isUserChar c = true) :
    isChar c = true ∧ c ≠ ':' ∧ c ≠ '@' ∧ c ≠ '"' := by
  unfold isUserChar at h
  simp only [Bool.and_eq_true, Bool.not_eq_true', List.contains_eq_mem, decide_eq_false_iff_not,
    List.mem_cons, not_or] at h
  exact ⟨h.1, h.2.1, h.2.2.1, h.2.2.2.1⟩

theorem isUriParamChar_ne {c : Char} (h : isUriParamChar c = true) :
    isParamSeparator c = false ∧ c ≠ '"' ∧ c ≠ '@' ∧ c ≠ '?' := by
  unfold isUriParamChar at h
  simp only [Bool.and_eq_true, Bool.not_eq_true', List.contains_eq_mem, decide_eq_false_iff_not,
    List.mem_cons, not_or] at h
  exact ⟨h.1.2, h.2.1, h.2.2.1, h.2.2.2.1⟩

theorem isHostChar_ne {c : Char} (h : isHostChar c = true) :
    isChar c = true ∧ isSeparator c = false ∧ c ≠ ':' ∧ c ≠ '@' := by
  unfold isHostChar at h
  simp only [Bool.and_eq_true, Bool.not_eq_true', List.contains_eq_mem, decide_eq_false_iff_not,
    List.mem_cons, not_or] at h
  exact ⟨h.1.1, h.1.2, h.2.1, h.2.2.1⟩

/-- A semicolon or a character of a parameter or the sign between name and value. -/
theorem mem_paramsText {params : List UriParam} {c : Char} (h : c ∈ paramsText params) :
    c = ';' ∨ c = '=' ∨ isUriParamChar c = true := by
  obtain ⟨p, -, hc⟩ := List.mem_flatMap.mp h
  rcases List.mem_cons.mp hc with rfl | hc
  · exact .inl rfl
  · rcases List.mem_append.mp hc with hc | hc
    · exact .inr (.inr (p.nameChars c hc))
    · unfold ViaHeader.addedText at hc
      split at hc
      · exact absurd hc List.not_mem_nil
      · rename_i v hv
        rcases List.mem_cons.mp hc with rfl | hc
        · exact .inr (.inl rfl)
        · exact .inr (.inr ((p.valueChars v hv).2 c hc))

/-- The parameters begin with a semicolon. -/
theorem head_paramsText (params : List UriParam) :
    ∀ c ∈ (paramsText params).head?, c = ';' := by
  cases params with
  | nil => exact fun c hc => absurd hc (by simp [paramsText])
  | cons p params => exact fun c hc => (Option.some.inj hc).symm

/-- The port begins with a colon. -/
theorem head_portText (u : SipUriParts) :
    ∀ c ∈ (portText u.port ++ paramsText u.params).head?, c = ':' ∨ c = ';' := by
  intro c hc
  cases hport : u.port with
  | none =>
    rw [hport] at hc
    exact .inr (head_paramsText u.params c hc)
  | some p =>
    rw [hport] at hc
    exact .inl (Option.some.inj hc).symm

variable (u : SipUriParts)

theorem not_at_hostText : '@' ∉ u.hostText := by
  have hhost : '@' ∉ u.host.toText := by
    cases u.host with
    | name host _ hchars => exact fun h => (isHostChar_ne (hchars _ h)).2.2.2 rfl
    | ipv6 addr _ hchars =>
      intro h
      rw [Host.toText, List.mem_cons, List.mem_append, List.mem_singleton] at h
      rcases h with h | h | h
      · exact absurd h (by decide)
      · rcases hchars _ h with h | h
        · exact absurd h (by decide)
        · exact (isHostChar_ne h).2.2.2 rfl
      · exact absurd h (by decide)
  have hport : '@' ∉ portText u.port := by
    intro h
    unfold portText at h
    split at h
    · exact absurd h List.not_mem_nil
    · rename_i p hp
      rcases List.mem_cons.mp h with h | h
      · exact absurd h (by decide)
      · exact absurd (isDigit_valueOf (by have := u.portRange p hp; omega) h) (by decide)
  have hparams : '@' ∉ paramsText u.params := by
    intro h
    rcases mem_paramsText h with h | h | h
    · exact absurd h (by decide)
    · exact absurd h (by decide)
    · exact (isUriParamChar_ne h).2.2.1 rfl
  rw [hostText, List.mem_append, List.mem_append, not_or, not_or]
  exact ⟨hhost, hport, hparams⟩

theorem not_at_user (user : UserInfo) : '@' ∉ user.toText := by
  rw [UserInfo.toText, List.mem_append, not_or]
  refine ⟨fun h => (isUserChar_ne (user.userChars _ h)).2.2.1 rfl, fun h => ?_⟩
  split at h
  · exact absurd h List.not_mem_nil
  · rename_i pw hpw
    rcases List.mem_cons.mp h with h | h
    · exact absurd h (by decide)
    · exact (isUserChar_ne (user.passwordChars pw hpw _ h).1).2.2.1 rfl

/-! ## The text -/

/-- Adding the parameters one by one. -/
theorem foldl_addParameter (params : List UriParam) (uri : Text) :
    params.foldl (fun uri p => GenericURI.addParameter p.name p.value uri) uri =
      uri ++ paramsText params := by
  induction params generalizing uri with
  | nil => exact (List.append_nil uri).symm
  | cons p params ih =>
    rw [List.foldl_cons, ih, p.addParameter_eq, List.append_assoc]
    rfl

/-- **The scheme, and what stands behind it.** -/
theorem toText_eq :
    u.toText = (if u.secure then "sips".toList else "sip".toList) ++ ':' :: u.behindScheme := by
  have hport : (if u.port.getD (-1) > 0 then ':' :: valueOf (u.port.getD (-1)) else []) =
      portText u.port := by
    cases hp : u.port with
    | none => rfl
    | some p => exact if_pos (u.portRange p hp).1
  rw [toText, foldl_addParameter, behindScheme, hostText]
  unfold SipURI.init
  rw [hport]
  cases u.secure <;> cases u.user <;> simp

theorem goTo_toText : (goTo ':' u.toText).tail = u.behindScheme := by
  rw [toText_eq]
  cases u.secure <;> rfl

/-- The user part is read up to the `@`. -/
theorem getUserName_eq : SipURI.getUserName u.toText = u.user.map UserInfo.toText := by
  unfold SipURI.getUserName
  rw [goTo_toText, behindScheme]
  cases u.user with
  | none => exact if_neg u.not_at_hostText
  | some user =>
    have hrun : ∀ c ∈ user.toText, (c != '@') = true := bne_of_not_mem (not_at_user user)
    dsimp only
    rw [if_pos (by simp), (takeWhile_run hrun (by simp)).1]
    rfl

/-- The host is read from the `@` on, or from the scheme on. -/
theorem getHost_eq :
    SipURI.getHost u.toText = u.hostText.takeWhile (!SipURI.isHostTerminator ·) := by
  unfold SipURI.getHost
  dsimp only
  cases huser : u.user with
  | none =>
    have hbehind : u.behindScheme = u.hostText := by
      rw [behindScheme, huser]
    have hnot : '@' ∉ u.toText := by
      rw [toText_eq, hbehind, List.mem_append, List.mem_cons, not_or, not_or]
      refine ⟨?_, by decide, u.not_at_hostText⟩
      cases u.secure <;> decide
    rw [if_neg hnot, goTo_toText, hbehind]
  | some user =>
    have hbehind : u.behindScheme = user.toText ++ '@' :: u.hostText := by
      rw [behindScheme, huser]
    have hgo : goTo '@' u.toText = '@' :: u.hostText := by
      rw [toText_eq, hbehind, ← List.cons_append, ← List.append_assoc]
      refine goTo_append (fun hc => ?_) _
      rcases List.mem_append.mp hc with hc | hc
      · revert hc
        cases u.secure <;> decide
      · rcases List.mem_cons.mp hc with hc | hc
        · exact absurd hc (by decide)
        · exact not_at_user user hc
    have hmem : '@' ∈ u.toText := by
      rw [toText_eq, hbehind]
      simp
    rw [if_pos hmem, hgo, List.tail_cons]

/-- **A name is read, and an address in brackets is cut at its first colon.** -/
theorem getHost_iff : SipURI.getHost u.toText = u.host.toText ↔ u.host.IsName := by
  rw [getHost_eq, hostText, Host.IsName]
  have hcolon : ':' ∉ (u.host.toText ++ (portText u.port ++ paramsText u.params)).takeWhile
      (!SipURI.isHostTerminator ·) := fun h => absurd (List.mem_takeWhile_imp h) (by decide)
  cases hhost : u.host with
  | name host _ hchars =>
    have hrun : ∀ c ∈ host, (!SipURI.isHostTerminator c) = true := by
      intro c hc
      obtain ⟨-, hsep, hcolon, -⟩ := isHostChar_ne (hchars c hc)
      have hne : c ≠ ';' ∧ c ≠ '?' := by
        constructor <;> rintro rfl <;> exact absurd hsep (by decide)
      simp [SipURI.isHostTerminator, hcolon, hne]
    refine ⟨fun _ h => ?_, fun _ => (takeWhile_run hrun fun c hc => ?_).1⟩
    · exact absurd (isHostChar_ne (hchars _ h)).2.1 (by decide)
    · rcases u.head_portText c hc with rfl | rfl <;> rfl
  | ipv6 addr hmem _ =>
    rw [hhost] at hcolon
    refine ⟨fun h => absurd ?_ hcolon, fun h => absurd (List.mem_cons_self ..) h⟩
    rw [h]
    exact List.mem_cons_of_mem _ (List.mem_append_left _ hmem)

/-! ## The port -/

theorem parseDigits_eq_none {s : Text} {c : Char} (hc : c ∈ s) (hdigit : c.isDigit = false) :
    parseDigits s = none := by
  unfold parseDigits
  refine if_neg fun h => ?_
  rw [List.all_eq_true] at h
  rw [h.2 c hc] at hdigit
  exact Bool.noConfusion hdigit

/-- A text with an `@` is no number. -/
theorem parseInt_eq_none {s : Text} (h : '@' ∈ s) : parseInt s = none := by
  have hsigned : parseSigned s = none := by
    unfold parseSigned
    split
    · rw [parseDigits_eq_none (List.mem_of_ne_of_mem (by decide) h) (by decide)]
      rfl
    · exact parseDigits_eq_none (List.mem_of_ne_of_mem (by decide) h) (by decide)
    · exact parseDigits_eq_none h (by decide)
  unfold parseInt
  rw [hsigned]
  rfl

/-- The colon of a password is taken for the one of the port. -/
theorem getPort_of_password {user : UserInfo} {pw : Text} (huser : u.user = some user)
    (hpw : user.password = some pw) : SipURI.getPort u.toText = none := by
  have hbehind : u.behindScheme = user.user ++ ':' :: (pw ++ '@' :: u.hostText) := by
    rw [behindScheme, huser]
    dsimp only
    rw [UserInfo.toText, hpw]
    simp
  have hcolon : ':' ∉ user.user := fun hc => (isUserChar_ne (user.userChars ':' hc)).2.1 rfl
  have hgo : goTo ':' (goTo ':' u.toText).tail = ':' :: (pw ++ '@' :: u.hostText) := by
    rw [goTo_toText, hbehind]
    exact goTo_append hcolon _
  unfold SipURI.getPort
  rw [hgo]
  refine parseInt_eq_none ?_
  have hkeep : ∀ c ∈ pw, (c != ';' && c != '?') = true := by
    intro c hc
    obtain ⟨-, hsemi, hquestion⟩ := user.passwordChars pw hpw c hc
    rw [Bool.and_eq_true, bne_iff_ne, bne_iff_ne]
    exact ⟨hsemi, hquestion⟩
  rw [List.takeWhile_append_of_pos hkeep, List.takeWhile_cons_of_pos (by decide)]
  exact List.mem_append_right _ (List.mem_cons_self ..)

/-- The first colon is the one of the port, or stands in the parameters. -/
theorem goTo_port (hpassword : ∀ user ∈ u.user, user.password = none) (hname : u.host.IsName) :
    goTo ':' (goTo ':' u.toText).tail = goTo ':' (portText u.port ++ paramsText u.params) := by
  have hhost : ∀ c ∈ u.host.toText, (c != ':') = true := by
    intro c hc
    rw [bne_iff_ne]
    cases hhost : u.host with
    | name host _ hchars =>
      rw [hhost] at hc
      exact (isHostChar_ne (hchars c hc)).2.2.1
    | ipv6 addr _ _ =>
      rw [hhost] at hname
      exact absurd (List.mem_cons_self ..) hname
  have hhostText : goTo ':' u.hostText = goTo ':' (portText u.port ++ paramsText u.params) := by
    rw [hostText]
    exact List.dropWhile_append_of_pos hhost
  rw [goTo_toText, behindScheme, ← hhostText]
  cases huser : u.user with
  | none => rfl
  | some user =>
    have hchars : ∀ c ∈ user.toText ++ ['@'], (c != ':') = true := by
      intro c hc
      rw [bne_iff_ne]
      rcases List.mem_append.mp hc with hc | hc
      · rw [UserInfo.toText, hpassword user huser, List.append_nil] at hc
        exact (isUserChar_ne (user.userChars c hc)).2.1
      · rw [List.mem_singleton.mp hc]
        decide
    dsimp only
    rw [List.append_cons]
    exact List.dropWhile_append_of_pos hchars

theorem getPort_of_port (hpassword : ∀ user ∈ u.user, user.password = none)
    (hname : u.host.IsName) {p : ℤ} (hp : u.port = some p) :
    SipURI.getPort u.toText = some p := by
  obtain ⟨hpos, hmax⟩ := u.portRange p hp
  have hrun : ∀ c ∈ valueOf p, (c != ';' && c != '?') = true := by
    intro c hc
    have hdigit := isDigit_valueOf (by omega) hc
    rw [Bool.and_eq_true, bne_iff_ne, bne_iff_ne]
    constructor <;>
    · rintro rfl
      exact absurd hdigit (by decide)
  have hhead : ∀ c ∈ (paramsText u.params).head?, (c != ';' && c != '?') = false := by
    intro c hc
    rw [head_paramsText u.params c hc]
    decide
  unfold SipURI.getPort
  rw [u.goTo_port hpassword hname, hp]
  show parseInt (List.takeWhile _ (valueOf p ++ paramsText u.params)) = _
  rw [(takeWhile_run hrun hhead).1, parseInt_valueOf ⟨by omega, hmax⟩]

/-- Without a port, a colon of a parameter is looked for. -/
theorem getPort_of_none (hpassword : ∀ user ∈ u.user, user.password = none)
    (hname : u.host.IsName) (hp : u.port = none) :
    SipURI.getPort u.toText = some (-1) ↔ ∀ a b, paramsText u.params = a ++ ':' :: b → ':' ∉ a →
      parseInt (b.takeWhile (· != ';')) = some (-1) := by
  have hquestion : ∀ c ∈ paramsText u.params, (c != '?') = true := by
    intro c hc
    rw [bne_iff_ne]
    rcases mem_paramsText hc with rfl | rfl | hc
    · decide
    · decide
    · exact (isUriParamChar_ne hc).2.2.2
  unfold SipURI.getPort
  rw [u.goTo_port hpassword hname, hp, portText, List.nil_append]
  by_cases hcolon : ':' ∈ paramsText u.params
  · obtain ⟨a, b, hab, ha⟩ := List.eq_append_cons_of_mem hcolon
    have hgo {a b : Text} (ha : ':' ∉ a) (hab : paramsText u.params = a ++ ':' :: b) :
        goTo ':' (paramsText u.params) = ':' :: b := by
      rw [hab]
      exact goTo_append ha b
    have htake : b.takeWhile (fun c => c != ';' && c != '?') = b.takeWhile (· != ';') := by
      have hsplit := List.takeWhile_append_dropWhile (p := (· != ';')) (l := b)
      have hboth := (takeWhile_run (p := fun c => c != ';' && c != '?')
        (a := b.takeWhile (· != ';')) (b := b.dropWhile (· != ';')) (fun c hc => ?_)
        fun c hc => ?_).1
      · rwa [hsplit] at hboth
      · rw [List.mem_takeWhile_imp hc, hquestion c ?_]
        · rfl
        · rw [hab]
          exact List.mem_append_right _ (List.mem_cons_of_mem _ ((List.takeWhile_prefix _).subset hc))
      · rw [head_dropWhile c hc, Bool.false_and]
    rw [hgo ha hab]
    show parseInt (List.takeWhile _ b) = _ ↔ _
    rw [htake]
    refine ⟨fun h a' b' hab' ha' => ?_, fun h => h a b hab ha⟩
    obtain ⟨-, rfl⟩ := List.cons.inj ((hgo ha hab).symm.trans (hgo ha' hab'))
    exact h
  · rw [goTo_of_not_mem hcolon]
    refine ⟨fun _ a b hab _ => absurd ?_ hcolon, fun _ => rfl⟩
    rw [hab]
    exact List.mem_append_right _ (List.mem_cons_self ..)

/-- **The parts are read again if and only if** there is no colon that is taken for another one. -/
theorem isRead_iff : u.IsRead ↔ u.ColonFree := by
  constructor
  · intro h
    have hhost := u.getHost_iff.mp h.host
    have hpassword : ∀ user ∈ u.user, user.password = none := by
      intro user huser
      cases hpw : user.password with
      | none => rfl
      | some pw =>
        have hport := h.port
        rw [u.getPort_of_password huser hpw] at hport
        exact absurd hport (by simp)
    refine ⟨hpassword, hhost, fun hp => (u.getPort_of_none hpassword hhost hp).mp ?_⟩
    rw [h.port, hp]
    rfl
  · rintro ⟨hpassword, hhost, hnone⟩
    refine ⟨u.getUserName_eq, u.getHost_iff.mpr hhost, ?_⟩
    cases hp : u.port with
    | none => exact (u.getPort_of_none hpassword hhost hp).mpr (hnone hp)
    | some p => exact u.getPort_of_port hpassword hhost hp

end SipUriParts

/-! ## Secure URIs -/

/-- Class `SipURI`: the text, and the flag. -/
structure SipURI where
  uri : Text
  secure : Bool := false
  deriving DecidableEq, Repr

namespace SipURI

/-- `new SipURI(GenericURI)`; `none` is an exception. -/
def ofGenericURI (uri : Text) : Option SipURI :=
  if ':' ∈ uri then
    let scheme := uri.takeWhile (· != ':')
    if scheme = "sips".toList then some ⟨uri, true⟩
    else if scheme = "sip".toList then some ⟨uri, false⟩
    else none
  else none

/-- `new SipURI(String)`. -/
def ofString (uri : Text) : SipURI :=
  if "sips:".toList.isPrefixOf uri then ⟨uri, true⟩ else ⟨sipURI uri, false⟩

/-- The constructors that call `init`. -/
def ofParts (username : Option Text) (hostname : Text) (portnumber : ℤ) (secure : Bool) : SipURI :=
  ⟨init username hostname portnumber secure, false⟩

/-- `setSecure`; `none` is an index out of range. -/
def setSecure (secure : Bool) (u : SipURI) : Option SipURI :=
  if u.secure ≠ secure then
    if ':' ∈ u.uri then some ⟨"sips".toList ++ goTo ':' u.uri, secure⟩ else none
  else some u

/-- A constructor, or a call of `setSecure`. -/
inductive Call where
  | ofGenericURI (uri : Text)
  | ofString (uri : Text)
  | ofParts (username : Option Text) (hostname : Text) (portnumber : ℤ) (secure : Bool)
  | setSecure (secure : Bool)

/-- What the variable holds after the call. -/
def Call.step (o : Option SipURI) : Call → Option SipURI
  | .ofGenericURI uri => SipURI.ofGenericURI uri
  | .ofString uri => some (SipURI.ofString uri)
  | .ofParts username hostname portnumber secure =>
    some (SipURI.ofParts username hostname portnumber secure)
  | .setSecure secure => o.bind (SipURI.setSecure secure)

/-- The text has the scheme of a SIPS URI. -/
def IsSips (u : SipURI) : Prop := "sips:".toList <+: u.uri

/-- The flag says what the scheme says. -/
def Agrees (o : Option SipURI) : Prop := ∀ u ∈ o, (u.secure = true ↔ u.IsSips)

/-- No URI is made with the argument `secure`, and a SIPS URI is not made a SIP one. -/
def Call.Unaffected (o : Option SipURI) : Call → Prop
  | .ofParts _ _ _ secure => secure = false
  | .setSecure secure => secure = false → ∀ u ∈ o, ¬u.IsSips
  | _ => True

/-- The flag says what the scheme says, and there is a scheme. -/
def Valid (o : Option SipURI) : Prop := Agrees o ∧ ∀ u ∈ o, ':' ∈ u.uri

theorem valid_some {u : SipURI} :
    Valid (some u) ↔ (u.secure = true ↔ u.IsSips) ∧ ':' ∈ u.uri := by
  simp [Valid, Agrees]

theorem valid_none : Valid none :=
  ⟨fun u hu => absurd hu (by simp), fun u hu => absurd hu (by simp)⟩

theorem agrees_some {u : SipURI} : Agrees (some u) ↔ (u.secure = true ↔ u.IsSips) := by
  simp [Agrees]

theorem colon_of_isSips {u : SipURI} (h : u.IsSips) : ':' ∈ u.uri :=
  h.subset (by decide : ':' ∈ "sips:".toList)

/-- What stands in front of the first colon. -/
theorem scheme_append {uri : Text} (h : ':' ∈ uri) :
    ∃ rest, uri = uri.takeWhile (· != ':') ++ ':' :: rest := by
  obtain ⟨rest, hrest⟩ := goTo_of_mem h
  refine ⟨rest, ?_⟩
  rw [← hrest]
  exact List.takeWhile_append_dropWhile.symm

theorem valid_ofGenericURI (uri : Text) : Valid (SipURI.ofGenericURI uri) := by
  unfold SipURI.ofGenericURI
  split
  · rename_i hcolon
    obtain ⟨rest, hrest⟩ := scheme_append hcolon
    dsimp only
    split
    · rename_i hsips
      rw [hsips] at hrest
      exact valid_some.mpr ⟨iff_of_true rfl ⟨rest, hrest.symm⟩, hcolon⟩
    · split
      · rename_i hsip
        rw [hsip] at hrest
        refine valid_some.mpr ⟨iff_of_false Bool.false_ne_true fun hsips => ?_, hcolon⟩
        have hne : ¬"sips:".toList <+: "sip".toList ++ ':' :: rest := by
          rintro ⟨t, ht⟩
          exact absurd (List.cons.inj (List.cons.inj (List.cons.inj (List.cons.inj ht).2).2).2).1
            (by decide)
        refine hne ?_
        rw [← hrest]
        exact hsips
      · exact valid_none
  · exact valid_none

theorem valid_ofString (uri : Text) : Valid (some (SipURI.ofString uri)) := by
  unfold SipURI.ofString
  split
  · rename_i hsips
    have hpre := List.isPrefixOf_iff_prefix.mp hsips
    exact valid_some.mpr ⟨iff_of_true rfl hpre, hpre.subset (by decide : ':' ∈ "sips:".toList)⟩
  · rename_i hsips
    have hnot : ¬"sips:".toList <+: uri := fun h => hsips (List.isPrefixOf_iff_prefix.mpr h)
    unfold sipURI
    split
    · rename_i hor
      have hpre := List.isPrefixOf_iff_prefix.mp (hor.resolve_left hsips)
      exact valid_some.mpr ⟨iff_of_false Bool.false_ne_true hnot,
        hpre.subset (by decide : ':' ∈ "sip:".toList)⟩
    · refine valid_some.mpr ⟨iff_of_false Bool.false_ne_true ?_, ?_⟩
      · rintro ⟨t, ht⟩
        exact absurd (List.cons.inj (List.cons.inj (List.cons.inj (List.cons.inj ht).2).2).2).1
          (by decide)
      · exact List.mem_append_left _ (by decide)

theorem ofParts_valid_iff (username : Option Text) (hostname : Text) (portnumber : ℤ)
    (secure : Bool) :
    ':' ∈ (SipURI.ofParts username hostname portnumber secure).uri ∧
      ((SipURI.ofParts username hostname portnumber secure).IsSips ↔ secure = true) := by
  unfold SipURI.ofParts SipURI.init IsSips
  cases secure with
  | true =>
    refine ⟨by simp, iff_of_true ?_ rfl⟩
    dsimp only
    rw [if_pos rfl, List.append_assoc, List.append_assoc]
    exact List.prefix_append _ _
  | false =>
    refine ⟨by simp, iff_of_false ?_ Bool.false_ne_true⟩
    rintro ⟨t, ht⟩
    dsimp only at ht
    rw [if_neg Bool.false_ne_true, List.append_assoc, List.append_assoc] at ht
    exact absurd (List.cons.inj (List.cons.inj (List.cons.inj (List.cons.inj ht).2).2).2).1
      (by decide)

/-- **One call**: a URI that was valid stays so if the call meets the condition, and otherwise the flag
does not say what the scheme says. -/
theorem step_valid {o : Option SipURI} (h : Valid o) (c : Call) :
    (c.Unaffected o → Valid (c.step o)) ∧ (Agrees (c.step o) → c.Unaffected o) := by
  cases c with
  | ofGenericURI uri => exact ⟨fun _ => valid_ofGenericURI uri, fun _ => trivial⟩
  | ofString uri => exact ⟨fun _ => valid_ofString uri, fun _ => trivial⟩
  | ofParts username hostname portnumber secure =>
    obtain ⟨hcolon, hsips⟩ := ofParts_valid_iff username hostname portnumber secure
    refine ⟨fun hsecure => valid_some.mpr ⟨iff_of_false Bool.false_ne_true ?_, hcolon⟩,
      fun hagrees => ?_⟩
    · rw [hsips, show secure = false from hsecure]
      exact Bool.false_ne_true
    · have hnot := mt (agrees_some.mp hagrees).mpr Bool.false_ne_true
      rw [hsips] at hnot
      exact Bool.eq_false_iff.mpr hnot
  | setSecure secure =>
    cases o with
    | none => exact ⟨fun _ => h, fun _ _ u hu => absurd hu (by simp)⟩
    | some u =>
      obtain ⟨hagrees, hcolon⟩ := valid_some.mp h
      show (Call.Unaffected _ _ → Valid (SipURI.setSecure secure u)) ∧
        (Agrees (SipURI.setSecure secure u) → _)
      unfold SipURI.setSecure
      by_cases hsame : u.secure = secure
      · -- nothing is changed
        rw [if_neg (not_not.mpr hsame)]
        refine ⟨fun _ => h, fun _ hsecure w hw hsips => ?_⟩
        rw [← Option.some.inj hw] at hsips
        rw [hsecure] at hsame
        rw [hagrees.mpr hsips] at hsame
        exact Bool.noConfusion hsame
      · rw [if_pos hsame, if_pos hcolon]
        obtain ⟨rest, hrest⟩ := goTo_of_mem hcolon
        have hsips : IsSips ⟨"sips".toList ++ goTo ':' u.uri, secure⟩ := by
          rw [hrest]
          exact ⟨rest, rfl⟩
        constructor
        · intro hunaffected
          refine valid_some.mpr ⟨iff_of_true ?_ hsips, colon_of_isSips hsips⟩
          by_contra hfalse
          have hsecure : secure = false := Bool.eq_false_iff.mpr hfalse
          refine hunaffected hsecure u rfl (hagrees.mp ?_)
          rw [hsecure] at hsame
          simpa using hsame
        · intro hagrees' hsecure
          have htrue : secure = true := (agrees_some.mp hagrees').mpr hsips
          rw [hsecure] at htrue
          exact Bool.noConfusion htrue

/-- **In a sequence of calls the flag always says what the scheme says if and only if** no call makes a
URI with the argument `secure`, and none makes a SIPS URI a SIP one. -/
theorem agrees_iff (calls : List Call) :
    (∀ pre, pre <+: calls → Agrees (Machine.run Call.step none pre)) ↔
      Machine.Meets Call.step Call.Unaffected none calls :=
  (Machine.meets_iff_forall_prefix_of_invariant (I := Valid) (fun _ h => h.1)
    (fun _ c hc h => (step_valid h c).1 hc) (fun _ c h => (step_valid h c).2)
    valid_none calls).symm

/-- **What the accessors of a SIP URI return.**  They invert the construction exactly when no colon is
taken for another one, and the flag agrees with the scheme throughout exactly when no call makes it
disagree. -/
theorem isRead_iff_and_agrees_iff (u : SipUriParts) (calls : List Call) :
    (u.IsRead ↔ u.ColonFree) ∧
      ((∀ pre, pre <+: calls → Agrees (Machine.run Call.step none pre)) ↔
        Machine.Meets Call.step Call.Unaffected none calls) :=
  ⟨u.isRead_iff, agrees_iff calls⟩

/-- A name, and an address in brackets. -/
def sampleName : Host := .name "h".toList (by decide) (by decide)

def sampleAddr : Host := .ipv6 "::1".toList (by decide) (by decide)

/-- A URI with a password and a port. -/
def passwordUri : SipUriParts where
  user := some { user := "a".toList, password := some "b".toList }
  host := sampleName
  port := some 5070

/-- A URI with an address in brackets. -/
def bracketUri : SipUriParts where
  host := sampleAddr
  portRange := SipUriParts.portRange_none

/-- **The port behind a password is not read, an address in brackets is cut, and the flag is not set.** -/
theorem password_not_read :
    ¬passwordUri.IsRead ∧ ¬bracketUri.IsRead ∧
      ¬Agrees (Machine.run Call.step none [.ofParts none "h".toList (-1) true]) := by
  refine ⟨fun h => absurd h.port (by decide), fun h => absurd h.host (by decide), fun h => ?_⟩
  have hsips := (agrees_some.mp h).mpr ⟨"h".toList, rfl⟩
  exact absurd hsips (by decide)

end SipURI
end SoftPhone
