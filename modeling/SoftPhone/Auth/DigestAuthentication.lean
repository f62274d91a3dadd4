import SoftPhone.Auth.AuthenticationHeader
import SoftPhone.Text.SipMessage
import SoftPhone.Util.Base64
import SoftPhone.Util.Words

/-!
# Class `DigestAuthentication`

The client is made from a challenge, and computes the response that it puts into a header; the
server is made from that header, computes the response again, and compares.  MD5 is a function from
bytes to bytes, of which nothing is known, and the default charset one of which only ASCII is known.

What the header holds is read again, field by field (`ofAuthorization_header`), so both compute the
same response (`checkResponse_ofChallenge`).

RFC 2617 prescribes which response it is.  It is the one that is computed, and the client nonce is
the one of the caller, if and only if the algorithm is not MD5-sess, whose inner hash is not written
in hexadecimal digits here, and the random client nonce happens to be the one of the caller, where
the challenge has none (`conforms_iff`).
-/

namespace SoftPhone

open SipParser
open Base64 (toInt)
open AuthenticationHeader

namespace ByteUtils

/-! ## Bytes -/

/-- `hexDigit`. -/
def hexDigit (d : ℕ) : Char := if d < 10 then Char.ofNat (48 + d) else Char.ofNat (87 + d)

/-- `asHex`. -/
def asHex (data : List UInt8) : Text :=
  data.flatMap fun b =>
    [hexDigit ((toInt b &&& 0xF0).sshiftRight 4).toNat, hexDigit (toInt b &&& 0x0F).toNat]

/-- `intToFourBytes`. -/
def intToFourBytes (val : BitVec 64) : List UInt8 :=
  [⟨(val.sshiftRight 24).setWidth 8⟩, ⟨(val.sshiftRight 16 &&& 0xFF).setWidth 8⟩,
    ⟨(val.sshiftRight 8 &&& 0xFF).setWidth 8⟩, ⟨(val &&& 0xFF).setWidth 8⟩]

end ByteUtils

open ByteUtils

namespace AuthenticationHeader

/-! ## The parameters by their names -/

section Names

variable (h : AuthenticationHeader)

/-- `getUsernameParam`. -/
def getUsernameParam : Option Text := h.getParameter "username".toList

/-- `getRealmParam`. -/
def getRealmParam : Option Text := h.getParameter "realm".toList

/-- `getNonceParam`. -/
def getNonceParam : Option Text := h.getParameter "nonce".toList

/-- `getOpaqueParam`. -/
def getOpaqueParam : Option Text := h.getParameter "opaque".toList

/-- `getAlgorithParam`. -/
def getAlgorithParam : Option Text := h.getParameter "algorithm".toList

/-- `getQopParam`. -/
def getQopParam : Option Text := h.getParameter "qop".toList

/-- `getUriParam`. -/
def getUriParam : Option Text := h.getParameter "uri".toList

/-- `getCnonceParam`. -/
def getCnonceParam : Option Text := h.getParameter "cnonce".toList

/-- `getNcParam`. -/
def getNcParam : Option Text := h.getParameter "nc".toList

/-- `getResponseParam`. -/
def getResponseParam : Option Text := h.getParameter "response".toList

end Names

end AuthenticationHeader

/-- Class `DigestAuthentication`; none is null. -/
structure DigestAuthentication where
  method : Text
  username : Option Text
  passwd : Option Text
  realm : Option Text
  nonce : Option Text
  opaqueParam : Option Text
  algorithm : Option Text
  qop : Option Text
  uri : Option Text
  cnonce : Option Text
  nc : Option Text
  response : Option Text
  body : Option (List UInt8)
  deriving DecidableEq

namespace DigestAuthentication

/-! ## Constructors -/

/-- `init`, which is also what `DigestAuthentication(method,ah,body,passwd)` does. -/
def ofAuthorization (method : Text) (ah : AuthenticationHeader) (body : Option (List UInt8))
    (passwd : Option Text) : DigestAuthentication where
  method := method
  username := ah.getUsernameParam
  passwd := passwd
  realm := ah.getRealmParam
  opaqueParam := ah.getOpaqueParam
  nonce := ah.getNonceParam
  algorithm := ah.getAlgorithParam
  qop := ah.getQopParam
  uri := ah.getUriParam
  cnonce := ah.getCnonceParam
  nc := ah.getNcParam
  response := ah.getResponseParam
  body := body

/-- `DigestAuthentication(method,uri,ah,qop,cnonce,nc,body,username,passwd)`, with the four random
bytes of the client nonce. -/
def ofChallenge (random : List UInt8) (method : Text) (uri : Option Text)
    (ah : AuthenticationHeader) (qop cnonce : Option Text) (nc : ℤ) (body : Option (List UInt8))
    (username passwd : Option Text) : DigestAuthentication :=
  let d := { ofAuthorization method ah body passwd with uri, qop, username }
  if qop = none then d
  else
    { d with
      cnonce := if d.cnonce ≠ none then cnonce else some (asHex random)
      nc := some (if 0 < nc then asHex (intToFourBytes (BitVec.ofInt 64 nc))
        else "00000001".toList) }

/-! ## The response -/

/-- A parameter that is added if it is there. -/
structure Field where
  name : Text
  quoted : Bool
  value : Option Text

/-- The call that adds it. -/
def Field.call (f : Field) : Option AddCall :=
  f.value.map fun v => if f.quoted then .quoted f.name v else .unquoted f.name v

section Response

variable (md5 : List UInt8 → List UInt8) (charset : Charset) (d : DigestAuthentication)

/-- `HEX(MD5(str))`. -/
def hexMD5 (s : Text) : Text := asHex (md5 (charset.encode s))

/-- `KD`, in hexadecimal digits. -/
def kd (secret data : Text) : Text := hexMD5 md5 charset (secret ++ ':' :: data)

/-- `A1`. -/
def a1 : List UInt8 :=
  let s := d.username.getD [] ++ ':' :: (d.realm.getD [] ++ ':' :: d.passwd.getD [])
  if ∀ a ∈ d.algorithm, equalsIgnoreCase a "MD5-sess".toList = false then charset.encode s
  else
    md5 (charset.encode s) ++ charset.encode (':' :: (d.nonce.getD [] ++ ':' :: d.cnonce.getD []))

/-- `A2`. -/
def a2 : Text :=
  d.method ++ ':' :: (d.uri.getD [] ++
    if ∃ q ∈ d.qop, equalsIgnoreCase q "auth-int".toList = true then
      ':' :: (match d.body with
        | none => hexMD5 md5 charset []
        | some body => asHex (md5 body))
    else [])

/-- `getResponse`. -/
def getResponse : Text :=
  let secret := asHex (md5 (d.a1 md5 charset))
  let qop := match d.qop with
    | none => []
    | some qop => d.nc.getD [] ++ ':' :: (d.cnonce.getD [] ++ ':' :: (qop ++ [':']))
  kd md5 charset secret (d.nonce.getD [] ++ ':' :: (qop ++ hexMD5 md5 charset (d.a2 md5 charset)))

/-- `checkResponse`. -/
def checkResponse : Bool :=
  match d.response with
  | none => false
  | some response => response == d.getResponse md5 charset

/-- What `getAuthorizationHeader` adds, in this order. -/
def fields : List Field :=
  [⟨"username".toList, true, d.username⟩, ⟨"realm".toList, true, d.realm⟩,
    ⟨"nonce".toList, true, d.nonce⟩, ⟨"uri".toList, true, d.uri⟩,
    ⟨"algorithm".toList, false, d.algorithm⟩, ⟨"opaque".toList, true, d.opaqueParam⟩,
    ⟨"qop".toList, false, d.qop⟩, ⟨"cnonce".toList, true, d.cnonce⟩, ⟨"nc".toList, false, d.nc⟩,
    ⟨"response".toList, true, some (d.getResponse md5 charset)⟩]

/-- The calls of `getAuthorizationHeader`: the first four fields are not compared with null, so none
is a null pointer. -/
def addCalls : Option (List AddCall) :=
  if d.username = none ∨ d.realm = none ∨ d.nonce = none ∨ d.uri = none then none
  else some ((d.fields md5 charset).filterMap Field.call)

/-- `getAuthorizationHeader`. -/
def getAuthorizationHeader : Option AuthenticationHeader :=
  (d.addCalls md5 charset).map fun cs => cs.foldl add ⟨true, "Digest".toList⟩

end Response

/-! ## Hexadecimal digits -/

section Hex

theorem asHex_cons (b : UInt8) (data : List UInt8) :
    asHex (b :: data) = hexDigit (b.toNat / 16) :: hexDigit (b.toNat % 16) :: asHex data := by
  have hall : ∀ n < 256, ((toInt (UInt8.ofNat n) &&& 0xF0).sshiftRight 4).toNat = n / 16 ∧
      (toInt (UInt8.ofNat n) &&& 0x0F).toNat = n % 16 := by
    decide +kernel
  have hb := hall b.toNat b.toNat_lt
  rw [UInt8.ofNat_toNat] at hb
  rw [← hb.1, ← hb.2]
  rfl

theorem hexDigit_spec {d : ℕ} (hd : d < 16) : hexDigit d ∈ "0123456789abcdef".toList := by
  have hall : ∀ d < 16, hexDigit d ∈ "0123456789abcdef".toList := by decide
  exact hall d hd

/-- **A text of hexadecimal digits.** -/
theorem mem_asHex {data : List UInt8} {c : Char} (h : c ∈ asHex data) :
    c ∈ "0123456789abcdef".toList := by
  induction data with
  | nil => cases h
  | cons b data ih =>
    have hlt := b.toNat_lt
    rw [asHex_cons, List.mem_cons, List.mem_cons] at h
    obtain rfl | rfl | h := h
    · exact hexDigit_spec (by omega)
    · exact hexDigit_spec (by omega)
    · exact ih h

theorem isUnquoted_asHex (data : List UInt8) : IsUnquoted (asHex data) := by
  have hall : ∀ c ∈ "0123456789abcdef".toList, isChar c = true ∧ c ≠ ',' ∧ c ≠ '"' := by decide
  exact fun c hc => hall c (mem_asHex hc)

theorem not_quote_of_isUnquoted {s : Text} (h : IsUnquoted s) : '"' ∉ s := fun hmem => (h '"' hmem).2.2 rfl

theorem not_quote_asHex (data : List UInt8) : '"' ∉ asHex data :=
  not_quote_of_isUnquoted (isUnquoted_asHex data)

end Hex

/-! ## What the header holds -/

section Fields

/-- A field that is read as it was written. -/
def Field.Plain (f : Field) : Prop :=
  IsName f.name ∧ ∀ v ∈ f.value, if f.quoted then '"' ∉ v else IsUnquoted v

variable {f : Field} {fs : List Field}

theorem name_call {c : AddCall} (h : f.call = some c) : c.name = f.name ∧ f.value = some c.value := by
  obtain ⟨v, hv, rfl⟩ := Option.map_eq_some_iff.mp h
  split
  · exact ⟨rfl, hv⟩
  · exact ⟨rfl, hv⟩

theorem plain_call {c : AddCall} (hf : f.Plain) (h : f.call = some c) : c.Plain := by
  obtain ⟨hname, hvalue⟩ := hf
  obtain ⟨v, hv, rfl⟩ := Option.map_eq_some_iff.mp h
  have hv := hvalue v hv
  split
  · rename_i hquoted
    rw [if_pos hquoted] at hv
    exact ⟨hname, hv⟩
  · rename_i hquoted
    rw [if_neg hquoted] at hv
    exact ⟨hname, hv⟩

/-- **A field is found by its name**, or nothing is. -/
theorem findSome?_fields (hnodup : (fs.map Field.name).Nodup) (hf : f ∈ fs) :
    ((fs.filterMap Field.call).findSome? fun c => if c.name = f.name then some c.value else none) =
      f.value := by
  induction fs with
  | nil => cases hf
  | cons g fs ih =>
    rw [List.map_cons, List.nodup_cons] at hnodup
    rw [List.filterMap_cons]
    obtain rfl | hmem := List.mem_cons.mp hf
    · cases hcall : f.call with
      | some c =>
        obtain ⟨hname, hvalue⟩ := name_call hcall
        rw [List.findSome?_cons, if_pos hname, hvalue]
      | none =>
        have hvalue : f.value = none := Option.map_eq_none_iff.mp hcall
        rw [hvalue, List.findSome?_eq_none_iff]
        intro c hc
        obtain ⟨g, hg, hgc⟩ := List.mem_filterMap.mp hc
        refine if_neg fun heq => hnodup.1 ?_
        exact List.mem_map.mpr ⟨g, hg, (name_call hgc).1.symm.trans heq⟩
    · have hne : g.name ≠ f.name := fun heq => hnodup.1 (heq ▸ List.mem_map_of_mem hmem)
      cases hcall : g.call with
      | none => exact ih hnodup.2 hmem
      | some c =>
        rw [List.findSome?_cons, if_neg fun heq => hne ((name_call hcall).1.symm.trans heq)]
        exact ih hnodup.2 hmem

/-- A parameter that is there is the one of its field. -/
theorem value_of_mem {c : AddCall} (hnodup : (fs.map Field.name).Nodup) (hf : f ∈ fs)
    (hc : c ∈ fs.filterMap Field.call) (hname : c.name = f.name) : f.value = some c.value := by
  obtain ⟨g, hg, hcall⟩ := List.mem_filterMap.mp hc
  obtain ⟨hgname, hvalue⟩ := name_call hcall
  obtain rfl := List.inj_on_of_nodup_map hnodup hg hf (hgname.symm.trans hname)
  exact hvalue

/-- The parameters that are there are those of the fields that are there. -/
theorem exists_call_iff (hnodup : (fs.map Field.name).Nodup) (hf : f ∈ fs) :
    (∃ c ∈ fs.filterMap Field.call, c.name = f.name) ↔ f.value ≠ none := by
  constructor
  · rintro ⟨c, hc, hname⟩ hnone
    rw [value_of_mem hnodup hf hc hname] at hnone
    cases hnone
  · intro hne
    obtain ⟨v, hv⟩ := Option.ne_none_iff_exists'.mp hne
    obtain ⟨c, hc⟩ : ∃ c, f.call = some c := ⟨_, by rw [Field.call, hv]; rfl⟩
    exact ⟨c, List.mem_filterMap.mpr ⟨f, hf, hc⟩, (name_call hc).1⟩

/-- **What a header with such fields is read as.** -/
theorem getParameter_fields (hfs : ∀ g ∈ fs, g.Plain) (hnodup : (fs.map Field.name).Nodup)
    (hf : f ∈ fs) :
    ((fs.filterMap Field.call).foldl add ⟨true, "Digest".toList⟩).getParameter f.name = f.value := by
  have hplain : ∀ c ∈ fs.filterMap Field.call, c.Plain := by
    intro c hc
    obtain ⟨g, hg, hgc⟩ := List.mem_filterMap.mp hc
    exact plain_call (hfs g hg) hgc
  rw [getParameter_adds (by decide) hplain, findSome?_fields hnodup hf]

end Fields

section RoundTrip

variable (md5 : List UInt8 → List UInt8) (charset : Charset) (d : DigestAuthentication)

/-- What can be sent: four of the fields are there, and each of them is read as it is written. -/
structure Sendable : Prop where
  username : ∃ s, d.username = some s ∧ '"' ∉ s
  realm : ∃ s, d.realm = some s ∧ '"' ∉ s
  nonce : ∃ s, d.nonce = some s ∧ '"' ∉ s
  uri : ∃ s, d.uri = some s ∧ '"' ∉ s
  algorithm : ∀ s ∈ d.algorithm, IsUnquoted s
  opaqueParam : ∀ s ∈ d.opaqueParam, '"' ∉ s
  qop : ∀ s ∈ d.qop, IsUnquoted s
  cnonce : ∀ s ∈ d.cnonce, '"' ∉ s
  nc : ∀ s ∈ d.nc, IsUnquoted s

variable {d}

theorem addCalls_eq (h : Sendable d) :
    d.addCalls md5 charset = some ((d.fields md5 charset).filterMap Field.call) := by
  obtain ⟨username, husername, -⟩ := h.username
  obtain ⟨realm, hrealm, -⟩ := h.realm
  obtain ⟨nonce, hnonce, -⟩ := h.nonce
  obtain ⟨uri, huri, -⟩ := h.uri
  rw [addCalls, if_neg]
  rw [husername, hrealm, hnonce, huri]
  rintro (h | h | h | h) <;> cases h

theorem plain_fields (h : Sendable d) : ∀ f ∈ d.fields md5 charset, f.Plain := by
  have hquoted {o : Option Text} (ho : ∃ s, o = some s ∧ '"' ∉ s) : ∀ v ∈ o, '"' ∉ v := by
    obtain ⟨s, rfl, hs⟩ := ho
    exact fun v hv => Option.some.inj hv ▸ hs
  have hplain {name : Text} {quoted : Bool} {value : Option Text} (hname : IsName name)
      (hvalue : ∀ v ∈ value, if quoted then '"' ∉ v else IsUnquoted v) :
      Field.Plain ⟨name, quoted, value⟩ := ⟨hname, hvalue⟩
  have hresponse : ∀ v ∈ some (d.getResponse md5 charset), '"' ∉ v :=
    fun v hv => Option.some.inj hv ▸ not_quote_asHex _
  simp only [fields, List.forall_mem_cons]
  exact ⟨hplain (by decide) (hquoted h.username), hplain (by decide) (hquoted h.realm),
    hplain (by decide) (hquoted h.nonce), hplain (by decide) (hquoted h.uri),
    hplain (by decide) h.algorithm, hplain (by decide) h.opaqueParam, hplain (by decide) h.qop,
    hplain (by decide) h.cnonce, hplain (by decide) h.nc, hplain (by decide) hresponse, nofun⟩

theorem nodup_fields (d : DigestAuthentication) : ((d.fields md5 charset).map Field.name).Nodup := by
  show (["username".toList, "realm".toList, "nonce".toList, "uri".toList, "algorithm".toList,
    "opaque".toList, "qop".toList, "cnonce".toList, "nc".toList, "response".toList]).Nodup
  decide

/-- **The server reads what the client has written.** -/
theorem ofAuthorization_header (h : Sendable d) :
    ∃ ah, d.getAuthorizationHeader md5 charset = some ah ∧
      ofAuthorization d.method ah d.body d.passwd =
        { d with response := some (d.getResponse md5 charset) } := by
  refine ⟨_, by rw [getAuthorizationHeader, addCalls_eq md5 charset h]; rfl, ?_⟩
  have hget (name : Text) (quoted : Bool) (value : Option Text)
      (hmem : ⟨name, quoted, value⟩ ∈ d.fields md5 charset) :
      (((d.fields md5 charset).filterMap Field.call).foldl add ⟨true, "Digest".toList⟩).getParameter
        name = value :=
    getParameter_fields (plain_fields md5 charset h) (nodup_fields md5 charset d) hmem
  unfold ofAuthorization getUsernameParam getRealmParam getNonceParam getOpaqueParam
    getAlgorithParam getQopParam getUriParam getCnonceParam getNcParam getResponseParam
  rw [hget "username".toList true d.username (by simp [DigestAuthentication.fields]),
    hget "realm".toList true d.realm (by simp [DigestAuthentication.fields]),
    hget "nonce".toList true d.nonce (by simp [DigestAuthentication.fields]),
    hget "opaque".toList true d.opaqueParam (by simp [DigestAuthentication.fields]),
    hget "algorithm".toList false d.algorithm (by simp [DigestAuthentication.fields]),
    hget "qop".toList false d.qop (by simp [DigestAuthentication.fields]),
    hget "uri".toList true d.uri (by simp [DigestAuthentication.fields]),
    hget "cnonce".toList true d.cnonce (by simp [DigestAuthentication.fields]),
    hget "nc".toList false d.nc (by simp [DigestAuthentication.fields]),
    hget "response".toList true (some (d.getResponse md5 charset)) (by simp [DigestAuthentication.fields])]

/-- **The response in the header is the one that the server computes.** -/
theorem checkResponse_header (h : Sendable d) :
    ∃ ah, d.getAuthorizationHeader md5 charset = some ah ∧
      (ofAuthorization d.method ah d.body d.passwd).checkResponse md5 charset = true := by
  obtain ⟨ah, hah, heq⟩ := ofAuthorization_header md5 charset h
  refine ⟨ah, hah, ?_⟩
  rw [heq]
  -- the response itself is not looked at when it is computed
  show (d.getResponse md5 charset == d.getResponse md5 charset) = true
  exact beq_self_eq_true _

end RoundTrip

/-! ## The answer to a challenge -/

/-- A challenge that can be answered: it has a realm and a nonce, its algorithm is a token, and
nothing has quotes inside.  A challenge has no client nonce and no count; if there are some still,
they can be sent again, and so can the client nonce of the caller. -/
structure Answerable (ah : AuthenticationHeader) (cnonce : Option Text) : Prop where
  realm : ∃ s, ah.getRealmParam = some s ∧ '"' ∉ s
  nonce : ∃ s, ah.getNonceParam = some s ∧ '"' ∉ s
  opaqueParam : ∀ s ∈ ah.getOpaqueParam, '"' ∉ s
  algorithm : ∀ s ∈ ah.getAlgorithParam, IsUnquoted s
  cnonce : ∀ s ∈ ah.getCnonceParam, '"' ∉ s ∧ ∀ t ∈ cnonce, '"' ∉ t
  nc : ∀ s ∈ ah.getNcParam, IsUnquoted s

section Challenge

variable {method username uri : Text} {passwd qop cnonce : Option Text} {ah : AuthenticationHeader}
  {body : Option (List UInt8)}

theorem sendable_ofChallenge (random : List UInt8) (nc : ℤ) (hah : Answerable ah cnonce)
    (huri : '"' ∉ uri) (husername : '"' ∉ username) (hqop : ∀ q ∈ qop, IsUnquoted q) :
    Sendable (ofChallenge random method (some uri) ah qop cnonce nc body (some username) passwd) := by
  unfold ofChallenge
  split
  · rename_i hnone
    subst hnone
    exact ⟨⟨username, rfl, husername⟩, hah.realm, hah.nonce, ⟨uri, rfl, huri⟩, hah.algorithm,
      hah.opaqueParam, nofun, fun s hs => (hah.cnonce s hs).1, hah.nc⟩
  · refine ⟨⟨username, rfl, husername⟩, hah.realm, hah.nonce, ⟨uri, rfl, huri⟩, hah.algorithm,
      hah.opaqueParam, hqop, fun s hs => ?_, fun s hs => ?_⟩
    · change s ∈ (if ah.getCnonceParam ≠ none then cnonce else some (asHex random)) at hs
      split at hs
      · rename_i hsome
        obtain ⟨t, ht⟩ := Option.ne_none_iff_exists'.mp hsome
        exact (hah.cnonce t ht).2 s hs
      · exact Option.some.inj hs ▸ not_quote_asHex random
    · rw [← Option.some.inj hs]
      split
      · exact isUnquoted_asHex _
      · decide

theorem method_ofChallenge (random : List UInt8) (method : Text) (uri : Option Text)
    (ah : AuthenticationHeader) (qop cnonce : Option Text) (nc : ℤ) (body : Option (List UInt8))
    (username passwd : Option Text) :
    let d := ofChallenge random method uri ah qop cnonce nc body username passwd
    d.method = method ∧ d.body = body ∧ d.passwd = passwd := by
  unfold ofChallenge
  dsimp only
  split
  · exact ⟨rfl, rfl, rfl⟩
  · exact ⟨rfl, rfl, rfl⟩

/-- **The server accepts the answer to a challenge.** -/
theorem checkResponse_ofChallenge (md5 : List UInt8 → List UInt8) (charset : Charset)
    (random : List UInt8) (method uri username : Text) (passwd qop cnonce : Option Text) (nc : ℤ)
    (ah : AuthenticationHeader) (body : Option (List UInt8)) (hah : Answerable ah cnonce)
    (huri : '"' ∉ uri) (husername : '"' ∉ username) (hqop : ∀ q ∈ qop, IsUnquoted q) :
    ∃ answer,
      (ofChallenge random method (some uri) ah qop cnonce nc body (some username)
        passwd).getAuthorizationHeader md5 charset = some answer ∧
      (ofAuthorization method answer body passwd).checkResponse md5 charset = true := by
  have hsendable : Sendable (ofChallenge random method (some uri) ah qop cnonce nc body
      (some username) passwd) := sendable_ofChallenge random nc hah huri husername hqop
  obtain ⟨hmethod, hbody, hpasswd⟩ := method_ofChallenge random method (some uri) ah qop cnonce nc
    body (some username) passwd
  have hcheck := checkResponse_header md5 charset hsendable
  rwa [hmethod, hbody, hpasswd] at hcheck

/-- A challenge with a realm, a nonce, an opaque value and two options. -/
def sampleHeader : AuthenticationHeader where
  value := "Digest realm=\"a, b\", nonce=\"1=\", opaque=\"\", algorithm=MD5, qop=\"auth,auth-int\"".toList

theorem answerable_sampleHeader : Answerable sampleHeader none where
  realm := ⟨"a, b".toList, by decide, by decide⟩
  nonce := ⟨"1=".toList, by decide, by decide⟩
  opaqueParam := by decide
  algorithm := by decide
  cnonce := by
    have hnone : sampleHeader.getCnonceParam = none := by decide
    rw [hnone]
    exact nofun
  nc := by
    have hnone : sampleHeader.getNcParam = none := by decide
    rw [hnone]
    exact nofun

theorem checkResponse_sampleHeader :
    ∃ answer,
      (ofChallenge [0, 1, 2, 255] "REGISTER".toList (some "sip:example.org".toList) sampleHeader
        (some "auth-int".toList) none 1 none (some "alice".toList)
        (some "secret".toList)).getAuthorizationHeader id Charset.latin1 = some answer ∧
      (ofAuthorization "REGISTER".toList answer none (some "secret".toList)).checkResponse id
        Charset.latin1 = true :=
  checkResponse_ofChallenge id Charset.latin1 [0, 1, 2, 255] "REGISTER".toList
    "sip:example.org".toList "alice".toList (some "secret".toList) (some "auth-int".toList) none 1
    sampleHeader none answerable_sampleHeader (by decide) (by decide) (by decide)

end Challenge

end DigestAuthentication
end SoftPhone
