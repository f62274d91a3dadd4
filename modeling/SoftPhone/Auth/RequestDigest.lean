import SoftPhone.Auth.DigestAuthentication

/-!
# The request digest of RFC 2617

`requestDigest` is what RFC 2617 prescribes: with MD5-sess the inner hash is written in hexadecimal
digits, as every hash is, and the nonces follow it.  `DigestAuthentication` puts the bytes of the
inner hash there.  It also has a client nonce of its own: the one that the caller supplies is only
taken if the challenge has one.

So the response is the request digest of the values that were supplied, whatever MD5 is, and the
header has the client nonce and the count that were supplied, if and only if the algorithm is not
MD5-sess and the client nonce is the right one (`conforms_iff`).
-/

namespace SoftPhone

open SipParser ByteUtils
open AuthenticationHeader DigestAuthentication

/-! ## What is prescribed -/

/-- The values of which a request digest is made. -/
structure DigestValues where
  method : Text
  uri : Text
  realm : Text
  nonce : Text
  algorithm : Option Text
  qop : Option Text
  cnonce : Text
  nonceCount : ℕ
  body : List UInt8
  username : Text
  passwd : Text

namespace DigestValues

/-- The algorithm is MD5-sess. -/
def IsSession (algorithm : Option Text) : Prop :=
  ∃ a ∈ algorithm, equalsIgnoreCase a "MD5-sess".toList = true

instance : DecidablePred IsSession := fun algorithm =>
  inferInstanceAs (Decidable (∃ a ∈ algorithm, _))

/-- The nonce count: eight hexadecimal digits. -/
def ncValue (n : ℕ) : Text :=
  [7, 6, 5, 4, 3, 2, 1, 0].map fun i => hexDigit (n / 16 ^ i % 16)

section

variable (hash : Text → Text) (hashBody : List UInt8 → Text) (v : DigestValues)

/-- `A1`, with the hash function `hash`, which returns hexadecimal digits. -/
def a1 : Text :=
  let s := v.username ++ ':' :: (v.realm ++ ':' :: v.passwd)
  if IsSession v.algorithm then hash s ++ ':' :: (v.nonce ++ ':' :: v.cnonce) else s

/-- `A2`. -/
def a2 : Text :=
  if ∃ q ∈ v.qop, equalsIgnoreCase q "auth-int".toList = true then
    v.method ++ ':' :: (v.uri ++ ':' :: hashBody v.body)
  else v.method ++ ':' :: v.uri

/-- `request-digest`. -/
def requestDigest : Text :=
  match v.qop with
  | none => hash (hash (v.a1 hash) ++ ':' :: (v.nonce ++ ':' :: hash (v.a2 hashBody)))
  | some qop =>
    hash (hash (v.a1 hash) ++ ':' :: (v.nonce ++ ':' :: (ncValue v.nonceCount ++ ':' ::
      (v.cnonce ++ ':' :: (qop ++ ':' :: hash (v.a2 hashBody))))))

end

end DigestValues

/-! ## The nonce count -/

theorem ofBitVec_eq_ofNat {v : BitVec 64} {n k : ℕ} (h : v.toNat = n / 2 ^ k) :
    (⟨v.setWidth 8⟩ : UInt8) = UInt8.ofNat (n / 2 ^ k) ∧
      (⟨(v &&& 0xFF).setWidth 8⟩ : UInt8) = UInt8.ofNat (n / 2 ^ k) := by
  have hand : (v &&& 0xFF).toNat = v.toNat % 256 := by
    rw [BitVec.toNat_and]
    exact Nat.and_two_pow_sub_one_eq_mod v.toNat 8
  constructor
  · refine UInt8.toNat_inj.mp ?_
    rw [UInt8.toNat_ofNat', ← h]
    exact BitVec.toNat_setWidth 8 v
  · refine UInt8.toNat_inj.mp ?_
    rw [UInt8.toNat_ofNat', ← h, ← Nat.mod_mod v.toNat (2 ^ 8)]
    refine (BitVec.toNat_setWidth 8 (v &&& 0xFF)).trans ?_
    rw [hand]

theorem intToFourBytes_eq {n : ℕ} (hn : n < 2 ^ 31) :
    intToFourBytes (BitVec.ofInt 64 n) =
      [UInt8.ofNat (n / 2 ^ 24), UInt8.ofNat (n / 2 ^ 16), UInt8.ofNat (n / 2 ^ 8),
        UInt8.ofNat (n / 2 ^ 0)] := by
  have hval : (BitVec.ofInt 64 n).toNat = n := by
    rw [BitVec.ofInt_natCast, BitVec.toNat_ofNat]
    omega
  have hmsb : (BitVec.ofInt 64 n).msb = false := by
    rw [BitVec.msb_eq_false_iff_two_mul_lt, hval]
    omega
  have hshift (k : ℕ) : ((BitVec.ofInt 64 n).sshiftRight k).toNat = n / 2 ^ k := by
    rw [BitVec.sshiftRight_eq_of_msb_false hmsb, BitVec.toNat_ushiftRight, hval,
      Nat.shiftRight_eq_div_pow]
  rw [intToFourBytes, (ofBitVec_eq_ofNat (hshift 24)).1, (ofBitVec_eq_ofNat (hshift 16)).2,
    (ofBitVec_eq_ofNat (hshift 8)).2,
    (ofBitVec_eq_ofNat (v := BitVec.ofInt 64 n) (n := n) (k := 0) (by omega)).2]

/-- **The count is written with eight digits.** -/
theorem asHex_intToFourBytes {n : ℕ} (hn : n < 2 ^ 31) :
    asHex (intToFourBytes (BitVec.ofInt 64 n)) = DigestValues.ncValue n := by
  have hdigits (k : ℕ) : (UInt8.ofNat (n / 2 ^ k)).toNat = n / 2 ^ k % 256 := UInt8.toNat_ofNat'
  rw [intToFourBytes_eq hn, asHex_cons, asHex_cons, asHex_cons, asHex_cons, hdigits, hdigits,
    hdigits, hdigits, DigestValues.ncValue]
  simp only [List.map_cons, List.map_nil]
  have h7 : n / 2 ^ 24 % 256 / 16 = n / 16 ^ 7 % 16 := by omega
  have h6 : n / 2 ^ 24 % 256 % 16 = n / 16 ^ 6 % 16 := by omega
  have h5 : n / 2 ^ 16 % 256 / 16 = n / 16 ^ 5 % 16 := by omega
  have h4 : n / 2 ^ 16 % 256 % 16 = n / 16 ^ 4 % 16 := by omega
  have h3 : n / 2 ^ 8 % 256 / 16 = n / 16 ^ 3 % 16 := by omega
  have h2 : n / 2 ^ 8 % 256 % 16 = n / 16 ^ 2 % 16 := by omega
  have h1 : n / 2 ^ 0 % 256 / 16 = n / 16 ^ 1 % 16 := by omega
  have h0 : n / 2 ^ 0 % 256 % 16 = n / 16 ^ 0 % 16 := by omega
  rw [h7, h6, h5, h4, h3, h2, h1, h0]
  rfl

/-! ## Hexadecimal digits are read in one way -/

section Injective

theorem hexDigit_injective {d e : ℕ} (hd : d < 16) (he : e < 16) (h : hexDigit d = hexDigit e) :
    d = e := by
  have hall : ∀ d < 16, ∀ e < 16, hexDigit d = hexDigit e → d = e := by decide
  exact hall d hd e he h

theorem asHex_injective {a b : List UInt8} (h : asHex a = asHex b) : a = b := by
  induction a generalizing b with
  | nil =>
    cases b with
    | nil => rfl
    | cons y b => rw [asHex_cons] at h; cases h
  | cons x a ih =>
    cases b with
    | nil => rw [asHex_cons] at h; cases h
    | cons y b =>
      have hx := x.toNat_lt
      have hy := y.toNat_lt
      rw [asHex_cons, asHex_cons, List.cons.injEq, List.cons.injEq] at h
      obtain ⟨hhigh, hlow, hrest⟩ := h
      have hhigh := hexDigit_injective (by omega) (by omega) hhigh
      have hlow := hexDigit_injective (by omega) (by omega) hlow
      rw [ih hrest, UInt8.toNat_inj.mp (show x.toNat = y.toNat by omega)]

/-- A text of hexadecimal digits, as bytes. -/
def hexBytes (s : Text) : List UInt8 := s.map fun c => UInt8.ofNat c.toNat

theorem encode_asHex (charset : Charset) (data : List UInt8) :
    charset.encode (asHex data) = hexBytes (asHex data) := by
  have hall : ∀ c ∈ "0123456789abcdef".toList, c.toNat < 128 := by decide
  exact charset.encode_ascii _ fun c hc => hall c (mem_asHex hc)

theorem colon_not_mem_hexBytes (data : List UInt8) : ∀ b ∈ hexBytes (asHex data), b ≠ 58 := by
  have hall : ∀ c ∈ "0123456789abcdef".toList, UInt8.ofNat c.toNat ≠ 58 := by decide
  intro b hb
  obtain ⟨c, hc, rfl⟩ := List.mem_map.mp hb
  exact hall c (mem_asHex hc)

theorem hexBytes_injective {a b : List UInt8} (h : hexBytes (asHex a) = hexBytes (asHex b)) :
    a = b := by
  have hback : ∀ c ∈ "0123456789abcdef".toList, Char.ofNat (UInt8.ofNat c.toNat).toNat = c := by
    decide
  have hchars (data : List UInt8) :
      (hexBytes (asHex data)).map (fun b => Char.ofNat b.toNat) = asHex data := by
    rw [hexBytes, List.map_map]
    exact (List.map_congr_left fun c hc => hback c (mem_asHex hc)).trans (List.map_id _)
  refine asHex_injective ?_
  rw [← hchars a, ← hchars b, h]

variable {charset : Charset}
  (happ : ∀ s t, charset.encode (s ++ t) = charset.encode s ++ charset.encode t)
include happ

/-- **What stands in front of the first colon is the same.** -/
theorem eq_of_encode_eq {a b : List UInt8} {s t : Text}
    (h : charset.encode (asHex a ++ ':' :: s) = charset.encode (asHex b ++ ':' :: t)) : a = b := by
  have hcolon (s : Text) : charset.encode (':' :: s) = 58 :: charset.encode s := by
    rw [← List.singleton_append, happ, charset.encode_ascii [':'] (by decide)]
    rfl
  rw [happ, happ, hcolon, hcolon, encode_asHex, encode_asHex] at h
  have hrun (data rest : List UInt8) :
      (hexBytes (asHex data) ++ 58 :: rest).takeWhile (· != 58) = hexBytes (asHex data) :=
    (takeWhile_run (fun b hb => bne_iff_ne.mpr (colon_not_mem_hexBytes data b hb))
      fun b hb => by rw [← Option.some.inj hb]; rfl).1
  refine hexBytes_injective ?_
  rw [← hrun a (charset.encode s), ← hrun b (charset.encode t), h]

end Injective

/-! ## The exact condition -/

section Conforms

variable (charset : Charset) (random : List UInt8) (method uri username passwd realm nonce : Text)
  (qop : Option Text) (cnonce : Text) (nc : ℕ) (body : Option (List UInt8))
  (ah : AuthenticationHeader)

/-- The values that the caller and the challenge supply. -/
def supplied : DigestValues where
  method := method
  uri := uri
  realm := realm
  nonce := nonce
  algorithm := ah.getAlgorithParam
  qop := qop
  cnonce := cnonce
  nonceCount := nc
  body := body.getD []
  username := username
  passwd := passwd

/-- The client that is made of them. -/
def client : DigestAuthentication :=
  ofChallenge random method (some uri) ah qop (some cnonce) nc body (some username) (some passwd)

/-- The response is the request digest of the values, whatever MD5 is; and with a `qop`, the header
has their client nonce and their count. -/
def Conforms (d : DigestAuthentication) (v : DigestValues) : Prop :=
  (∀ md5 : List UInt8 → List UInt8,
    d.getResponse md5 charset =
      v.requestDigest (hexMD5 md5 charset) fun body => asHex (md5 body)) ∧
    (v.qop ≠ none → ∀ md5, ∃ cs, d.addCalls md5 charset = some cs ∧
      .quoted "cnonce".toList v.cnonce ∈ cs ∧
      .unquoted "nc".toList (DigestValues.ncValue v.nonceCount) ∈ cs)

variable {charset random method uri username passwd realm nonce qop cnonce nc body ah}

/-- The fields that are not those of a challenge. -/
theorem client_fields (random : List UInt8) (method uri username passwd : Text) (qop : Option Text)
    (cnonce : Text) (nc : ℕ) (body : Option (List UInt8)) (ah : AuthenticationHeader) :
    let d := client random method uri username passwd qop cnonce nc body ah
    d.method = method ∧ d.username = some username ∧ d.passwd = some passwd ∧ d.uri = some uri ∧
      d.realm = ah.getRealmParam ∧ d.nonce = ah.getNonceParam ∧ d.algorithm = ah.getAlgorithParam ∧
      d.qop = qop ∧ d.body = body := by
  unfold client ofChallenge
  dsimp only
  split
  · exact ⟨rfl, rfl, rfl, rfl, rfl, rfl, rfl, rfl, rfl⟩
  · exact ⟨rfl, rfl, rfl, rfl, rfl, rfl, rfl, rfl, rfl⟩

/-- The client nonce and the count, where there is a `qop`. -/
theorem client_nonce (random : List UInt8) (method uri username passwd cnonce : Text)
    (body : Option (List UInt8)) (ah : AuthenticationHeader) (hqop : qop ≠ none) (hnc : 0 < nc)
    (hlt : nc < 2 ^ 31) :
    (client random method uri username passwd qop cnonce nc body ah).cnonce =
        (if ah.getCnonceParam ≠ none then some cnonce else some (asHex random)) ∧
      (client random method uri username passwd qop cnonce nc body ah).nc =
        some (DigestValues.ncValue nc) := by
  unfold client ofChallenge
  rw [if_neg hqop, if_pos (show (0 : ℤ) < nc by omega), asHex_intToFourBytes hlt]
  exact ⟨rfl, rfl⟩

/-- `A1` without a session. -/
theorem a1_eq (charset : Charset) {d : DigestAuthentication} {v : DigestValues}
    (hsession : ¬DigestValues.IsSession d.algorithm) (halgorithm : d.algorithm = v.algorithm)
    (husername : d.username = some v.username) (hrealm : d.realm = some v.realm) (hpasswd : d.passwd = some v.passwd)
    (md5 : List UInt8 → List UInt8) (hash : Text → Text) :
    d.a1 md5 charset = charset.encode (v.a1 hash) := by
  have hall : ∀ a ∈ d.algorithm, equalsIgnoreCase a "MD5-sess".toList = false := by
    intro a ha
    by_contra htrue
    exact hsession ⟨a, ha, by simpa using htrue⟩
  rw [DigestAuthentication.a1, if_pos hall, DigestValues.a1, ← halgorithm, if_neg hsession, husername,
    hrealm, hpasswd]
  rfl

theorem a2_eq (charset : Charset) {d : DigestAuthentication} {v : DigestValues}
    (hmethod : d.method = v.method) (huri : d.uri = some v.uri) (hqop : d.qop = v.qop)
    (hbody : d.body.getD [] = v.body) (md5 : List UInt8 → List UInt8) :
    d.a2 md5 charset = v.a2 fun body => asHex (md5 body) := by
  have hempty : charset.encode [] = [] := charset.encode_ascii [] (by simp)
  rw [DigestAuthentication.a2, DigestValues.a2, hmethod, huri, hqop, ← hbody]
  split
  · cases d.body with
    | none =>
      show _ ++ ':' :: (v.uri ++ ':' :: hexMD5 md5 charset []) = _
      rw [hexMD5, hempty]
      rfl
    | some body => rfl
  · show _ ++ ':' :: (v.uri ++ []) = _
    rw [List.append_nil]

/-- **Without a session, the response is the request digest.** -/
theorem getResponse_eq (hsession : ¬DigestValues.IsSession ah.getAlgorithParam)
    (hrealm : ah.getRealmParam = some realm) (hnonce : ah.getNonceParam = some nonce) (hnc : 0 < nc)
    (hlt : nc < 2 ^ 31)
    (hcnonce : qop = none ∨ ah.getCnonceParam ≠ none ∨ asHex random = cnonce)
    (md5 : List UInt8 → List UInt8) :
    (client random method uri username passwd qop cnonce nc body ah).getResponse md5 charset =
      (supplied method uri username passwd realm nonce qop cnonce nc body ah).requestDigest
        (hexMD5 md5 charset) fun body => asHex (md5 body) := by
  obtain ⟨fmethod, fusername, fpasswd, furi, frealm, fnonce, falgorithm, fqop, fbody⟩ :=
    client_fields random method uri username passwd qop cnonce nc body ah
  have ha1 := a1_eq charset
    (v := supplied method uri username passwd realm nonce qop cnonce nc body ah)
    (falgorithm ▸ hsession) falgorithm fusername (frealm.trans hrealm) fpasswd md5
    (hexMD5 md5 charset)
  have ha2 := a2_eq charset
    (v := supplied method uri username passwd realm nonce qop cnonce nc body ah) fmethod furi fqop
    (by rw [fbody]; rfl) md5
  rw [DigestAuthentication.getResponse, ha1, ha2, fqop, fnonce, hnonce]
  cases qop with
  | none => rfl
  | some q =>
    have hqop : some q ≠ none := Option.some_ne_none q
    obtain ⟨fcnonce, fnc⟩ := client_nonce random method uri username passwd cnonce body ah hqop hnc
      hlt
    have hcaller : (if ah.getCnonceParam ≠ none then some cnonce else some (asHex random)) =
        some cnonce := by
      split
      · rfl
      · rename_i hnone
        rw [(hcnonce.resolve_left hqop).resolve_left hnone]
    rw [fcnonce, hcaller, fnc]
    show kd md5 charset _ (nonce ++ ':' :: (DigestValues.ncValue nc ++ ':' ::
      (cnonce ++ ':' :: (q ++ [':'])) ++ hexMD5 md5 charset _)) = _
    rw [List.append_assoc, List.cons_append, List.append_assoc, List.cons_append, List.append_assoc,
      List.singleton_append]
    rfl

/-- The header has the client nonce and the count. -/
theorem mem_addCalls (d : DigestAuthentication) (md5 : List UInt8 → List UInt8) {c n : Text}
    (hnull : ¬(d.username = none ∨ d.realm = none ∨ d.nonce = none ∨ d.uri = none))
    (hcnonce : d.cnonce = some c) (hnc : d.nc = some n) :
    ∃ cs, d.addCalls md5 charset = some cs ∧ .quoted "cnonce".toList c ∈ cs ∧
      .unquoted "nc".toList n ∈ cs := by
  refine ⟨_, if_neg hnull, List.mem_filterMap.mpr ⟨⟨"cnonce".toList, true, d.cnonce⟩, ?_, ?_⟩,
    List.mem_filterMap.mpr ⟨⟨"nc".toList, false, d.nc⟩, ?_, ?_⟩⟩
  · simp [DigestAuthentication.fields]
  · rw [hcnonce]
    rfl
  · simp [DigestAuthentication.fields]
  · rw [hnc]
    rfl

/-- There is one client nonce in the header. -/
theorem cnonce_of_mem {d : DigestAuthentication} {md5 : List UInt8 → List UInt8} {c : Text}
    {cs : List AddCall} (hcs : d.addCalls md5 charset = some cs)
    (hmem : .quoted "cnonce".toList c ∈ cs) : d.cnonce = some c := by
  unfold addCalls at hcs
  split at hcs
  · cases hcs
  · rw [← Option.some.inj hcs] at hmem
    exact value_of_mem (f := ⟨"cnonce".toList, true, d.cnonce⟩) (nodup_fields md5 charset d)
      (by simp [DigestAuthentication.fields]) hmem rfl

/-- **With a session, the inner hash is another text**, and MD5 may tell the difference. -/
theorem not_session (happ : ∀ s t, charset.encode (s ++ t) = charset.encode s ++ charset.encode t)
    {d : DigestAuthentication} {v : DigestValues}
    (hsession : DigestValues.IsSession d.algorithm) (halgorithm : d.algorithm = v.algorithm)
    (heq : ∀ md5 : List UInt8 → List UInt8, d.getResponse md5 charset =
      v.requestDigest (hexMD5 md5 charset) fun body => asHex (md5 body)) : False := by
  -- a function that puts a byte in front, which is no digit
  set md5 : List UInt8 → List UInt8 := (255 :: ·) with hmd5
  have hleft : ∃ s, d.getResponse md5 charset =
      hexMD5 md5 charset (asHex (md5 (d.a1 md5 charset)) ++ ':' :: s) := ⟨_, rfl⟩
  have hright : ∃ t, v.requestDigest (hexMD5 md5 charset) (fun body => asHex (md5 body)) =
      hexMD5 md5 charset (asHex (md5 (charset.encode (v.a1 (hexMD5 md5 charset)))) ++ ':' :: t) := by
    unfold DigestValues.requestDigest
    split
    · exact ⟨_, rfl⟩
    · exact ⟨_, rfl⟩
  obtain ⟨s, hs⟩ := hleft
  obtain ⟨t, ht⟩ := hright
  have hhash := asHex_injective ((hs.symm.trans (heq md5)).trans ht)
  have ha1 := eq_of_encode_eq happ (List.cons.inj hhash).2
  have ha1 := (List.cons.inj ha1).2
  have hcode : ∃ l, d.a1 md5 charset = 255 :: l := by
    obtain ⟨a, ha, htrue⟩ := hsession
    rw [DigestAuthentication.a1, if_neg fun hall => by rw [hall a ha] at htrue; cases htrue]
    exact ⟨_, rfl⟩
  have hprescribed : ∃ l, charset.encode (v.a1 (hexMD5 md5 charset)) = 102 :: l := by
    have hhex (s : Text) : hexMD5 md5 charset s = asHex (255 :: charset.encode s) := rfl
    rw [DigestValues.a1, if_pos (halgorithm ▸ hsession), happ, hhex, encode_asHex, asHex_cons]
    exact ⟨_, rfl⟩
  obtain ⟨l, hl⟩ := hcode
  obtain ⟨l', hl'⟩ := hprescribed
  rw [hl, hl'] at ha1
  exact absurd (List.cons.inj ha1).1 (by decide)

/-- **When the response is the one that RFC 2617 prescribes**, for the values that the caller and
the challenge supply: the algorithm is not MD5-sess; and there is no `qop`, or the challenge has a
client nonce, so that the one of the caller is taken, or the random one is the same. -/
theorem conforms_iff (charset : Charset)
    (happ : ∀ s t, charset.encode (s ++ t) = charset.encode s ++ charset.encode t)
    (random : List UInt8) (method uri username passwd realm nonce : Text) (qop : Option Text)
    (cnonce : Text) (nc : ℕ) (body : Option (List UInt8)) (ah : AuthenticationHeader)
    (hrealm : ah.getRealmParam = some realm) (hnonce : ah.getNonceParam = some nonce) (hnc : 0 < nc)
    (hlt : nc < 2 ^ 31) :
    Conforms charset (client random method uri username passwd qop cnonce nc body ah)
        (supplied method uri username passwd realm nonce qop cnonce nc body ah) ↔
      ¬DigestValues.IsSession ah.getAlgorithParam ∧
        (qop = none ∨ ah.getCnonceParam ≠ none ∨ asHex random = cnonce) := by
  obtain ⟨-, fusername, -, furi, frealm, fnonce, falgorithm, -, -⟩ :=
    client_fields random method uri username passwd qop cnonce nc body ah
  constructor
  · rintro ⟨hdigest, hheader⟩
    refine ⟨fun hsession => not_session happ (falgorithm ▸ hsession) falgorithm hdigest, ?_⟩
    by_cases hqop : qop = none
    · exact .inl hqop
    · obtain ⟨cs, hcs, hmem, -⟩ := hheader hqop id
      have hcnonce := cnonce_of_mem hcs hmem
      rw [(client_nonce random method uri username passwd cnonce body ah hqop hnc hlt).1] at hcnonce
      split at hcnonce
      · rename_i hsome
        exact .inr (.inl hsome)
      · exact .inr (.inr (Option.some.inj hcnonce))
  · rintro ⟨hsession, hcnonce⟩
    refine ⟨getResponse_eq hsession hrealm hnonce hnc hlt hcnonce, fun hqop md5 => ?_⟩
    obtain ⟨fcnonce, fnc⟩ := client_nonce random method uri username passwd cnonce body ah hqop hnc
      hlt
    refine mem_addCalls _ md5 ?_ (fcnonce.trans ?_) fnc
    · rw [fusername, frealm, fnonce, furi, hrealm, hnonce]
      rintro (h | h | h | h) <;> cases h
    · show _ = some cnonce
      split
      · rfl
      · rename_i hnone
        rw [(hcnonce.resolve_left hqop).resolve_left hnone]

/-- Characters are written one by one. -/
theorem latin1_append (s t : Text) :
    Charset.latin1.encode (s ++ t) = Charset.latin1.encode s ++ Charset.latin1.encode t :=
  List.map_append

/-- A client nonce that happens to be the random one. -/
theorem conforms_sampleHeader :
    Conforms Charset.latin1
      (client [10, 79, 17, 59] "GET".toList "/dir/index.html".toList "Mufasa".toList
        "Circle Of Life".toList (some "auth".toList) "0a4f113b".toList 1 none sampleHeader)
      (supplied "GET".toList "/dir/index.html".toList "Mufasa".toList "Circle Of Life".toList
        "a, b".toList "1=".toList (some "auth".toList) "0a4f113b".toList 1 none sampleHeader) :=
  (conforms_iff Charset.latin1 latin1_append [10, 79, 17, 59] "GET".toList "/dir/index.html".toList
    "Mufasa".toList "Circle Of Life".toList "a, b".toList "1=".toList (some "auth".toList)
    "0a4f113b".toList 1 none sampleHeader (by decide) (by decide) (by decide) (by decide)).mpr
    ⟨by decide, .inr (.inr (by decide))⟩

/-- **The client nonce of the caller is not the one in the header.** -/
theorem not_conforms_random :
    ¬∀ (random : List UInt8) (cnonce : Text),
      Conforms Charset.latin1
        (client random "GET".toList "/dir/index.html".toList "Mufasa".toList "Circle Of Life".toList
          (some "auth".toList) cnonce 1 none sampleHeader)
        (supplied "GET".toList "/dir/index.html".toList "Mufasa".toList "Circle Of Life".toList
          "a, b".toList "1=".toList (some "auth".toList) cnonce 1 none sampleHeader) := by
  intro hall
  obtain ⟨cs, hcs, hmem, -⟩ := (hall [0, 0, 0, 0] "0a4f113b".toList).2 (by decide) id
  have hcnonce := cnonce_of_mem hcs hmem
  exact absurd hcnonce (by decide)

end Conforms

end SoftPhone
