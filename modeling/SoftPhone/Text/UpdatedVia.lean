import SoftPhone.Text.ParameterMap
import SoftPhone.Text.SentBy
import SoftPhone.Text.Stacks

/-!
# The top Via and the connection

Before a request is sent, `updateViaHeader` compares the sent-by of its top Via with the address of the
connection.  If they are the same, only the transport can change.  Otherwise a new Via value is made,
and gets the rport request and the branch of the old one.

The branch is set also when there is none.  Then the parameter branch stands there without a value, at
the end of the text, where `getBranch` fails.
-/

namespace SoftPhone

open SipParser ParametricHeader

/-- The transport, the address and the port that a message is sent from. -/
structure Connection where
  proto : Transport
  host : Host
  port : ℤ
  portRange : 0 ≤ port ∧ port ≤ 2147483647

namespace ViaHeader

/-! ## The methods -/

def maddrParam : Text := "maddr".toList
def ttlParam : Text := "ttl".toList

/-- `setRport()`. -/
def requestRport (value : Text) : Text := setParameter firstSemi rportParam none value

/-- `setMaddr(addr)`. -/
def setMaddr (addr value : Text) : Text := setParameter firstSemi maddrParam (some addr) value

/-- `setTtl(ttl)`. -/
def setTtl (ttl : ℤ) (value : Text) : Text :=
  setParameter firstSemi ttlParam (some (valueOf ttl)) value

/-- The sent-by does not differ.  The port is read only when the host is the same; `none` is an
exception. -/
def sameSentBy (addr : Text) (port : ℤ) (value : Text) : Option Bool :=
  (getHost value).bind fun host =>
    if equalsIgnoreCase host addr then (getPort value).map (· == port) else some false

/-- The value that is made where the sent-by differs. -/
def rebuilt (proto addr : Text) (port : ℤ) (value : Text) : Option Text :=
  (getBranch value).map fun branch =>
    let via := ofHost proto addr port
    setBranch branch (if hasRport value then requestRport via else via)

/-- The transport, where it differs.  The second part is `via_changed`. -/
def setTransport (proto : Text) (p : Header × Bool) : Header × Bool :=
  if equalsIgnoreCase (getProtocol p.1.value) proto then p
  else ({ p.1 with value := setProtocol proto p.1.value }, true)

/-- The parameters for a multicast address. -/
def multicast (maddr : Text) (ttl : ℤ) (value : Text) : Text :=
  let value := setMaddr maddr value
  if 0 < ttl then setTtl ttl value else value

def setMulticast (maddr : Option Text) (ttl : ℤ) (p : Header × Bool) : Header × Bool :=
  match maddr with
  | none => p
  | some maddr => ({ p.1 with value := multicast maddr ttl p.1.value }, true)

/-- What `updateViaHeader` makes of the top Via, and `via_changed`. -/
def updatedVia (proto addr : Text) (port : ℤ) (maddr : Option Text) (ttl : ℤ) (via : Header) :
    Option (Header × Bool) :=
  (sameSentBy addr port via.value).bind fun same =>
    (if same then some (via, false)
      else (rebuilt proto addr port via.value).map fun value => (⟨SipHeaders.via, value⟩, true)).map
    fun p => setMulticast maddr ttl (setTransport proto p)

end ViaHeader

/-- `updateViaHeader(msg,proto,via_addr,host_port,maddr,ttl)`; `none` is an exception. -/
def BasicSipMessage.updateViaHeader (proto addr : Text) (port : ℤ) (maddr : Option Text) (ttl : ℤ)
    (m : BasicSipMessage) : Option BasicSipMessage :=
  (m.getVias.bind MultipleHeader.getTop).bind fun via =>
    (ViaHeader.updatedVia proto addr port maddr ttl via).bind fun p =>
      if p.2 then m.removeViaHeader.map (addViaHeader p.1) else some m

/-! ## What is read once is read again -/

theorem wordSkippingQuoted_idem (inside : Bool) (s : Text) :
    wordSkippingQuoted inside (wordSkippingQuoted inside s) = wordSkippingQuoted inside s := by
  induction s generalizing inside with
  | nil => rfl
  | cons a s ih =>
    by_cases ha : isParamSeparator a = true ∧ inside = false
    · rw [wordSkippingQuoted, if_pos ha]
      rfl
    · rw [wordSkippingQuoted, if_neg ha, wordSkippingQuoted, if_neg ha, ih]

/-- A word that was read is one that is read. -/
theorem word_getWordSkippingQuoted (s : Text) :
    wordSkippingQuoted false (getWordSkippingQuoted s) = getWordSkippingQuoted s ∧
      getWordSkippingQuoted (getWordSkippingQuoted s) = getWordSkippingQuoted s := by
  have hword : wordSkippingQuoted false (getWordSkippingQuoted s) = getWordSkippingQuoted s :=
    wordSkippingQuoted_idem false _
  have hdrop : (getWordSkippingQuoted s).dropWhile isParamSeparator = getWordSkippingQuoted s := by
    unfold getWordSkippingQuoted
    cases hs : s.dropWhile isParamSeparator with
    | nil => rfl
    | cons a d =>
      have ha := head_dropWhile (p := isParamSeparator) (s := s) a (by rw [hs]; rfl)
      rw [wordSkippingQuoted, if_neg (by simp [ha])]
      exact List.dropWhile_cons_of_neg (by simp [ha])
  refine ⟨hword, ?_⟩
  conv_lhs => rw [getWordSkippingQuoted, hdrop]
  exact hword

/-- A parameter with a value is there, and its value is a word that was read. -/
theorem findParameter_some {name b : Text} {n : ℕ} {s : Text}
    (h : findParameter name n s = some (some b)) :
    anyParameter name n s = true ∧ ∃ t, b = getWordSkippingQuoted t := by
  induction n generalizing s with
  | zero => exact absurd h (by simp [findParameter])
  | succ n ih =>
    by_cases hs : s = []
    · rw [hs, findParameter_nil] at h
      exact absurd h (by simp)
    simp only [findParameter, hs, if_false] at h
    simp only [anyParameter, hs, if_false]
    by_cases hname : (SipParser.getWord s).1 = name
    · rw [if_pos hname] at h
      refine ⟨by simp [hname], ?_⟩
      split at h
      · exact absurd h (by simp)
      · rename_i c t _
        by_cases hc : c = '='
        · rw [if_pos hc] at h
          exact ⟨t, (Option.some.inj (Option.some.inj h)).symm⟩
        · rw [if_neg hc] at h
          exact absurd h (by simp)
    · rw [if_neg hname] at h
      obtain ⟨hany, ht⟩ := ih h
      exact ⟨by rw [hany, Bool.or_true], ht⟩

namespace ViaHeader

/-! ## The value that is made -/

open HeaderParam

/-- The rport request. -/
def rportFlag : HeaderParam := ⟨rportParam, none, by decide, by decide, isValue_none⟩

def requests (rport : Bool) : List HeaderParam := if rport then [rportFlag] else []

theorem closed_requests (rport : Bool) : ∀ r ∈ requests rport, r.Closed := by
  cases rport with
  | false => exact fun r hr => absurd hr List.not_mem_nil
  | true =>
    intro r hr v hv
    rw [List.mem_singleton.mp hr] at hv
    exact absurd hv (by simp [rportFlag])

/-- A branch that was read, or none. -/
def IsBranch (branch : Option Text) : Prop := ∀ b ∈ branch, ∃ t, b = getWordSkippingQuoted t

theorem IsBranch.skips {branch : Option Text} (h : IsBranch branch) {d : Char}
    (hd : isParamSeparator d = true) (hne : d ≠ '=') : Skips d false (addedText branch) := by
  cases hbranch : branch with
  | none => exact skips_nil _ _
  | some b =>
    obtain ⟨t, rfl⟩ := h b hbranch
    refine skips_cons.mpr ⟨fun hc => hne hc.1.symm, ?_⟩
    rw [if_neg (by decide)]
    exact skips_of_word hd (word_getWordSkippingQuoted t).1

theorem isBranch_of_getBranch {v : Text} {branch : Option Text} (h : getBranch v = some branch) :
    IsBranch branch := by
  intro b hb
  rw [Option.mem_def.mp hb] at h
  exact (findParameter_some h).2

/-- The parameters of the value. -/
def rebuiltParams (rport : Bool) (branch : Option Text) : Text :=
  paramsText (requests rport) ++ ';' :: (branchParam ++ addedText branch)

theorem Shape.append {proto : Transport} {sentBy base u : Text} (h : Shape proto sentBy [] base)
    (hsent : IsSentBy sentBy) (hu : u = [] ∨ ∃ w, u = ';' :: w) :
    Shape proto sentBy u (base ++ u) ∧ ParametricHeader.firstSemi (base ++ u) = (base, u) := by
  obtain ⟨head, hbase, -, hshape⟩ := h.firstSemi hsent
  rw [List.append_nil] at hbase
  subst hbase
  have hnew := hshape u hu
  obtain ⟨head, heq, hspan, -⟩ := hnew.firstSemi hsent
  rw [List.append_cancel_right heq]
  exact ⟨List.append_cancel_right heq ▸ hnew, List.append_cancel_right heq ▸ hspan⟩

section Rebuilt

variable {base : Text}
  (hbase : ∀ u, (u = [] ∨ ∃ w, u = ';' :: w) → ParametricHeader.firstSemi (base ++ u) = (base, u))

include hbase

/-- A parameter that is not there is added behind the others. -/
theorem setParameter_append {u pname : Text} (hp : pname ≠ []) (hu : u = [] ∨ ∃ w, u = ';' :: w)
    (hnot : (segments u.tail).any (·.name == pname) = false) (pvalue : Option Text) :
    setParameter ParametricHeader.firstSemi pname pvalue (base ++ u) =
      base ++ (u ++ ';' :: (pname ++ addedText pvalue)) := by
  rw [setParameter_eq, ParametricValue.hasParameter_eq hp (hbase u hu), hnot,
    if_neg Bool.false_ne_true, List.append_assoc]

theorem setBranch_requested (rport : Bool) (branch : Option Text) :
    setBranch branch (if rport then requestRport base else base) =
      base ++ rebuiltParams rport branch := by
  have hrequest : (if rport = true then requestRport base else base) =
      base ++ paramsText (requests rport) := by
    cases rport with
    | false => exact (List.append_nil base).symm
    | true =>
      have hset := setParameter_append hbase (show rportParam ≠ [] by decide) (.inl rfl) rfl none
      rw [List.append_nil] at hset
      exact hset
  rw [hrequest]
  exact setParameter_append hbase (by decide) (paramsText_begins _) (by cases rport <;> decide) branch

/-- **The rport request and the branch are read again**, but no branch is an index out of range. -/
theorem reads_rebuilt (rport : Bool) {branch : Option Text} (hbranch : IsBranch branch) :
    getBranch (base ++ rebuiltParams rport branch) = branch.map some ∧
      hasBranch (base ++ rebuiltParams rport branch) = true ∧
      hasRport (base ++ rebuiltParams rport branch) = rport := by
  have hsemi := hbase (rebuiltParams rport branch)
    (paramsText_cases (requests rport) (.inr ⟨_, rfl⟩))
  have hclosed := closed_requests rport
  have hfirst : First [] branchParam (addedText branch) [] := by
    refine ⟨by simp, by decide, by decide, fun c hc => ?_, ?_, .inl rfl⟩
    · rw [List.append_nil] at hc
      rw [head_addedText branch c hc]
      decide
    · exact hbranch.skips isParamSeparator_semi (by decide)
  have hsegments : segments (rebuiltParams rport branch).tail =
      (requests rport).map HeaderParam.segment ++ [⟨branchParam, addedText branch⟩] := by
    have hlast := segments_first hfirst
    rw [List.nil_append, List.append_nil] at hlast
    rw [rebuiltParams, segments_paramsText hclosed (.inr ⟨_, rfl⟩), List.tail_cons, hlast]
    rfl
  have hnot : ∀ r ∈ requests rport, r.name ≠ branchParam := by
    cases rport with
    | false => exact fun r hr => absurd hr List.not_mem_nil
    | true => exact List.forall_mem_singleton.mpr (by decide)
  refine ⟨?_, ?_, ?_⟩
  · have hself := findParameter_self (show branchParam ≠ [] by decide) (by decide) branch
      (branchParam ++ addedText branch).length
    rw [getBranch, ParametricValue.getParameter_eq (by decide) hsemi, rebuiltParams,
      findParameter_paramsText hclosed (.inr ⟨_, rfl⟩) (by decide) le_rfl (Nat.le_succ _),
      readIn_of_not_mem hnot, List.tail_cons, hself]
    cases branch with
    | none => rfl
    | some b =>
      obtain ⟨t, rfl⟩ := hbranch b rfl
      exact congrArg (fun w => some (some w)) (word_getWordSkippingQuoted t).2
  · rw [hasBranch, ParametricValue.hasParameter_eq (by decide) hsemi, hsegments, List.any_append]
    exact Bool.or_true _
  · rw [hasRport, ParametricValue.hasParameter_eq (by decide) hsemi, hsegments, List.any_append]
    cases rport <;> rfl

end Rebuilt

theorem skips_rebuiltParams (rport : Bool) {branch : Option Text} (hbranch : IsBranch branch) :
    Skips ',' false (rebuiltParams rport branch) := by
  have hends : endsInside false (paramsText (requests rport)) = false := by cases rport <;> decide
  refine skips_append.mpr ⟨by cases rport <;> decide, ?_⟩
  rw [hends]
  refine skips_cons.mpr ⟨by decide, ?_⟩
  rw [if_neg (by decide)]
  have hquote : '"' ∉ branchParam := by decide
  rw [skips_append, endsInside_of_not_mem hquote]
  exact ⟨by decide, hbranch.skips (by decide) (by decide)⟩

end ViaHeader

/-! ## The value that is sent -/

namespace Connection

open ViaHeader

variable (c : Connection)

/-- The parts of a Via value that names the connection. -/
def parts : ViaParts where
  proto := c.proto
  host := c.host
  port := some c.port
  portRange p hp := by
    have hrange := c.portRange
    rw [← Option.some.inj hp]
    omega

/-- `updateViaHeader` for the connection. -/
def updatedVia (maddr : Option Text) (ttl : ℤ) (via : Header) : Option (Header × Bool) :=
  ViaHeader.updatedVia c.proto.name c.host.toText c.port maddr ttl via

/-- The sent-by of a Via value is the one of the connection. -/
def sameSentBy (v : Text) : Option Bool := ViaHeader.sameSentBy c.host.toText c.port v

/-- Transport and sent-by of the value are those of the connection; branch and rport request are those
of the value before. -/
structure Outgoing (v v' : Text) : Prop where
  protocol : equalsIgnoreCase (getProtocol v') c.proto.name = true
  host : ∃ host, getHost v' = some host ∧ equalsIgnoreCase host c.host.toText = true
  port : getPort v' = some c.port
  branch : getBranch v' = getBranch v
  hasBranch : hasBranch v' = hasBranch v
  rport : hasRport v' = hasRport v

/-- The value that is made, without its parameters. -/
def base : Text := ofHost c.proto.name c.host.toText c.port

variable {c} {v : Text}

theorem sameSentBy_iff : c.sameSentBy v = some true ↔
    ∃ host, getHost v = some host ∧ equalsIgnoreCase host c.host.toText = true ∧
      getPort v = some c.port := by
  unfold sameSentBy ViaHeader.sameSentBy
  cases getHost v with
  | none => simp
  | some host =>
    by_cases hhost : equalsIgnoreCase host c.host.toText = true
    · cases getPort v <;> simp [hhost]
    · simp [hhost]

/-- The answer depends on host and port. -/
theorem sameSentBy_congr {w : Text} (hhost : getHost v = getHost w) (hport : getPort v = getPort w) :
    c.sameSentBy v = c.sameSentBy w := by
  unfold sameSentBy ViaHeader.sameSentBy
  rw [hhost, hport]

theorem shape_base : Shape c.proto.upper c.parts.sentBy [] c.base := by
  refine ⟨⟨0, ?_⟩, .inl rfl⟩
  show ofHost _ _ _ =
    transportText c.proto.upper.name (c.host.toText ++ ':' :: valueOf c.port ++ [])
  rw [List.append_nil, ofHost_eq]
  rfl

theorem firstSemi_base (u : Text) (hu : u = [] ∨ ∃ w, u = ';' :: w) :
    ParametricHeader.firstSemi (c.base ++ u) = (c.base, u) :=
  (shape_base.append c.parts.isSentBy hu).2

/-- The value that is made for the branch `branch`. -/
theorem shape_rebuilt (rport : Bool) (branch : Option Text) :
    Shape c.proto.upper c.parts.sentBy (rebuiltParams rport branch)
      (c.base ++ rebuiltParams rport branch) :=
  (shape_base.append c.parts.isSentBy (HeaderParam.paramsText_cases _ (.inr ⟨_, rfl⟩))).1

theorem skips_rebuilt (rport : Bool) {branch : Option Text} (hbranch : IsBranch branch) :
    Skips ',' false (c.base ++ rebuiltParams rport branch) := by
  have hbase : c.base = transportText c.proto.upper.name c.parts.sentBy := ofHost_eq
  have hsent := c.parts.plain_sentBy
  rw [hbase, transportText_eq, List.append_assoc, ← transportText_eq, skips_transportText,
    skips_append, endsInside_of_not_mem fun hc => (hsent _ hc).2.2.2 rfl]
  exact ⟨skips_of_not_mem (fun hc => (hsent _ hc).2.2.1 rfl) _, skips_rebuiltParams rport hbranch⟩

/-- An address in brackets is not read. -/
theorem isName_of_sameSentBy {u : Text} (h : Shape c.proto.upper c.parts.sentBy u v)
    (hsame : c.sameSentBy v = some true) : c.host.IsName := by
  by_contra hname
  obtain ⟨host, hhost, hequal, -⟩ := sameSentBy_iff.mp hsame
  unfold Host.IsName at hname
  cases hc : c.host with
  | name host _ hchars =>
    rw [hc] at hname
    refine hname fun hmem => ?_
    exact absurd (SipUriParts.isHostChar_ne (hchars _ hmem)).2.1 (by decide)
  | ipv6 addr _ _ =>
    have hread := h.getSentBy c.parts.isSentBy
    have hsent : c.parts.sentBy = '[' :: (addr ++ [']'] ++ SipUriParts.portText (some c.port)) := by
      show c.host.toText ++ _ = _
      rw [hc]
      rfl
    rw [hsent, List.takeWhile_cons_of_neg (by decide)] at hread
    rw [getHost, hread] at hhost
    rw [hc, ← Option.some.inj hhost] at hequal
    exact absurd hequal (by simp [equalsIgnoreCase, Host.toText])

/-- **What was made names the connection**, and is no longer different from it. -/
theorem outgoing_rebuilt (hname : c.host.IsName) {b : Text} (hb : getBranch v = some (some b)) :
    c.Outgoing v (c.base ++ rebuiltParams (hasRport v) (some b)) := by
  have hreturns := c.parts.returns_of_shape hname c.proto.equalsIgnoreCase_upper
    (shape_rebuilt (c := c) (hasRport v) (some b))
  obtain ⟨hget, hhas, hrport⟩ := reads_rebuilt (firstSemi_base (c := c)) (hasRport v)
    (isBranch_of_getBranch hb)
  refine ⟨hreturns.protocol, ⟨_, hreturns.host, beq_self_eq_true _⟩, hreturns.port, ?_, ?_, hrport⟩
  · rw [hget, hb]
    rfl
  · rw [hhas]
    exact (findParameter_some hb).1.symm

/-- The transport was set, and the sent-by is the one of the connection. -/
theorem outgoing_transportText {proto proto' : Transport} {s : Text}
    (hproto : equalsIgnoreCase proto'.name c.proto.name = true)
    (hsame : c.sameSentBy (transportText proto.name s) = some true) (blanks : ℕ) :
    c.Outgoing (transportText proto.name s)
      (transportText proto'.name (List.replicate blanks ' ' ++ s)) := by
  obtain ⟨host, hhost, hequal, hport⟩ := sameSentBy_iff.mp hsame
  have hsent := getSentBy_transportText proto proto' blanks s
  have hparams := parameters_transportText proto proto' blanks s
  refine ⟨?_, ⟨host, ?_, hequal⟩, ?_, ?_, ?_, ?_⟩
  · rwa [getProtocol_transportText]
  · rwa [getHost, hsent]
  · rwa [getPort, hsent]
  · unfold getBranch getParameter
    rw [hparams]
  · unfold hasBranch hasParameter
    rw [hparams]
  · unfold hasRport hasParameter
    rw [hparams]

theorem Outgoing.sameSentBy {v' : Text} (h : c.Outgoing v v') : c.sameSentBy v' = some true := by
  obtain ⟨host, hhost, hequal⟩ := h.host
  exact sameSentBy_iff.mpr ⟨host, hhost, hequal, h.port⟩

/-! ## One application -/

section Step

variable {n : Text} {maddr : Option Text} {ttl : ℤ}

/-- Nothing but the transport can change. -/
theorem updatedVia_same (hsame : c.sameSentBy v = some true) :
    c.updatedVia maddr ttl ⟨n, v⟩ =
      some (setMulticast maddr ttl (setTransport c.proto.name (⟨n, v⟩, false))) := by
  unfold updatedVia ViaHeader.updatedVia
  unfold sameSentBy at hsame
  rw [hsame]
  rfl

/-- What is made of the transport. -/
theorem setTransport_cases (proto : Transport) (s n : Text) :
    ∃ (proto' : Transport) (blanks : ℕ) (changed : Bool),
      setTransport c.proto.name (⟨n, transportText proto.name s⟩, false) =
        (⟨n, transportText proto'.name (List.replicate blanks ' ' ++ s)⟩, changed) ∧
      equalsIgnoreCase proto'.name c.proto.name = true ∧
      (changed = false → transportText proto'.name (List.replicate blanks ' ' ++ s) =
        transportText proto.name s) := by
  unfold setTransport
  split
  · rename_i hproto
    rw [getProtocol_transportText] at hproto
    exact ⟨proto, 0, false, rfl, hproto, fun _ => rfl⟩
  · refine ⟨c.proto.upper, 1, true, ?_, c.proto.equalsIgnoreCase_upper, fun h => Bool.noConfusion h⟩
    exact congrArg (fun v => ((⟨n, v⟩ : Header), true)) (setProtocol_transportText proto s c.proto.name)

/-- The transport is not set again. -/
theorem setTransport_eq_self {b : Bool}
    (hproto : equalsIgnoreCase (getProtocol v) c.proto.name = true) :
    setTransport c.proto.name (⟨n, v⟩, b) = (⟨n, v⟩, b) := by
  unfold setTransport
  exact if_pos hproto

/-- A value is made. -/
theorem updatedVia_rebuilt (hsame : c.sameSentBy v = some false) {branch : Option Text}
    (hbranch : getBranch v = some branch) :
    c.updatedVia maddr ttl ⟨n, v⟩ = some (setMulticast maddr ttl
      (⟨SipHeaders.via, c.base ++ rebuiltParams (hasRport v) branch⟩, true)) := by
  have hmade : rebuilt c.proto.name c.host.toText c.port v =
      some (c.base ++ rebuiltParams (hasRport v) branch) := by
    unfold rebuilt
    rw [hbranch, ← setBranch_requested firstSemi_base]
    rfl
  have htransport : setTransport c.proto.name
      (⟨SipHeaders.via, c.base ++ rebuiltParams (hasRport v) branch⟩, true) =
        (⟨SipHeaders.via, c.base ++ rebuiltParams (hasRport v) branch⟩, true) := by
    refine setTransport_eq_self ?_
    rw [(shape_rebuilt _ branch).getProtocol]
    exact c.proto.equalsIgnoreCase_upper
  unfold updatedVia ViaHeader.updatedVia
  unfold sameSentBy at hsame
  rw [hsame, Option.bind_some, if_neg Bool.false_ne_true]
  show Option.map _ (Option.map _ (rebuilt _ _ _ v)) = _
  rw [hmade, Option.map_some, Option.map_some, htransport]

/-- An exception. -/
theorem updatedVia_eq_none (h : c.sameSentBy v = none ∨
    c.sameSentBy v = some false ∧ getBranch v = none) :
    c.updatedVia maddr ttl ⟨n, v⟩ = none := by
  unfold updatedVia ViaHeader.updatedVia
  unfold sameSentBy at h
  rcases h with hsame | ⟨hsame, hbranch⟩
  · rw [hsame]
    rfl
  · rw [hsame]
    unfold rebuilt
    rw [hbranch]
    rfl

end Step

end Connection
end SoftPhone
