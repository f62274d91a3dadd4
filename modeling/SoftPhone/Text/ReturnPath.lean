import SoftPhone.Text.Destination
import SoftPhone.Text.Matching

/-!
# The way back of a response

A request comes from an address and a port.  `Returned` says that a response to it goes there: to
the address, and to the port if the top Via has `rport`, and else to the port of the sent-by.

The sender may plant parameters in the Via.  The provider replaces the first one of a name and
puts its own one behind the others, and the destination is read from the first one that is left.
So a second `rport` is taken in place of the real one; and where the host of the Via is the source
address, no `received` is set, so that one that the sender has planted is taken.  `planted` are
the parameters `received` that are left, and `Harmless` says that the ones that are read first lead
back to the sender.
-/

namespace SoftPhone

open SipParser ParametricHeader

namespace ViaHeader

/-! ## Reading a parameter -/

theorem getParameter_given {pname via : Text} {a : Segment}
    (ha : (named pname (parameters via)).head? = some a) (hne : given a.tail ≠ some []) :
    getParameter ParametricHeader.firstSemi pname via = some (given a.tail) ∨
      given a.tail = none ∧ getParameter ParametricHeader.firstSemi pname via = none ∧
        (parameters via).getLast? = some a := by
  unfold getParameter
  unfold parameters at ha ⊢
  rw [← find_eq] at ha
  rw [← segments_skipWSP] at ha ⊢
  exact findParameter_given le_rfl ha hne

/-- The parameter is there if there is a first one. -/
theorem hasParameter_iff {pname : Text} (hp : pname ≠ []) (via : Text) :
    hasParameter ParametricHeader.firstSemi pname via = true ↔
      ∃ a, (named pname (parameters via)).head? = some a := by
  rw [hasParameter_eq hp, any_eq, find_eq, Option.isSome_iff_exists]

theorem named_rport_eq_nil {via : Text} (h : hasRport via = false) :
    named rportParam (parameters via) = [] := by
  cases hnamed : named rportParam (parameters via) with
  | nil => rfl
  | cons a l =>
    have hhas : hasRport via = true :=
      (hasParameter_iff (by decide) via).mpr ⟨a, by rw [hnamed]; rfl⟩
    rw [h] at hhas
    exact absurd hhas (by decide)

/-- The address is the value of the first `received`. -/
theorem getReceived_iff {via addr : Text} {a : Segment}
    (ha : (named receivedParam (parameters via)).head? = some a) (hne : given a.tail ≠ some []) :
    getReceived via = some (some addr) ↔ given a.tail = some addr := by
  unfold getReceived
  rcases getParameter_given ha hne with h | ⟨hgiven, h, -⟩
  · rw [h, Option.some_inj]
  · rw [h, hgiven]
    simp

/-- The number that stands in the tail of an `rport`. -/
def rportOf (tail : Text) : Option ℤ :=
  match given tail with
  | none => some (-1)
  | some rport => parseInt rport

theorem given_of_rportOf {tail : Text} {n : ℤ} (h : rportOf tail = some n) :
    given tail ≠ some [] := by
  intro hnil
  unfold rportOf at h
  rw [hnil] at h
  have hnone : parseInt [] = none := by decide
  exact absurd (hnone.symm.trans h) (by simp)

/-- The port is the number of the first `rport`. -/
theorem getRport_eq {via : Text} {a : Segment}
    (ha : (named rportParam (parameters via)).head? = some a) (hne : given a.tail ≠ some [])
    (hlast : given a.tail = none → (parameters via).getLast? ≠ some a) :
    getRport via = rportOf a.tail := by
  unfold getRport rportOf
  rcases getParameter_given ha hne with h | ⟨hgiven, -, h⟩
  · rw [h]
    rfl
  · exact absurd h (hlast hgiven)

/-! ## What the provider sets -/

/-- A source address: a word without separators and quotes. -/
structure IsSource (addr : Text) : Prop where
  ne_nil : addr ≠ []
  word : ∀ c ∈ addr, isParamSeparator c = false
  quote : '"' ∉ addr

instance (addr : Text) : Decidable (IsSource addr) :=
  decidable_of_iff (addr ≠ [] ∧ (∀ c ∈ addr, isParamSeparator c = false) ∧ '"' ∉ addr)
    ⟨fun h => ⟨h.1, h.2.1, h.2.2⟩, fun h => ⟨h.ne_nil, h.word, h.quote⟩⟩

theorem IsSource.isAddress {addr : Text} (h : IsSource addr) : IsAddress addr where
  semi := fun hmem => absurd (h.word _ hmem) (by decide)
  comma := fun hmem => absurd (h.word _ hmem) (by decide)
  quote := h.quote

theorem IsSource.given {addr : Text} (h : IsSource addr) :
    ParametricHeader.given (addedText (some addr)) = some addr :=
  (given_of_ownValue (ownValue_token h.word h.ne_nil h.quote)).1

/-- What `setRport` puts behind the name. -/
def rportTail (port : ℤ) : Text := addedText (if port < 0 then none else some (valueOf port))

theorem rportOf_rportTail {port : ℤ} (hport : 0 < port) (hmax : port ≤ 65535) :
    rportOf (rportTail port) = some port := by
  have hword : ∀ c ∈ valueOf port, isParamSeparator c = false := by
    intro c hc
    have hsep := not_separator_valueOf hc
    simp only [isSeparator, List.contains_eq_mem, decide_eq_false_iff_not, List.mem_cons,
      not_or] at hsep
    simp [isParamSeparator, hsep]
  have hgiven : given ('=' :: valueOf port) = some (valueOf port) :=
    (given_of_ownValue (ownValue_token hword (valueOf_ne_nil port) (isAddress_valueOf port).quote)).1
  unfold rportOf rportTail
  rw [if_neg (by omega)]
  show (match given ('=' :: valueOf port) with
    | none => some (-1)
    | some rport => parseInt rport) = some port
  rw [hgiven]
  exact parseInt_valueOf ⟨by omega, by omega⟩

/-- Where the provider sets a parameter, no quote is open, and `removeParameter` finds the one
that is there already. -/
structure Settable (forceRport : Bool) (srcAddr : Text) (srcPort : ℤ) (via : Text) : Prop where
  closed : getHost via ≠ some srcAddr ∨ hasRport via = true ∨ Forced forceRport srcPort via →
    endsInside false via = false
  spared : Spared srcAddr via

/-- The parameters `received` of the sender that the provider leaves. -/
def planted (srcAddr via : Text) : List Segment :=
  if getHost via = some srcAddr then named receivedParam (parameters via)
  else (named receivedParam (parameters via)).tail

/-- The parameters received and rport of a Via that the provider has made from another one. -/
structure Processed (head srcAddr : Text) (srcPort : ℤ) (forceRport : Bool) (via via' : Text) :
    Prop where
  hasHead : HasHead head via'
  received : named receivedParam (parameters via') = planted srcAddr via ++
    if getHost via = some srcAddr then [] else [⟨receivedParam, addedText (some srcAddr)⟩]
  rport : hasRport via' = true → ∃ l, parameters via' = l ++ [⟨rportParam, rportTail srcPort⟩] ∧
    named rportParam l = (named rportParam (parameters via)).tail
  requested : hasRport via = true → hasRport via' = true
  unset : hasRport via = false → forceRport = false → hasRport via' = false

/-- **What the provider makes of a Via**, where it finds the parameters that it sets. -/
theorem processed_receivedVia {head via addr : Text} {forceRport : Bool} {port : ℤ}
    {p : Text × Bool} (h : HasHead head via) (haddr : IsSource addr)
    (hset : Settable forceRport addr port via) (hp : receivedVia forceRport addr port via = some p) :
    Processed head addr port forceRport via p.1 := by
  obtain ⟨host, viaPort, w, hhost, -, hw, hp⟩ := receivedVia_cases hp
  -- the parameter received
  obtain ⟨hhead, hreceived, hrport, hhas, hclosed, hclear⟩ : HasHead head w ∧
      named receivedParam (parameters w) = planted addr via ++
        (if getHost via = some addr then [] else [⟨receivedParam, addedText (some addr)⟩]) ∧
      named rportParam (parameters w) = named rportParam (parameters via) ∧
      hasRport w = hasRport via ∧
      (hasRport via = true ∨ Forced forceRport port via → endsInside false w = false) ∧
      (clear rportParam (parameters via) = true → clear rportParam (parameters w) = true) := by
    obtain ⟨hne, rfl⟩ | ⟨heq, rfl⟩ := hw
    · have hnot : getHost via ≠ some addr := by
        rw [hhost]
        simpa using hne
      obtain ⟨hhead, hparameters, hclosed⟩ := h.setParameter (added_received haddr.isAddress)
        (comma_received haddr.isAddress) (hset.closed (.inl hnot)) (hset.spared.received hnot)
      have hrport : named rportParam (parameters (setReceived addr via)) =
          named rportParam (parameters via) := by
        unfold setReceived
        rw [hparameters, named_append (by decide), named_eraseP (by decide)]
      refine ⟨hhead, ?_, hrport, ?_, fun _ => hclosed, fun hclear => ?_⟩
      · unfold setReceived planted
        rw [hparameters, named_append_self, named_eraseP_self, if_neg hnot, if_neg hnot]
      · unfold hasRport
        rw [hasParameter_eq (by decide), hasParameter_eq (by decide), any_eq, any_eq, find_eq,
          find_eq, hrport]
      · unfold setReceived
        rw [hparameters]
        exact Extended.clear (by decide) (added_received haddr.isAddress) (.inl rfl)
          (clear_eraseP (by decide) hclear)
    · rw [heq] at hhost
      refine ⟨h, ?_, rfl, rfl, fun hor => hset.closed (.inr hor), id⟩
      unfold planted
      rw [if_pos hhost, if_pos hhost, List.append_nil]
  -- the parameter rport
  obtain ⟨rfl, hor⟩ | ⟨rfl, hnone⟩ := hp
  · obtain ⟨hhead', hparameters, -⟩ := hhead.setParameter (added_rport port) (comma_rport port)
      (hclosed (hhas ▸ hor)) fun hr => hclear (hset.spared.rport (hhas ▸ hr))
    have hseg : hasRport (setRport port w) = true := by
      unfold hasRport setRport
      rw [hasParameter_eq (by decide), hparameters]
      simp
    refine ⟨hhead', ?_, fun _ => ?_, fun _ => hseg, fun hv hforce => ?_⟩
    · rw [← hreceived]
      unfold setRport
      rw [hparameters, named_append (by decide), named_eraseP (by decide)]
    · refine ⟨_, hparameters, ?_⟩
      rw [named_eraseP_self, hrport]
    · unfold Forced at hor
      rw [hhas, hv, hforce] at hor
      exact absurd hor (by simp)
  · refine ⟨hhead, hreceived, fun hr => ?_, fun hv => ?_, fun _ _ => hnone⟩
    · rw [hnone] at hr
      exact absurd hr (by decide)
    · rw [hhas, hv] at hnone
      exact absurd hnone (by decide)

/-! ## What is read back -/

/-- The port that an `rport` leads to. -/
def portOf (via tail : Text) : Option ℤ :=
  (rportOf tail).bind fun rport => (sentByPort via).map (rportOr rport)

/-- The parameters of the sender that are read first lead back to it. -/
structure Harmless (srcAddr : Text) (srcPort : ℤ) (via : Text) : Prop where
  received : ∀ a ∈ (planted srcAddr via).head?, given a.tail = some srcAddr
  rport : ∀ a ∈ (named rportParam (parameters via)).tail.head?, portOf via a.tail = some srcPort

/-- Behind `=`, there is a value. -/
def Valued (via : Text) : Prop :=
  ∀ a ∈ parameters via, a.name = receivedParam ∨ a.name = rportParam → given a.tail ≠ some []

/-- The response goes back to the sender of the request with the top Via `via`. -/
def Returned (forceRport : Bool) (srcAddr : Text) (srcPort : ℤ) (via : Text)
    (dest : Option (Option Text × ℤ)) : Prop :=
  ∃ port, dest = some (some srcAddr, port) ∧ (hasRport via = true → port = srcPort) ∧
    (hasRport via = false → forceRport = false → sentByPort via = some port)

theorem Valued.given_ne {pname via : Text} (h : Valued via)
    (hp : pname = receivedParam ∨ pname = rportParam) {a : Segment}
    (ha : a ∈ named pname (parameters via)) : given a.tail ≠ some [] := by
  obtain ⟨hmem, hname⟩ := List.mem_filter.mp ha
  rw [← eq_of_beq hname] at hp
  exact h a hmem hp

theorem mem_of_planted {srcAddr via : Text} {a : Segment} (ha : a ∈ planted srcAddr via) :
    a ∈ named receivedParam (parameters via) := by
  unfold planted at ha
  split at ha
  · exact ha
  · exact List.mem_of_mem_tail ha

section Processed

variable {head addr via via' : Text} {port : ℤ} {forceRport : Bool}
  (h : Processed head addr port forceRport via via')

include h

/-- **The address is the one of the sender if the first parameter that it has planted is.** -/
theorem Processed.address_iff {host : Text} (haddr : IsSource addr) (hhost : getHost via = some host)
    (hne : ∀ a ∈ (planted addr via).head?, given a.tail ≠ some []) :
    (if hasReceived via' then getReceived via' else some (some host)) = some (some addr) ↔
      ∀ a ∈ (planted addr via).head?, given a.tail = some addr := by
  have hreceived := h.received
  have hfirst {a : Segment} (ha : (named receivedParam (parameters via')).head? = some a)
      (hne : given a.tail ≠ some []) :
      (if hasReceived via' then getReceived via' else some (some host)) = some (some addr) ↔
        given a.tail = some addr := by
    have hhas : hasReceived via' = true := (hasParameter_iff (by decide) via').mpr ⟨a, ha⟩
    rw [if_pos hhas]
    exact getReceived_iff ha hne
  cases hplanted : planted addr via with
  | cons b l =>
    rw [hplanted] at hreceived hne
    rw [hfirst (by rw [hreceived]; rfl) (hne b rfl)]
    exact ⟨fun hb a ha => Option.some.inj ha ▸ hb, fun hb => hb b rfl⟩
  | nil =>
    rw [hplanted, List.nil_append] at hreceived
    refine iff_of_true ?_ (by simp)
    by_cases heq : getHost via = some addr
    · rw [if_pos heq] at hreceived
      have hhas : ¬hasReceived via' = true := by
        intro hhas
        obtain ⟨a, ha⟩ := (hasParameter_iff (by decide) via').mp hhas
        rw [hreceived] at ha
        exact absurd ha (by simp)
      rw [if_neg hhas, ← hhost, heq]
    · rw [if_neg heq] at hreceived
      have hgiven := haddr.given
      rw [hfirst (by rw [hreceived]; rfl) (by rw [hgiven]; simpa using haddr.ne_nil)]
      exact hgiven

/-- The first `rport` is read, when one is there. -/
theorem Processed.getRport (hport : 0 < port ∧ port ≤ 65535) (hhas : hasRport via' = true)
    (hne : ∀ a ∈ (named rportParam (parameters via)).tail.head?, given a.tail ≠ some []) :
    ViaHeader.getRport via' =
      match (named rportParam (parameters via)).tail.head? with
      | none => some port
      | some a => rportOf a.tail := by
  obtain ⟨l, hparameters, hl⟩ := h.rport hhas
  have hadded := rportOf_rportTail hport.1 hport.2
  have hnamed : named rportParam (parameters via') =
      (named rportParam (parameters via)).tail ++ [⟨rportParam, rportTail port⟩] := by
    rw [hparameters, named_append_self, hl]
  cases htail : (named rportParam (parameters via)).tail with
  | nil =>
    rw [htail] at hnamed
    rw [getRport_eq (by rw [hnamed]; rfl) (given_of_rportOf hadded), hadded]
    · rfl
    · intro hnone
      unfold rportOf at hadded
      rw [hnone] at hadded
      exact absurd (Option.some.inj hadded) (by omega)
  | cons b t =>
    rw [htail] at hnamed hne
    rw [getRport_eq (by rw [hnamed]; rfl) (hne b rfl)]
    · rfl
    · intro hnone hlast
      rw [hparameters, List.getLast?_concat] at hlast
      obtain rfl := Option.some.inj hlast
      unfold rportOf at hadded
      rw [hnone] at hadded
      exact absurd (Option.some.inj hadded) (by omega)

/-- The destination, when both of its parts are known. -/
theorem Processed.viaDestination_eq {host : Text} {sentPort : ℤ} (hhead : HasHead head via)
    (hhost : getHost via = some host) (hat : '@' ∉ host) (hsent : sentByPort via = some sentPort) :
    viaDestination via' =
      (if hasReceived via' then getReceived via' else some (some host)).bind fun destAddr =>
        (if hasRport via' then ViaHeader.getRport via' else some 0).map fun rport =>
          (destAddr, rportOr rport sentPort) := by
  have hsentBy : getSentBy via' = getSentBy via :=
    h.hasHead.getSentBy.trans hhead.getSentBy.symm
  have hprotocol : getProtocol via' = getProtocol via :=
    h.hasHead.getProtocol.trans hhead.getProtocol.symm
  refine ViaHeader.viaDestination_eq ?_ hat ?_
  · rw [← hhost]
    unfold getHost
    rw [hsentBy]
  · rw [← hsent]
    unfold sentByPort getPort
    rw [hsentBy, hprotocol]

/-- The number that `rport` stands for, when it was not asked for. -/
theorem Processed.unrequested (hport : 0 < port ∧ port ≤ 65535) (hrport : hasRport via = false) :
    ∃ rport, (if hasRport via' then ViaHeader.getRport via' else some 0) = some rport ∧
      (forceRport = false → rport = 0) := by
  by_cases hhas : hasRport via' = true
  · have hnone : (named rportParam (parameters via)).tail.head? = none := by
      rw [named_rport_eq_nil hrport]
      rfl
    have hget := h.getRport hport hhas (by rw [hnone]; simp)
    rw [hnone] at hget
    refine ⟨port, by rw [if_pos hhas, hget], fun hforce => ?_⟩
    rw [h.unset hrport hforce] at hhas
    exact absurd hhas (by decide)
  · exact ⟨0, by rw [if_neg hhas], fun _ => rfl⟩

/-- **The port is the one of the sender if the second `rport` leads to it**, where there is one. -/
theorem Processed.port_iff {sentPort : ℤ} (hport : 0 < port ∧ port ≤ 65535)
    (hsent : sentByPort via = some sentPort) (hhas : hasRport via' = true)
    (hne : ∀ a ∈ (named rportParam (parameters via)).tail.head?, given a.tail ≠ some []) :
    (ViaHeader.getRport via').map (rportOr · sentPort) = some port ↔
      ∀ a ∈ (named rportParam (parameters via)).tail.head?, portOf via a.tail = some port := by
  have hget := h.getRport hport hhas hne
  cases hfirst : (named rportParam (parameters via)).tail.head? with
  | none =>
    rw [hfirst] at hget
    refine iff_of_true ?_ (by simp)
    rw [hget]
    show some (rportOr port sentPort) = some port
    unfold rportOr
    rw [if_neg (by omega)]
  | some a =>
    rw [hfirst] at hget
    dsimp only at hget
    have hlead : portOf via a.tail = (ViaHeader.getRport via').map (rportOr · sentPort) := by
      rw [hget]
      unfold portOf
      rw [hsent]
      cases rportOf a.tail <;> rfl
    rw [← hlead]
    exact ⟨fun ha b hb => Option.some.inj hb ▸ ha, fun ha => ha a rfl⟩

section Host

variable {host : Text} {sentPort : ℤ} (hhead : HasHead head via) (haddr : IsSource addr)
  (hport : 0 < port ∧ port ≤ 65535) (hhost : getHost via = some host) (hat : '@' ∉ host)
  (hsent : sentByPort via = some sentPort)

include hhead haddr hport hhost hat hsent

/-- **Harmless parameters lead back to the sender.** -/
theorem Processed.returned (hharmless : Harmless addr port via) :
    Returned forceRport addr port via (viaDestination via') := by
  have hdest := h.viaDestination_eq hhead hhost hat hsent
  have haddress := (h.address_iff haddr hhost fun a ha => by
    rw [hharmless.received a ha]
    simpa using haddr.ne_nil).mpr hharmless.received
  rw [haddress, Option.bind_some] at hdest
  by_cases hrport : hasRport via = true
  · have hhas := h.requested hrport
    have hlead := (h.port_iff hport hsent hhas fun a ha => by
      obtain ⟨n, hn, -⟩ := Option.bind_eq_some_iff.mp (hharmless.rport a ha)
      exact given_of_rportOf hn).mpr hharmless.rport
    obtain ⟨n, hn, hlead⟩ := Option.map_eq_some_iff.mp hlead
    rw [if_pos hhas, hn, Option.map_some, hlead] at hdest
    refine ⟨port, hdest, fun _ => rfl, fun hnot => ?_⟩
    rw [hrport] at hnot
    exact absurd hnot (by decide)
  · rw [Bool.not_eq_true] at hrport
    obtain ⟨n, hn, hzero⟩ := h.unrequested hport hrport
    rw [hn, Option.map_some] at hdest
    refine ⟨_, hdest, fun hnot => ?_, fun _ hforce => ?_⟩
    · rw [hrport] at hnot
      exact absurd hnot (by decide)
    · rw [hsent, hzero hforce]
      rfl

/-- **Only harmless parameters do**, as long as the ones that the sender has planted have values. -/
theorem Processed.harmless (hvalued : Valued via)
    (hreturned : Returned forceRport addr port via (viaDestination via')) :
    Harmless addr port via := by
  obtain ⟨q, hq, hrequested, -⟩ := hreturned
  rw [h.viaDestination_eq hhead hhost hat hsent] at hq
  obtain ⟨destAddr, haddress, hq⟩ := Option.bind_eq_some_iff.mp hq
  obtain ⟨n, hn, hq⟩ := Option.map_eq_some_iff.mp hq
  obtain ⟨rfl, rfl⟩ := Prod.mk.inj hq
  constructor
  · refine (h.address_iff haddr hhost fun a ha => ?_).mp haddress
    exact hvalued.given_ne (.inl rfl) (mem_of_planted (List.mem_of_head? ha))
  · by_cases hrport : hasRport via = true
    · have hhas := h.requested hrport
      refine (h.port_iff hport hsent hhas fun a ha => ?_).mp ?_
      · exact hvalued.given_ne (.inr rfl) (List.mem_of_mem_tail (List.mem_of_head? ha))
      · rw [if_pos hhas] at hn
        rw [hn, Option.map_some, hrequested hrport]
    · rw [named_rport_eq_nil (by simpa using hrport)]
      simp

end Host

end Processed

end ViaHeader

namespace BasicSipMessage

open ViaHeader

/-- **When a response returns to the sender of the request.**  Where the provider sets a parameter,
no quote is open behind the Via and `removeParameter` finds the parameter.  Then the response to
the request goes to the address and the port that it came from if the parameters that the sender
has planted are harmless; and only then, as long as they have values. -/
theorem returned_iff {config : FactoryConfig} {head via addr reason : Text} {port code : ℤ}
    {forceRport : Bool} {localTag contentType : Option Text} {contact : Option NameAddressText}
    {body : Option (List UInt8)} {req req' resp : BasicSipMessage} (hreq : req.isRequest = true)
    (hvia : req.getViaHeader = some via) (hhead : HasHead head via)
    (hhost : ∀ host, getHost via = some host → '@' ∉ host) (haddr : IsSource addr)
    (hport : 0 < port ∧ port ≤ 65535)
    (hreceived : onReceivedMessage forceRport addr port req = some req')
    (hresp : createResponse config req' code reason localTag contact contentType body = some resp) :
    (Settable forceRport addr port via → Harmless addr port via →
      Returned forceRport addr port via resp.responseDestination) ∧
    (Settable forceRport addr port via → Valued via →
      Returned forceRport addr port via resp.responseDestination → Harmless addr port via) := by
  by_cases hset : Settable forceRport addr port via
  · have hproc {p : Text × Bool} (hp : receivedVia forceRport addr port via = some p) :=
      processed_receivedVia hhead haddr hset hp
    obtain ⟨p, hp, htop, -⟩ := onReceivedMessage_spec hreq hvia
      (fun p hp => (hproc hp).hasHead.comma) hreceived
    obtain ⟨host, sentBy, -, hgetHost, hgetPort, -⟩ := receivedVia_cases hp
    have hsent : sentByPort via =
        some (if sentBy ≤ 0 then defaultPortOf (getProtocol via) else sentBy) := by
      unfold sentByPort
      rw [hgetPort]
      rfl
    have hdest : resp.responseDestination = viaDestination p.1 := by
      unfold responseDestination
      rw [getViaHeader_congr (createResponse_spec hresp).vias, htop, Option.bind_some]
    rw [hdest]
    exact ⟨fun _ => (hproc hp).returned hhead haddr hport hgetHost (hhost host hgetHost) hsent,
      fun _ => (hproc hp).harmless hhead haddr hport hgetHost (hhost host hgetHost) hsent⟩
  · exact ⟨fun h => absurd h hset, fun h => absurd h hset⟩

/-- A sender behind a network address translation; the `received` that it has planted is
replaced. -/
def translatedVia : Text :=
  "SIP/2.0/UDP pc.example.com;received=192.0.2.66;rport;maddr=224.0.1.75;branch=z9hG4bK1".toList

theorem returned_iff_translatedVia :
    let req := quotedInvite translatedVia
    ∃ req' resp, onReceivedMessage false "192.0.2.1".toList 4000 req = some req' ∧
      createResponse {} req' 200 "OK".toList (some "2".toList) none none none = some resp ∧
      Returned false "192.0.2.1".toList 4000 translatedVia resp.responseDestination := by
  intro req
  have hrun : ((onReceivedMessage false "192.0.2.1".toList 4000 req).bind fun req' =>
      createResponse {} req' 200 "OK".toList (some "2".toList) none none none).isSome = true := by
    decide +kernel
  obtain ⟨resp, hresp⟩ := Option.isSome_iff_exists.mp hrun
  obtain ⟨req', hreq', hresp⟩ := Option.bind_eq_some_iff.mp hresp
  have hhead : HasHead "SIP/2.0/UDP pc.example.com".toList translatedVia :=
    ⟨by decide +kernel, ⟨";received=192.0.2.66;rport;maddr=224.0.1.75;branch=z9hG4bK1".toList, rfl,
      .inr ⟨_, rfl⟩⟩, by decide +kernel, by decide +kernel⟩
  have hhost : ∀ host, getHost translatedVia = some host → '@' ∉ host := by
    intro host hhost
    have hget : getHost translatedVia = some "pc.example.com".toList := by decide +kernel
    rw [hget] at hhost
    rw [← Option.some.inj hhost]
    decide
  have hset : Settable false "192.0.2.1".toList 4000 translatedVia :=
    ⟨fun _ => by decide +kernel, by decide +kernel⟩
  have hharmless : Harmless "192.0.2.1".toList 4000 translatedVia :=
    ⟨by decide +kernel, by decide +kernel⟩
  exact ⟨req', resp, hreq', hresp, (returned_iff (by decide) (by decide +kernel) hhead hhost
    (by decide) (by decide) hreq' hresp).1 hset hharmless⟩

/-- **A response that does not return.**  The host of the Via is the source address, so that the
provider does not set received, and the response goes to the address that the sender has planted.
With a second `rport`, it goes to another port. -/
theorem planted_not_returned :
    let via := "SIP/2.0/UDP 10.0.0.1:5060;branch=z9hG4bK1;received=192.0.2.66".toList
    let via' := "SIP/2.0/UDP 10.0.0.1:5060;branch=z9hG4bK1;rport;rport=4444".toList
    let dest (via : Text) :=
      (onReceivedMessage false "10.0.0.1".toList 5060 (quotedInvite via)).bind fun req =>
        (createResponse {} req 200 "OK".toList (some "2".toList) none none none).bind
          responseDestination
    dest via = some (some "192.0.2.66".toList, 5060) ∧
      ¬Returned false "10.0.0.1".toList 5060 via (dest via) ∧
      dest via' = some (some "10.0.0.1".toList, 4444) ∧
      ¬Returned false "10.0.0.1".toList 5060 via' (dest via') := by
  intro via via' dest
  have hdest : dest via = some (some "192.0.2.66".toList, 5060) := by decide +kernel
  have hdest' : dest via' = some (some "10.0.0.1".toList, 4444) := by decide +kernel
  refine ⟨hdest, ?_, hdest', ?_⟩
  · rintro ⟨port, hport, -⟩
    rw [hdest] at hport
    exact absurd hport (by simp)
  · rintro ⟨port, hport, hrequested, -⟩
    rw [hdest'] at hport
    have hport' : 4444 = port := by simpa using hport
    have hrport : hasRport via' = true := by decide +kernel
    exact absurd (hport'.trans (hrequested hrport)) (by decide)

end BasicSipMessage
end SoftPhone
