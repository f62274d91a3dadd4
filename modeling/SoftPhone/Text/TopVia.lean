import SoftPhone.Text.MulticastVia

/-!
# The message with its top Via updated

`updateViaHeader` removes the top Via and adds the one that was made.  The other values are written
again, in one header each, and nothing else changes (`updated_of_value`).

For a connection the message is updated as it has to be, and a second time nothing changes, if and only
if the sent-by is the same already, or it can be read once it is written and there is a branch to keep
(`updated_iff`).
-/

namespace SoftPhone

open SipParser ParametricHeader

namespace BasicSipMessage

/-! ## The Via headers of a message -/

/-- The Via headers are this one, and one of the name `n` for each other value. -/
def withVias (h : Header) (n : Text) (rest : List Text) (m : BasicSipMessage) : BasicSipMessage :=
  { m with
    headers := h :: (rest.map fun v => ⟨n, v⟩) ++ m.headers.filter (!Named SipHeaders.via ·) }

section Vias

variable {m : BasicSipMessage} {h : Header} {n : Text} {rest : List Text}

theorem replaced_eq {mh : MultipleHeader} {v : Text} (hm : m.getVias = some mh)
    (hvalues : mh.values = v :: rest) (h : Header) :
    m.removeViaHeader.map (addViaHeader h) = some (m.withVias h mh.name rest) := by
  have hplain : mh.Plain SipHeaders.via := plain_of_getMultiple hm
  have hwritten : mh.removeTop.written = rest.map fun v => ⟨mh.name, v⟩ := by
    rw [MultipleHeader.written, show mh.removeTop.compact = false from hplain.compact]
    show mh.values.tail.map _ = _
    rw [hvalues]
    rfl
  unfold removeViaHeader setVias
  rw [hm, Option.map_some, Option.map_some, hwritten]
  rfl

variable (hh : Named SipHeaders.via h = true) (hn : equalsIgnoreCase SipHeaders.via n = true)

include hh hn

theorem getHeaders_withVias :
    (m.withVias h n rest).getHeaders SipHeaders.via = h :: rest.map fun v => ⟨n, v⟩ := by
  have hothers : (m.headers.filter (!Named SipHeaders.via ·)).filter (Named SipHeaders.via) = [] :=
    getHeaders_removeAllHeaders_self SipHeaders.via m
  have hrest : (rest.map fun v => (⟨n, v⟩ : Header)).filter (Named SipHeaders.via) =
      rest.map fun v => ⟨n, v⟩ := by
    refine List.filter_eq_self.mpr fun a ha => ?_
    obtain ⟨v, -, rfl⟩ := List.mem_map.mp ha
    exact hn
  show List.filter _ (h :: _ ++ _) = _
  rw [List.filter_append, List.filter_cons_of_pos hh, hothers, hrest, List.append_nil]

theorem filter_withVias (m : BasicSipMessage) (rest : List Text) :
    (m.withVias h n rest).headers.filter (!Named SipHeaders.via ·) =
    m.headers.filter (!Named SipHeaders.via ·) := by
  have hrest : (rest.map fun v => (⟨n, v⟩ : Header)).filter (!Named SipHeaders.via ·) = [] := by
    refine List.filter_eq_nil_iff.mpr fun a ha => ?_
    obtain ⟨v, -, rfl⟩ := List.mem_map.mp ha
    have hnamed : Named SipHeaders.via ⟨n, v⟩ = true := hn
    simp [hnamed]
  show List.filter _ (h :: _ ++ _) = _
  rw [List.filter_append, List.filter_cons_of_neg (by simp [hh]), hrest, List.nil_append,
    List.filter_filter]
  exact List.filter_congr fun a _ => Bool.and_self _

theorem sameBut_withVias : SameBut SipHeaders.via m (m.withVias h n rest) :=
  ⟨rfl, rfl, filter_withVias hh hn m rest⟩

/-- Replacing them once more. -/
theorem withVias_withVias (h' : Header) (n' : Text) (rest' : List Text) :
    (m.withVias h n rest).withVias h' n' rest' = m.withVias h' n' rest' := by
  show ({ m with
    headers := h' :: (rest'.map fun v => ⟨n', v⟩) ++
      (m.withVias h n rest).headers.filter (!Named SipHeaders.via ·) } : BasicSipMessage) = _
  rw [filter_withVias hh hn m rest]
  rfl

variable (hskips : Skips ',' false h.value) (hall : ∀ v ∈ rest, Skips ',' false v)

include hskips hall

theorem getVias_withVias :
    (m.withVias h n rest).getVias = some ⟨h.name, h.value :: rest, false⟩ := by
  have hvalue : h.values = [h.value] := Header.values_of_skips (n := h.name) hskips
  unfold getVias getMultiple
  rw [getHeaders_withVias hh hn]
  show some (MultipleHeader.mk h.name ((h :: _).flatMap _) false) = _
  rw [List.flatMap_cons, hvalue, flatMap_values hall]
  rfl

theorem valuesOf_withVias :
    (m.withVias h n rest).valuesOf SipHeaders.via = h.value :: rest := by
  have hvias := getVias_withVias (m := m) hh hn hskips hall
  rcases getMultiple_cases SipHeaders.via (m.withVias h n rest) with ⟨hnone, -⟩ | ⟨mh, hmh, hvalues, -⟩
  · rw [getVias, hnone] at hvias
    exact absurd hvias (by simp)
  · obtain rfl := Option.some.inj (hmh.symm.trans hvias)
    exact hvalues.symm

end Vias

end BasicSipMessage

namespace Connection

open BasicSipMessage ViaHeader HeaderParam

variable (c : Connection)

/-- `updateViaHeader` for the connection. -/
def update (maddr : Option Text) (ttl : ℤ) (m : BasicSipMessage) : Option BasicSipMessage :=
  updateViaHeader c.proto.name c.host.toText c.port maddr ttl m

/-- The top value names the connection, and keeps branch and rport request; the other values are the
same, and so is all else; and updating the message again changes nothing. -/
structure Updated (maddr : Option Text) (ttl : ℤ) (m : BasicSipMessage) (v : Text) (rest : List Text)
    (m' : BasicSipMessage) : Prop where
  update : c.update maddr ttl m = some m'
  top : ∃ v', m'.valuesOf SipHeaders.via = v' :: rest ∧ c.Outgoing v v'
  others : SameBut SipHeaders.via m m'
  again : c.update maddr ttl m' = some m'

variable {c} {maddr : Option Text} {ttl : ℤ} {m : BasicSipMessage} {v : Text} {rest : List Text}

/-- The message is written again if the value was changed. -/
theorem update_eq (c : Connection) (maddr : Option Text) (ttl : ℤ) {mh : MultipleHeader}
    (hm : m.getVias = some mh) (hvalues : mh.values = v :: rest) :
    c.update maddr ttl m = (c.updatedVia maddr ttl ⟨mh.name, v⟩).map fun p =>
      if p.2 then m.withVias p.1 mh.name rest else m := by
  have htop : m.getVias.bind MultipleHeader.getTop = some ⟨mh.name, v⟩ := by
    rw [hm, Option.bind_some, MultipleHeader.getTop, hvalues]
    rfl
  unfold update updateViaHeader
  rw [htop, Option.bind_some]
  show (c.updatedVia maddr ttl ⟨mh.name, v⟩).bind _ = _
  cases c.updatedVia maddr ttl ⟨mh.name, v⟩ with
  | none => rfl
  | some p =>
    rw [Option.bind_some, Option.map_some]
    split
    · exact replaced_eq hm hvalues p.1
    · rfl

/-- **The message is updated if the value is**, and the value is the same when it is updated again. -/
theorem updated_of_value {mh : MultipleHeader} (hm : m.getVias = some mh)
    (hvalues : mh.values = v :: rest) {h : Header} {changed again : Bool}
    (hvia : c.updatedVia maddr ttl ⟨mh.name, v⟩ = some (h, changed))
    (hkept : changed = false → h = ⟨mh.name, v⟩) (hh : Named SipHeaders.via h = true)
    (hskips : Skips ',' false h.value) (hout : c.Outgoing v h.value)
    (hagain : c.updatedVia maddr ttl h = some (h, again))
    (hname : again = true → h.name = mh.name ∨ rest = []) :
    ∃ m', c.Updated maddr ttl m v rest m' := by
  have hplain : mh.Plain SipHeaders.via := plain_of_getMultiple hm
  have hall : ∀ w ∈ rest, Skips ',' false w := fun w hw =>
    hplain.skips w (by rw [hvalues]; exact List.mem_cons_of_mem _ hw)
  have hupdate := update_eq c maddr ttl hm hvalues
  rw [hvia, Option.map_some] at hupdate
  cases changed with
  | false =>
    obtain rfl := hkept rfl
    rcases getMultiple_cases SipHeaders.via m with ⟨hnone, -⟩ | ⟨mh', hmh', hvalues', -⟩
    · rw [getVias, hnone] at hm
      exact absurd hm (by simp)
    obtain rfl := Option.some.inj (hmh'.symm.trans hm)
    exact ⟨m, hupdate, ⟨v, hvalues'.symm.trans hvalues, hout⟩, ⟨rfl, rfl, rfl⟩, hupdate⟩
  | true =>
    have hvias := getVias_withVias (m := m) hh hplain.named hskips hall
    have hupdate' := update_eq c maddr ttl hvias rfl
    rw [show (⟨h.name, h.value⟩ : Header) = h from rfl, hagain, Option.map_some] at hupdate'
    refine ⟨m.withVias h mh.name rest, hupdate, ⟨h.value, ?_, hout⟩, ?_, ?_⟩
    · exact valuesOf_withVias hh hplain.named hskips hall
    · exact sameBut_withVias hh hplain.named
    · cases again with
      | false => exact hupdate'
      | true =>
        rw [hupdate', if_pos rfl, withVias_withVias hh hplain.named]
        rcases hname rfl with hname | rfl
        · rw [show (h, true).1.name = mh.name from hname]
        · rfl

/-! ## Without a multicast address -/

section Unicast

variable {mh : MultipleHeader} (hm : m.getVias = some mh) (hvalues : mh.values = v :: rest)

include hm hvalues

/-- The sent-by is the same: the transport is set, if it differs. -/
theorem updated_of_same {proto : Transport} {s : Text} (hv : v = transportText proto.name s)
    (hsame : c.sameSentBy v = some true) : ∃ m', c.Updated none ttl m v rest m' := by
  have hplain : mh.Plain SipHeaders.via := plain_of_getMultiple hm
  have hskips := hplain.skips v (by rw [hvalues]; exact List.mem_cons_self ..)
  obtain ⟨proto', blanks, changed, hset, hproto, hkept⟩ := setTransport_cases (c := c) proto s mh.name
  have hout : c.Outgoing v (transportText proto'.name (List.replicate blanks ' ' ++ s)) := by
    rw [hv] at hsame ⊢
    exact outgoing_transportText hproto hsame blanks
  have hvia : c.updatedVia none ttl ⟨mh.name, v⟩ =
      some (⟨mh.name, transportText proto'.name (List.replicate blanks ' ' ++ s)⟩, changed) := by
    rw [updatedVia_same hsame, hv, hset]
    rfl
  have hagain : c.updatedVia none ttl
      ⟨mh.name, transportText proto'.name (List.replicate blanks ' ' ++ s)⟩ =
        some (⟨mh.name, transportText proto'.name (List.replicate blanks ' ' ++ s)⟩, false) := by
    rw [updatedVia_same hout.sameSentBy, setTransport_eq_self hout.protocol]
    rfl
  refine updated_of_value hm hvalues hvia ?_ hplain.named ?_ hout hagain
    (fun h => Bool.noConfusion h)
  · intro hfalse
    rw [hkept hfalse, hv]
  · have hblank : ∀ d ∈ List.replicate blanks ' ', d = ' ' := fun d hd =>
      (List.mem_replicate.mp hd).2
    rw [hv, skips_transportText] at hskips
    refine (skips_transportText _ _).mpr (skips_append.mpr ⟨?_, ?_⟩)
    · exact skips_of_not_mem (fun hc => absurd (hblank _ hc) (by decide)) _
    · rwa [endsInside_of_not_mem fun hc => absurd (hblank _ hc) (by decide)]

/-- A value is made, and has the branch. -/
theorem updated_of_branch (hsame : c.sameSentBy v = some false) (hname : c.host.IsName) {b : Text}
    (hb : getBranch v = some (some b)) : ∃ m', c.Updated none ttl m v rest m' := by
  have hout := outgoing_rebuilt hname hb
  have hagain : c.updatedVia none ttl
      ⟨SipHeaders.via, c.base ++ rebuiltParams (hasRport v) (some b)⟩ =
        some (⟨SipHeaders.via, c.base ++ rebuiltParams (hasRport v) (some b)⟩, false) := by
    rw [updatedVia_same hout.sameSentBy, setTransport_eq_self hout.protocol]
    rfl
  exact updated_of_value hm hvalues (updatedVia_rebuilt hsame hb) (fun h => Bool.noConfusion h)
    (equalsIgnoreCase_self _) (skips_rebuilt _ (isBranch_of_getBranch hb)) hout hagain
    (fun h => Bool.noConfusion h)

/-- **Without a multicast address.** -/
theorem updated_none_iff {proto : Transport} {s : Text} (hv : v = transportText proto.name s) :
    (∃ m', c.Updated none ttl m v rest m') ↔ c.sameSentBy v = some true ∨
      c.sameSentBy v = some false ∧ c.host.IsName ∧ ∃ b, getBranch v = some (some b) := by
  constructor
  · rintro ⟨m', hupdated⟩
    have hupdate := hupdated.update
    rw [update_eq c none ttl hm hvalues] at hupdate
    cases hsame : c.sameSentBy v with
    | none =>
      rw [updatedVia_eq_none (.inl hsame)] at hupdate
      exact absurd hupdate (by simp)
    | some same =>
      cases same with
      | true => exact .inl rfl
      | false =>
        refine .inr ⟨rfl, ?_⟩
        cases hbranch : getBranch v with
        | none =>
          rw [updatedVia_eq_none (.inr ⟨hsame, hbranch⟩)] at hupdate
          exact absurd hupdate (by simp)
        | some branch =>
          have hread : IsBranch branch := isBranch_of_getBranch hbranch
          have hplain : mh.Plain SipHeaders.via := plain_of_getMultiple hm
          have hnamed : Named SipHeaders.via
              ⟨SipHeaders.via, c.base ++ rebuiltParams (hasRport v) branch⟩ = true :=
            equalsIgnoreCase_self _
          rw [updatedVia_rebuilt hsame hbranch] at hupdate
          obtain rfl : m.withVias ⟨SipHeaders.via, c.base ++ rebuiltParams (hasRport v) branch⟩
            mh.name rest = m' := Option.some.inj hupdate
          obtain ⟨v', hvalues', hout⟩ := hupdated.top
          rw [valuesOf_withVias hnamed hplain.named (skips_rebuilt _ hread) fun w hw =>
            hplain.skips w (by rw [hvalues]; exact List.mem_cons_of_mem _ hw)] at hvalues'
          rw [← (List.cons.inj hvalues').1] at hout
          refine ⟨isName_of_sameSentBy (shape_rebuilt _ _) hout.sameSentBy, ?_⟩
          -- no branch is read from a parameter without a value
          have hget := hout.branch
          rw [(reads_rebuilt (firstSemi_base (c := c)) (hasRport v) hread).1, hbranch] at hget
          cases branch with
          | none => exact absurd hget (by simp)
          | some b => exact ⟨b, rfl⟩
  · rintro (hsame | ⟨hsame, hname, b, hb⟩)
    · exact updated_of_same hm hvalues hv hsame
    · exact updated_of_branch hm hvalues hsame hname hb

end Unicast

/-! ## With a multicast address -/

section Multicast

variable {mh : MultipleHeader} (hm : m.getVias = some mh) (hvalues : mh.values = v :: rest)
  {a : MulticastAddress} {params : List HeaderParam} (hlegible : ∀ r ∈ params, Legible r)

include hm hvalues hlegible

/-- The value that names the connection gets maddr and ttl. -/
theorem updated_of_heads {head n : Text} (hhead : IsHead head)
    (hout : c.Outgoing v (ParametricValue.text ⟨head, params⟩)) (hread : getBranch v ≠ none)
    (hmaddr : Once maddrParam params) (httl : 0 < ttl → Once ttlParam params)
    (hn : equalsIgnoreCase SipHeaders.via n = true) {changed : Bool}
    (hvia : c.updatedVia (some a.addr) ttl ⟨mh.name, v⟩ =
      some (setMulticast (some a.addr) ttl (⟨n, ParametricValue.text ⟨head, params⟩⟩, changed)))
    (hname : n = mh.name ∨ rest = []) : ∃ m', c.Updated (some a.addr) ttl m v rest m' := by
  have hheads := heads_of_outgoing hhead hout
  have hset : setMulticast (some a.addr) ttl
      (⟨n, ParametricValue.text ⟨head, params⟩⟩, changed) =
        (⟨n, ParametricValue.text ⟨head, multicastParams a ttl params⟩⟩, true) := by
    show ((⟨n, multicast a.addr ttl _⟩ : Header), true) = _
    rw [multicast_text hhead.semi hhead.quote hlegible]
  have hlegible' : ∀ r ∈ multicastParams a ttl params, Legible r := legible_multicastParams hlegible
  have hagain : c.updatedVia (some a.addr) ttl
      ⟨n, ParametricValue.text ⟨head, multicastParams a ttl params⟩⟩ =
        some (⟨n, ParametricValue.text ⟨head, multicastParams a ttl params⟩⟩, true) := by
    rw [hheads.updatedVia hlegible', multicastParams_idem hmaddr httl]
  rw [hset] at hvia
  exact updated_of_value hm hvalues hvia (fun h => Bool.noConfusion h) hn (hheads.skips hlegible')
    (hheads.outgoing hlegible hout hread) hagain fun _ => hname

/-- The sent-by is the same. -/
theorem updated_multicast_of_same {proto : Transport} {front : Text}
    (hfront : ∀ d ∈ front, d ≠ ';' ∧ d ≠ ',' ∧ d ≠ '"')
    (hv : v = transportText proto.name (front ++ paramsText params))
    (hsame : c.sameSentBy v = some true) (hread : getBranch v ≠ none)
    (hmaddr : Once maddrParam params) (httl : 0 < ttl → Once ttlParam params) :
    ∃ m', c.Updated (some a.addr) ttl m v rest m' := by
  have hplain : mh.Plain SipHeaders.via := plain_of_getMultiple hm
  obtain ⟨proto', blanks, changed, hset, hproto, -⟩ :=
    setTransport_cases (c := c) proto (front ++ paramsText params) mh.name
  have htext : transportText proto'.name
      (List.replicate blanks ' ' ++ (front ++ paramsText params)) =
        ParametricValue.text
          ⟨transportText proto'.name (List.replicate blanks ' ' ++ front), params⟩ := by
    rw [ParametricValue.text, transportText_eq,
      transportText_eq _ (List.replicate blanks ' ' ++ front), List.append_assoc, List.append_assoc]
  have hout : c.Outgoing v (ParametricValue.text
      ⟨transportText proto'.name (List.replicate blanks ' ' ++ front), params⟩) := by
    rw [hv] at hsame ⊢
    rw [← htext]
    exact outgoing_transportText hproto hsame blanks
  have hhead : IsHead (transportText proto'.name (List.replicate blanks ' ' ++ front)) := by
    refine isHead_transportText proto' (fun d hd => ?_) fun hnil => ?_
    · rcases List.mem_append.mp hd with hd | hd
      · rw [(List.mem_replicate.mp hd).2]
        decide
      · exact hfront d hd
    · rw [hv] at hsame
      refine skipWSP_ne_nil hsame ?_
      rwa [skipWSP, List.dropWhile_append_of_pos fun d hd => by
        rw [(List.mem_replicate.mp hd).2]
        rfl] at hnil
  have hvia : c.updatedVia (some a.addr) ttl ⟨mh.name, v⟩ = some (setMulticast (some a.addr) ttl
      (⟨mh.name, ParametricValue.text
        ⟨transportText proto'.name (List.replicate blanks ' ' ++ front), params⟩⟩, changed)) := by
    rw [updatedVia_same hsame, hv, hset, htext]
  exact updated_of_heads hm hvalues hlegible hhead hout hread hmaddr httl hplain.named hvia (.inl rfl)

/-- A value is made, and has the branch. -/
theorem updated_multicast_of_branch {proto : Transport} {front : Text}
    (hfront : ∀ d ∈ front, d ≠ ';' ∧ d ≠ ',' ∧ d ≠ '"')
    (hv : v = transportText proto.name (front ++ paramsText params))
    (hsame : c.sameSentBy v = some false) (hname : c.host.IsName) {b : Text}
    (hb : getBranch v = some (some b)) (hvia : mh.name = SipHeaders.via ∨ rest = []) :
    ∃ m', c.Updated (some a.addr) ttl m v rest m' := by
  rw [hv] at hb
  obtain ⟨r, hr, hrname, hrvalue⟩ := mem_of_getBranch proto hfront hlegible hb
  rw [← hv] at hb
  have htext : c.base ++ rebuiltParams (hasRport v) (some b) =
      ParametricValue.text ⟨c.base, requests (hasRport v) ++ [r]⟩ := by
    rw [ParametricValue.text, rebuiltParams, ← hrname, ← hrvalue]
    simp [paramsText, toText]
  have hout := outgoing_rebuilt hname hb
  rw [htext] at hout
  have hlegible' : ∀ q ∈ requests (hasRport v) ++ [r], Legible q := by
    intro q hq
    rcases List.mem_append.mp hq with hq | hq
    · exact legible_requests (hasRport v) q hq
    · rw [List.mem_singleton.mp hq]
      exact hlegible r hr
  have hread : getBranch v ≠ none := by
    rw [hb]
    exact Option.some_ne_none _
  have hmade : c.updatedVia (some a.addr) ttl ⟨mh.name, v⟩ = some (setMulticast (some a.addr) ttl
      (⟨SipHeaders.via, ParametricValue.text ⟨c.base, requests (hasRport v) ++ [r]⟩⟩, true)) := by
    rw [updatedVia_rebuilt hsame hb, htext]
  exact updated_of_heads hm hvalues hlegible' isHead_base hout hread
    (once_requests hrname (by decide) (by decide) _)
    (fun _ => once_requests hrname (by decide) (by decide) _)
    (equalsIgnoreCase_self _) hmade (hvia.imp_left Eq.symm)

end Multicast

/-! ## The update -/

/-- **The message is updated as it has to be if and only if** the sent-by of its top Via is the one of
the connection already, or it is another one, the new one is no address in brackets, and there is a
branch.  With a multicast address, maddr and ttl must occur once at most, and a new value keeps the name
that the Via headers have. -/
theorem updated_iff (c : Connection) (ttl : ℤ) {m : BasicSipMessage} {v : Text} {rest : List Text}
    (hvalues : m.valuesOf SipHeaders.via = v :: rest) {proto : Transport} {s : Text}
    (hv : v = transportText proto.name s) :
    ((∃ m', c.Updated none ttl m v rest m') ↔ c.sameSentBy v = some true ∨
        c.sameSentBy v = some false ∧ c.host.IsName ∧ ∃ b, getBranch v = some (some b)) ∧
      ∀ (a : MulticastAddress) (front : Text) (params : List HeaderParam),
        s = front ++ paramsText params → (∀ d ∈ front, d ≠ ';' ∧ d ≠ ',' ∧ d ≠ '"') →
        (∀ r ∈ params, Legible r) →
        (c.sameSentBy v = some true ∧ getBranch v ≠ none ∧ Once maddrParam params ∧
            (0 < ttl → Once ttlParam params) ∨
          c.sameSentBy v = some false ∧ c.host.IsName ∧ (∃ b, getBranch v = some (some b)) ∧
            ∀ mh ∈ m.getVias, mh.name = SipHeaders.via ∨ rest = []) →
        ∃ m', c.Updated (some a.addr) ttl m v rest m' := by
  rcases getMultiple_cases SipHeaders.via m with ⟨-, hnil⟩ | ⟨mh, hm, hmh, -⟩
  · rw [hnil] at hvalues
    exact absurd hvalues.symm (List.cons_ne_nil _ _)
  rw [hvalues] at hmh
  refine ⟨updated_none_iff hm hmh hv, fun a front params hs hfront hlegible h => ?_⟩
  rw [hs] at hv
  rcases h with ⟨hsame, hread, hmaddr, httl⟩ | ⟨hsame, hname, ⟨b, hb⟩, hvia⟩
  · exact updated_multicast_of_same hm hmh hlegible hfront hv hsame hread hmaddr httl
  · exact updated_multicast_of_branch hm hmh hlegible hfront hv hsame hname hb (hvia mh hm)

/-- The connection that a message is sent from. -/
def lan : Connection where
  proto := ⟨"TCP".toList, by decide, by decide⟩
  host := .name "p".toList (by decide) (by decide)
  port := 5062
  portRange := by decide

/-- A request with two Via values in one header. -/
def forwarded : BasicSipMessage where
  startLine := some (.request "OPTIONS".toList (some "sip:bob@h".toList))
  headers := [⟨SipHeaders.via, "SIP/2.0/UDP h;branch=z9hG4bK1;rport, SIP/2.0/UDP q".toList⟩]

theorem updated_iff_forwarded :
    (∃ m', lan.Updated none (-1) forwarded "SIP/2.0/UDP h;branch=z9hG4bK1;rport".toList
        ["SIP/2.0/UDP q".toList] m') ∧
      ∃ m', lan.Updated (some "224.2.0.1".toList) 16 forwarded
        "SIP/2.0/UDP h;branch=z9hG4bK1;rport".toList ["SIP/2.0/UDP q".toList] m' := by
  have hvalues : forwarded.valuesOf SipHeaders.via =
      ["SIP/2.0/UDP h;branch=z9hG4bK1;rport".toList, "SIP/2.0/UDP q".toList] := by decide
  have hv : "SIP/2.0/UDP h;branch=z9hG4bK1;rport".toList =
      transportText (Transport.mk "UDP".toList (by decide) (by decide)).name
        "h;branch=z9hG4bK1;rport".toList := by decide
  have hb : getBranch "SIP/2.0/UDP h;branch=z9hG4bK1;rport".toList =
      some (some "z9hG4bK1".toList) := by decide
  have hname : lan.host.IsName := by
    show '[' ∉ "p".toList
    decide
  refine ⟨(updated_iff lan (-1) hvalues hv).1.mpr (.inr ⟨by decide, hname, _, hb⟩), ?_⟩
  refine (updated_iff lan 16 hvalues hv).2
    ⟨"224.2.0.1".toList, by decide, by decide⟩ "h".toList
    [⟨branchParam, some "z9hG4bK1".toList, by decide, by decide, fun v hv => by
      rw [← Option.some.inj hv]
      exact .token _ (by decide) (by decide)⟩, rportFlag] (by decide) (by decide) ?_
    (.inr ⟨by decide, hname, ⟨_, hb⟩, fun mh hmh => .inl ?_⟩)
  · intro r hr
    refine legible_token fun v hv => ?_
    rcases List.mem_cons.mp hr with rfl | hr
    · rw [← Option.some.inj hv]
      decide
    · rw [List.mem_singleton.mp hr] at hv
      exact absurd hv (by simp [rportFlag])
  · rw [← Option.some.inj hmh]
    rfl

/-- A request whose Via has no branch. -/
def branchless : BasicSipMessage where
  startLine := some (.request "OPTIONS".toList (some "sip:bob@h".toList))
  headers := [⟨SipHeaders.via, "SIP/2.0/UDP h".toList⟩]

/-- **The value that is made has the parameter branch**, and to read it is an index out of range. -/
theorem branchless_not_updated :
    (lan.update none (-1) branchless).map (valuesOf SipHeaders.via) =
        some ["SIP/2.0/TCP p:5062;branch".toList] ∧
      getBranch "SIP/2.0/UDP h".toList = some none ∧
      getBranch "SIP/2.0/TCP p:5062;branch".toList = none ∧
      ¬∃ m', lan.Updated none (-1) branchless "SIP/2.0/UDP h".toList [] m' := by
  have hupdate : (lan.update none (-1) branchless).map (valuesOf SipHeaders.via) =
      some ["SIP/2.0/TCP p:5062;branch".toList] := by decide
  refine ⟨hupdate, by decide, by decide, fun ⟨m', h⟩ => ?_⟩
  obtain ⟨v', hvalues, hout⟩ := h.top
  rw [h.update, Option.map_some, hvalues] at hupdate
  have hhas := hout.hasBranch
  rw [(List.cons.inj (Option.some.inj hupdate)).1] at hhas
  exact absurd hhas (by decide)

end Connection
end SoftPhone
