import SoftPhone.Text.Stacks

/-!
# A strict route, and back

`rfc2543RouteAdapt` makes the first route the Request-URI and puts the old Request-URI behind the
other routes.  `rfc2543toRfc3261RouteUpdate` takes the last route for the Request-URI and puts the
old one, with the parameter lr, in front of the others.  So the second method undoes the first one
(`restored_iff`), provided that the first one has done something.

It has, unless `hasLr` finds the parameter in the first route.  `hasLr` looks behind the first
semicolon of the URI, also when this is one of the user part.  Then the message stays as it is, and
the second method takes a route for the Request-URI that is none.
-/

namespace SoftPhone

open SipParser

/-- `addLr`. -/
def GenericURI.addLr (uri : Text) : Text := uri ++ ';' :: "lr".toList

namespace MultipleHeader

/-- `addTop(hd)`. -/
def addTop (h : Header) (mh : MultipleHeader) : MultipleHeader :=
  { mh with values := h.value :: mh.values }

/-- `getBottom`. -/
def getBottom (mh : MultipleHeader) : Option Header :=
  mh.values.getLast?.map fun v => ⟨mh.name, v⟩

/-- `removeBottom`. -/
def removeBottom (mh : MultipleHeader) : MultipleHeader := { mh with values := mh.values.dropLast }

end MultipleHeader

/-- `new NameAddress(uri)`, the text. -/
def bracketed (uri : Text) : Text := NameAddressText.toText { uri := uri }

/-- A URI of a Route value: it has a scheme, and neither commas, nor blanks, nor `>`. -/
structure IsRouteUri (uri : Text) : Prop where
  scheme : ∃ t ∈ uriSchemes, t <+: uri
  plain : ∀ c ∈ uri, isUriSeparator c = false ∧ c ≠ ','

theorem bracketed_injective {u w : Text} (h : bracketed u = bracketed w) : u = w := by
  have happend : u ++ ['>'] = w ++ ['>'] := (List.cons.inj h).2
  exact List.append_cancel_right happend

namespace IsRouteUri

variable {uri : Text} (h : IsRouteUri uri)

include h

theorem skips_bracketed : Skips ',' false (bracketed uri) := by
  refine skips_of_not_mem ?_ false
  show ',' ∉ '<' :: (uri ++ ['>'])
  rw [List.mem_cons, List.mem_append, not_or, not_or]
  exact ⟨by decide, fun hc => (h.plain _ hc).2 rfl, by decide⟩

theorem parse_bracketed : SipParser.getNameAddress (bracketed uri) = some { uri := uri } := by
  have hread : NameAddressText.WasRead { uri := uri } := ⟨h.scheme, nofun, nofun⟩
  have hparse := EndPointHeader.parse_toText hread (fun c hc => (h.plain c hc).1) []
  rwa [List.append_nil] at hparse

theorem addLr : IsRouteUri (GenericURI.addLr uri) where
  scheme := by
    obtain ⟨t, ht, hpre⟩ := h.scheme
    exact ⟨t, ht, hpre.trans (List.prefix_append _ _)⟩
  plain := by
    intro c hc
    have hlr : ∀ c ∈ ';' :: "lr".toList, isUriSeparator c = false ∧ c ≠ ',' := by decide
    rcases List.mem_append.mp hc with hc | hc
    · exact h.plain c hc
    · exact hlr c hc

end IsRouteUri

namespace BasicSipMessage

/-- `rfc2543toRfc3261RouteUpdate`; `none` is a null pointer. -/
def rfc2543toRfc3261RouteUpdate (m : BasicSipMessage) : Option BasicSipMessage := do
  let method ← m.getMethod
  let nextHop ← m.getRequestUri
  let mrh ← m.getRoutes
  let target ← SipParser.getNameAddress (← mrh.getBottom).value
  let nextHop ← nextHop
  let mrh := mrh.removeBottom.addTop (recipientHeader (some (GenericURI.addLr nextHop)))
  some (((m.removeAllHeaders SipHeaders.route).addRoutes mrh).setRequestLine method target.uri)

/-- The message has the original Request-URI and the original routes again; the first one has got
the parameter lr. -/
structure Restored (m m' : BasicSipMessage) (uri : Text) (uris : List Text) : Prop where
  routes : m'.valuesOf SipHeaders.route = bracketed (GenericURI.addLr uri) :: uris.map bracketed
  same : SameBut SipHeaders.route m m'

section Routes

variable {m : BasicSipMessage} {mh : MultipleHeader}

/-- The routes are replaced. -/
theorem setRoutes_spec (hmh : mh.Plain SipHeaders.route) (m : BasicSipMessage) :
    (m.setRoutes mh).getRoutes = some mh ∧
      (m.setRoutes mh).valuesOf SipHeaders.route = mh.values ∧
      SameBut SipHeaders.route m (m.setRoutes mh) := by
  have hheaders : (m.setRoutes mh).getHeaders SipHeaders.route = mh.getHeaders :=
    getHeaders_addHeadersAfter hmh (getHeaders_removeAllHeaders_self _ m)
  refine ⟨getMultiple_of_getHeaders hmh hheaders, ?_, ?_⟩
  · rw [valuesOf, hheaders]
    exact flatMap_values hmh.skips
  · refine (sameBut_removeAllHeaders SipHeaders.route m).trans ?_
    refine sameBut_insertHeaders ?_ _ _
    rw [hmh.written]
    exact fun h => hmh.named_of_mem

/-- The Request-URI is replaced by another one, and then by the old one again. -/
theorem SameBut.of_setRequestLine {hname method uri uri' : Text} {m m₁ m₂ : BasicSipMessage}
    (hline : m.startLine = some (.request method (some uri))) (h₁ : SameBut hname m m₁)
    (h₂ : SameBut hname (m₁.setRequestLine method uri') m₂) :
    SameBut hname m (m₂.setRequestLine method uri) where
  startLine := hline.symm
  body := h₂.body.trans h₁.body
  others := h₂.others.trans h₁.others

/-- **The values of any groups of URIs** that have neither commas nor quotes. -/
theorem valuesOf_grouped {groups : List (List Text)}
    (h : m.getHeaders SipHeaders.route = groups.map fun g =>
      ⟨SipHeaders.route, MultipleHeader.joined (g.map bracketed)⟩)
    (hgroups : ∀ g ∈ groups, g ≠ [] ∧ ∀ u ∈ g, IsRouteUri u ∧ '"' ∉ u) :
    m.valuesOf SipHeaders.route = groups.flatten.map bracketed := by
  have hvalues : ∀ g ∈ groups, Header.values ⟨SipHeaders.route, MultipleHeader.joined
      (g.map bracketed)⟩ = g.map bracketed := by
    intro g hg
    obtain ⟨hne, hu⟩ := hgroups g hg
    refine MultipleHeader.values_joined (by simpa using hne)
      (List.forall_mem_map.mpr fun u hmem => (hu u hmem).1.skips_bracketed) ?_
      (List.forall_mem_map.mpr fun u _ => NameAddressText.trim_toText _) _
    rw [← List.map_dropLast]
    refine List.forall_mem_map.mpr fun u hmem => endsInside_of_not_mem ?_ false
    have hquote := (hu u (List.mem_of_mem_dropLast hmem)).2
    show '"' ∉ '<' :: (u ++ ['>'])
    simpa using hquote
  rw [valuesOf, h, List.flatMap_map, List.flatMap_congr hvalues, List.map_flatten, List.flatMap_def]

end Routes

section Restore

variable {m : BasicSipMessage} {method target uri : Text} {uris : List Text}
  (hline : m.startLine = some (.request method (some target)))
  (hroutes : m.valuesOf SipHeaders.route = (uri :: uris).map bracketed)

include hline hroutes

/-- What is read from the message. -/
theorem read_routes : ∃ mh, m.getRoutes = some mh ∧ mh.Plain SipHeaders.route ∧
    mh.values = (uri :: uris).map bracketed ∧ m.getRequestUri = some (some target) ∧
    m.getMethod = some method := by
  obtain ⟨huri, hmethod⟩ := getRequestUri_of_startLine hline
  rcases getMultiple_cases SipHeaders.route m with ⟨-, hnil⟩ | ⟨mh, hmh, hvalues, hplain⟩
  · rw [hnil] at hroutes
    exact absurd hroutes.symm (List.cons_ne_nil _ _)
  · exact ⟨mh, hmh, hplain, hvalues.trans hroutes, huri, hmethod⟩

/-- **A strict first route becomes the Request-URI.** -/
theorem adapt_of_strict (huri : IsRouteUri uri) (htarget : IsRouteUri target)
    (hstrict : GenericURI.hasLr uri = false) :
    ∃ m₁, m.rfc2543RouteAdapt = some (m₁.setRequestLine method uri) ∧
      m₁.valuesOf SipHeaders.route = (uris ++ [target]).map bracketed ∧
      SameBut SipHeaders.route m m₁ := by
  obtain ⟨mh, hmh, hplain, hvalues, hrequest, hmethod⟩ := read_routes hline hroutes
  have htop : mh.getTop = some ⟨mh.name, bracketed uri⟩ := by
    rw [MultipleHeader.getTop, hvalues]
    rfl
  have hvalues' : (mh.removeTop.addBottom (recipientHeader (some target))).values =
      (uris ++ [target]).map bracketed := by
    show mh.values.tail ++ (recipientHeader (some target)).values = _
    rw [hvalues, values_recipient_of_skips (skips_of_not_mem (fun hc =>
      (htarget.plain _ hc).2 rfl) false), List.map_append]
    rfl
  have hplain' : (mh.removeTop.addBottom (recipientHeader (some target))).Plain
      SipHeaders.route := by
    refine ⟨hplain.named, hplain.compact, ?_, fun v hv => ?_⟩
    · rw [hvalues']
      simp
    · rcases List.mem_append.mp hv with hv | hv
      · exact hplain.skips v (List.mem_of_mem_tail hv)
      · exact Header.skips_of_mem_values hv
  obtain ⟨-, hset, hsame⟩ := setRoutes_spec hplain' m
  refine ⟨_, ?_, hset.trans hvalues', hsame⟩
  rw [rfc2543RouteAdapt, hmh]
  simp only [Option.bind_eq_bind, htop, Option.bind_some, huri.parse_bracketed, hrequest, hmethod]
  rw [hstrict, if_neg Bool.false_ne_true]

/-- A loose first route changes nothing. -/
theorem adapt_of_loose (huri : IsRouteUri uri) (hloose : GenericURI.hasLr uri = true) :
    m.rfc2543RouteAdapt = some m := by
  obtain ⟨mh, hmh, -, hvalues, -, -⟩ := read_routes hline hroutes
  have htop : mh.getTop = some ⟨mh.name, bracketed uri⟩ := by
    rw [MultipleHeader.getTop, hvalues]
    rfl
  rw [rfc2543RouteAdapt, hmh]
  simp only [Option.bind_eq_bind, htop, Option.bind_some, huri.parse_bracketed]
  rw [hloose, if_pos rfl]

/-- **The last route becomes the Request-URI**, and the old one the first route. -/
theorem update_spec (htarget : IsRouteUri target) (huris : ∀ u ∈ uri :: uris, IsRouteUri u) :
    ∃ m₂, m.rfc2543toRfc3261RouteUpdate =
        some (m₂.setRequestLine method ((uri :: uris).getLast (List.cons_ne_nil _ _))) ∧
      m₂.valuesOf SipHeaders.route =
        bracketed (GenericURI.addLr target) :: (uri :: uris).dropLast.map bracketed ∧
      SameBut SipHeaders.route m m₂ := by
  obtain ⟨mh, hmh, hplain, hvalues, hrequest, hmethod⟩ := read_routes hline hroutes
  have hbottom : mh.getBottom =
      some ⟨mh.name, bracketed ((uri :: uris).getLast (List.cons_ne_nil _ _))⟩ := by
    rw [MultipleHeader.getBottom, hvalues, List.getLast?_map,
      List.getLast?_eq_getLast_of_ne_nil (List.cons_ne_nil _ _)]
    rfl
  have hlast := huris _ (List.getLast_mem (List.cons_ne_nil uri uris))
  have hvalues' : (mh.removeBottom.addTop
      (recipientHeader (some (GenericURI.addLr target)))).values =
        bracketed (GenericURI.addLr target) :: (uri :: uris).dropLast.map bracketed := by
    show _ :: mh.values.dropLast = _
    rw [hvalues, List.map_dropLast]
    rfl
  have hplain' : (mh.removeBottom.addTop
      (recipientHeader (some (GenericURI.addLr target)))).Plain SipHeaders.route := by
    refine ⟨hplain.named, hplain.compact, List.cons_ne_nil _ _, ?_⟩
    rw [hvalues']
    refine List.forall_mem_cons.mpr ⟨htarget.addLr.skips_bracketed, ?_⟩
    exact List.forall_mem_map.mpr fun u hu => (huris u (List.mem_of_mem_dropLast hu)).skips_bracketed
  obtain ⟨-, hset, hsame⟩ := setRoutes_spec hplain' m
  refine ⟨_, ?_, hset.trans hvalues', hsame⟩
  rw [rfc2543toRfc3261RouteUpdate]
  simp only [Option.bind_eq_bind, hmethod, hrequest, hmh, Option.bind_some, hbottom,
    hlast.parse_bracketed]
  rfl

/-- A strict first route is restored. -/
theorem restored_of_strict (htarget : IsRouteUri target) (huris : ∀ u ∈ uri :: uris, IsRouteUri u)
    (hstrict : GenericURI.hasLr uri = false) :
    ∃ m' m'', m.rfc2543RouteAdapt = some m' ∧ m'.rfc2543toRfc3261RouteUpdate = some m'' ∧
      Restored m m'' uri uris := by
  have huri := huris uri (List.mem_cons_self ..)
  obtain ⟨m₁, hadapt, hvalues, hsame⟩ := adapt_of_strict hline hroutes huri htarget hstrict
  -- the last one is the old Request-URI
  have hall : ∀ u ∈ uris ++ [target], IsRouteUri u := by
    intro u hu
    rcases List.mem_append.mp hu with hu | hu
    · exact huris u (List.mem_cons_of_mem _ hu)
    · rw [List.mem_singleton.mp hu]
      exact htarget
  obtain ⟨w, ws, hcons⟩ := List.exists_cons_of_ne_nil (l := uris ++ [target]) (by simp)
  have hvalues' : (m₁.setRequestLine method uri).valuesOf SipHeaders.route =
      (w :: ws).map bracketed := by
    rw [← hcons]
    exact hvalues
  obtain ⟨m₂, hupdate, hroutes', hsame'⟩ :=
    update_spec rfl hvalues' huri (by rw [← hcons]; exact hall)
  have hlast : (w :: ws).getLast (List.cons_ne_nil _ _) = target := by
    simp only [← hcons]
    exact List.getLast_concat
  have hinit : (w :: ws).dropLast = uris := by
    rw [← hcons]
    exact List.dropLast_concat
  rw [hlast] at hupdate
  rw [hinit] at hroutes'
  exact ⟨_, _, hadapt, hupdate, hroutes', hsame.of_setRequestLine hline hsame'⟩

/-- A loose first route is restored when all routes are the Request-URI. -/
theorem restored_iff_of_loose (htarget : IsRouteUri target)
    (huris : ∀ u ∈ uri :: uris, IsRouteUri u) (hloose : GenericURI.hasLr uri = true) :
    (∃ m' m'', m.rfc2543RouteAdapt = some m' ∧ m'.rfc2543toRfc3261RouteUpdate = some m'' ∧
      Restored m m'' uri uris) ↔ ∀ u ∈ uri :: uris, u = target := by
  have hadapt := adapt_of_loose hline hroutes (huris uri (List.mem_cons_self ..)) hloose
  obtain ⟨m₂, hupdate, hroutes', hsame⟩ := update_spec hline hroutes htarget huris
  constructor
  · rintro ⟨m', m'', h, h', hrestored⟩
    obtain rfl := Option.some.inj (hadapt.symm.trans h)
    obtain rfl := Option.some.inj (hupdate.symm.trans h')
    have hlist : bracketed (GenericURI.addLr target) :: (uri :: uris).dropLast.map bracketed =
        bracketed (GenericURI.addLr uri) :: uris.map bracketed :=
      hroutes'.symm.trans hrestored.routes
    have hshift : (uri :: uris).dropLast = uris :=
      (List.map_injective_iff.mpr fun _ _ => bracketed_injective) (List.cons.inj hlist).2
    -- each route is the one before it
    have hsplit := List.dropLast_append_getLast (List.cons_ne_nil uri uris)
    rw [hshift] at hsplit
    have hline' : (uri :: uris).getLast (List.cons_ne_nil _ _) = target := by
      have hstart := hrestored.same.startLine
      rw [hline] at hstart
      exact Option.some.inj (StartLine.request.inj (Option.some.inj hstart)).2
    intro u hu
    exact (eq_of_append_singleton hsplit u hu).trans hline'
  · intro hall
    have hlast : (uri :: uris).getLast (List.cons_ne_nil _ _) = target :=
      hall _ (List.getLast_mem _)
    refine ⟨_, _, hadapt, hupdate, ?_, ?_⟩
    · show m₂.valuesOf SipHeaders.route = _
      obtain ⟨rfl, hall⟩ := List.forall_mem_cons.mp hall
      rw [hroutes', ← append_singleton_of_eq hall, List.dropLast_concat]
    · rw [hlast]
      exact ⟨hline.symm, hsame.body, hsame.others⟩

end Restore

/-- **The message is restored if and only if** `hasLr` is false for the first route, or all routes
are the Request-URI. -/
theorem restored_iff {m : BasicSipMessage} {method target uri : Text} {uris : List Text}
    (hline : m.startLine = some (.request method (some target)))
    (hroutes : m.valuesOf SipHeaders.route = (uri :: uris).map bracketed)
    (htarget : IsRouteUri target) (huris : ∀ u ∈ uri :: uris, IsRouteUri u) :
    (∃ m' m'', m.rfc2543RouteAdapt = some m' ∧ m'.rfc2543toRfc3261RouteUpdate = some m'' ∧
        Restored m m'' uri uris) ↔
      GenericURI.hasLr uri = false ∨ ∀ u ∈ uri :: uris, u = target := by
  cases hlr : GenericURI.hasLr uri with
  | false => exact ⟨fun _ => .inl rfl, fun _ => restored_of_strict hline hroutes htarget huris hlr⟩
  | true =>
    rw [restored_iff_of_loose hline hroutes htarget huris hlr]
    exact ⟨.inr, fun h => h.resolve_left Bool.noConfusion⟩

/-- A request with three routes in two headers. -/
def strictRequest : BasicSipMessage where
  startLine := some (.request "OPTIONS".toList (some "sip:bob@h".toList))
  headers := [⟨SipHeaders.route, "<sip:p1>, <tel:+1>".toList⟩,
    ⟨SipHeaders.callId, "1".toList⟩, ⟨SipHeaders.route, "<sips:p2;lr>".toList⟩]

theorem restored_iff_strictRequest : ∃ m' m'', strictRequest.rfc2543RouteAdapt = some m' ∧
    m'.rfc2543toRfc3261RouteUpdate = some m'' ∧
    Restored strictRequest m'' "sip:p1".toList ["tel:+1".toList, "sips:p2;lr".toList] := by
  have hall : ∀ u ∈ ["sip:p1".toList, "tel:+1".toList, "sips:p2;lr".toList, "sip:bob@h".toList],
      IsRouteUri u ∧ '"' ∉ u := by
    intro u hu
    refine ⟨⟨?_, ?_⟩, ?_⟩ <;> (revert u; decide)
  have hroutes : strictRequest.valuesOf SipHeaders.route =
      ["sip:p1".toList, "tel:+1".toList, "sips:p2;lr".toList].map bracketed := by
    have hgroups : strictRequest.getHeaders SipHeaders.route =
        [["sip:p1".toList, "tel:+1".toList], ["sips:p2;lr".toList]].map fun g =>
          ⟨SipHeaders.route, MultipleHeader.joined (g.map bracketed)⟩ := by decide
    refine valuesOf_grouped hgroups ?_
    intro g hg
    refine ⟨by revert g; decide, fun u hu => hall u ?_⟩
    revert u g
    decide
  have hline : strictRequest.startLine =
      some (.request "OPTIONS".toList (some "sip:bob@h".toList)) := rfl
  exact (restored_iff hline hroutes
    (hall _ (by decide)).1 fun u hu => (hall u (by revert u; decide)).1).mpr (.inl (by decide))

/-- A request whose first route has a user part with a semicolon, and no parameters. -/
def userRequest : BasicSipMessage where
  startLine := some (.request "OPTIONS".toList (some "sip:bob@h".toList))
  headers := [⟨SipHeaders.route, "<sip:a;lr=on@p1>, <sip:p2;lr>".toList⟩]

/-- **The first route is taken for a loose one**, and the second one becomes the Request-URI. -/
theorem userRequest_not_restored :
    userRequest.rfc2543RouteAdapt = some userRequest ∧
      ¬∃ m' m'', userRequest.rfc2543RouteAdapt = some m' ∧
        m'.rfc2543toRfc3261RouteUpdate = some m'' ∧
        Restored userRequest m'' "sip:a;lr=on@p1".toList ["sip:p2;lr".toList] := by
  have hadapt : userRequest.rfc2543RouteAdapt = some userRequest := by decide
  have hupdate : userRequest.rfc2543toRfc3261RouteUpdate.map BasicSipMessage.startLine =
      some (some (.request "OPTIONS".toList (some "sip:p2;lr".toList))) := by
    decide
  refine ⟨hadapt, ?_⟩
  rintro ⟨m', m'', h, h', hrestored⟩
  obtain rfl := Option.some.inj (hadapt.symm.trans h)
  have hline := hrestored.same.startLine
  rw [h', Option.map_some, hline] at hupdate
  exact absurd hupdate (by decide)


end BasicSipMessage
end SoftPhone
