import SoftPhone.Text.Commas
import SoftPhone.Text.DialogRequest

/-!
# Via and Route as stacks

The values of Via and of Route stand in one header or in several ones, and the accessors treat them
as a stack: `addViaHeader` and `addRouteHeader` put a value on top, and `removeViaHeader` and
`removeRouteHeader` write the values again without the top one.

Each accessor takes the headers of the name out of the message, or puts some in at a place of its
own.  A stack is what results if nothing of the field stands above that place.  For Via the place is
the top of the message.  For Route it is behind the first Via, or at the end if there is no Via, and
so a new Route is not the top one if there are others above (`isStack_iff`).
-/

namespace SoftPhone

open SipParser

namespace BasicSipMessage

/-! ## The methods -/

/-- The index behind the first header of the name `refer`, or the end. -/
def indexAfter (refer : Text) (m : BasicSipMessage) : ℕ :=
  match m.indexOfHeader refer with
  | some i => i + 1
  | none => m.headers.length

/-- `addHeaderAfter(new_header,refer_hname)`. -/
def addHeaderAfter (h : Header) (refer : Text) (m : BasicSipMessage) : BasicSipMessage :=
  m.insertHeaders (m.indexAfter refer) [h]

/-- The value of `getRouteHeader`. -/
def getRouteHeader (m : BasicSipMessage) : Option Text :=
  m.getRoutes.bind fun mh => mh.getTop.map Header.value

/-- `addRouteHeader`. -/
def addRouteHeader (h : Header) (m : BasicSipMessage) : BasicSipMessage :=
  m.addHeaderAfter h SipHeaders.via

/-- `removeRouteHeader`; a null pointer if there is none. -/
def removeRouteHeader (m : BasicSipMessage) : Option BasicSipMessage :=
  m.getRoutes.map fun mh => m.setRoutes mh.removeTop

/-! ## The values of a field -/

/-- The values of a field, from all headers of its name. -/
def valuesOf (hname : Text) (m : BasicSipMessage) : List Text :=
  (m.getHeaders hname).flatMap Header.values

/-- The message down to the index `i`. -/
def upTo (i : ℕ) (m : BasicSipMessage) : BasicSipMessage := { m with headers := m.headers.take i }

/-- Start line, body and the headers of other names are the same. -/
structure SameBut (hname : Text) (m m' : BasicSipMessage) : Prop where
  startLine : m'.startLine = m.startLine
  body : m'.body = m.body
  others : m'.headers.filter (!Named hname ·) = m.headers.filter (!Named hname ·)

section Values

variable {hname : Text} {m m' m'' : BasicSipMessage}

theorem SameBut.trans (h : SameBut hname m m') (h' : SameBut hname m' m'') :
    SameBut hname m m'' where
  startLine := h'.startLine.trans h.startLine
  body := h'.body.trans h.body
  others := h'.others.trans h.others

theorem skips_of_mem_valuesOf {v : Text} (hv : v ∈ m.valuesOf hname) : Skips ',' false v := by
  obtain ⟨h, -, hv⟩ := List.mem_flatMap.mp hv
  exact Header.skips_of_mem_values hv

/-- The accessors that return null or a `MultipleHeader` return the values. -/
theorem getMultiple_cases (hname : Text) (m : BasicSipMessage) :
    m.getMultiple hname = none ∧ m.valuesOf hname = [] ∨
      ∃ mh, m.getMultiple hname = some mh ∧ mh.values = m.valuesOf hname ∧ mh.Plain hname := by
  cases hmh : m.getMultiple hname with
  | none =>
    refine .inl ⟨rfl, ?_⟩
    rw [valuesOf, getMultiple_eq_none.mp hmh]
    rfl
  | some mh =>
    refine .inr ⟨mh, rfl, ?_, plain_of_getMultiple hmh⟩
    rw [getMultiple] at hmh
    rw [valuesOf]
    split at hmh
    · exact absurd hmh (by simp)
    · rename_i heq
      rw [heq, ← Option.some.inj hmh]
      rfl

section Insert

variable {new : List Header} (hnew : ∀ h ∈ new, Named hname h = true)

include hnew

theorem sameBut_insertHeaders (i : ℕ) (m : BasicSipMessage) :
    SameBut hname m (m.insertHeaders i new) := by
  refine ⟨rfl, rfl, ?_⟩
  have hnil : new.filter (!Named hname ·) = [] :=
    List.filter_eq_nil_iff.mpr fun h hh => by simp [hnew h hh]
  show List.filter _ (_ ++ _ ++ _) = _
  rw [List.filter_append, List.filter_append, hnil, List.append_nil, ← List.filter_append,
    List.take_append_drop]

/-- Headers are put in between the ones above the index and the ones below. -/
theorem valuesOf_insertHeaders (i : ℕ) (m : BasicSipMessage) :
    ∃ below, m.valuesOf hname = (m.upTo i).valuesOf hname ++ below ∧
      (m.insertHeaders i new).valuesOf hname =
        (m.upTo i).valuesOf hname ++ (new.flatMap Header.values ++ below) := by
  refine ⟨((m.headers.drop i).filter (Named hname)).flatMap Header.values, ?_, ?_⟩
  · show List.flatMap _ (List.filter _ m.headers) =
      List.flatMap _ (List.filter _ (m.headers.take i)) ++ _
    rw [← List.flatMap_append, ← List.filter_append, List.take_append_drop]
  · show List.flatMap _ (List.filter _ (_ ++ _ ++ _)) =
      List.flatMap _ (List.filter _ (m.headers.take i)) ++ _
    rw [List.filter_append, List.filter_append, List.filter_eq_self.mpr hnew, List.flatMap_append,
      List.flatMap_append, List.append_assoc]

end Insert

theorem sameBut_removeAllHeaders (hname : Text) (m : BasicSipMessage) :
    SameBut hname m (m.removeAllHeaders hname) := by
  refine ⟨rfl, rfl, ?_⟩
  show List.filter _ (List.filter _ _) = _
  rw [List.filter_filter]
  exact List.filter_congr fun h _ => by simp

end Values

/-! ## The stack -/

/-- A field with its accessors.  All of them read the headers of one name, and write headers of this
name only; a new one is put in at `place`. -/
structure StackField where
  hname : Text
  get : BasicSipMessage → Option Text
  add : Header → BasicSipMessage → BasicSipMessage
  remove : BasicSipMessage → Option BasicSipMessage
  place : BasicSipMessage → ℕ
  get_eq : ∀ m, get m = (m.getMultiple hname).bind fun mh => mh.getTop.map Header.value
  add_eq : ∀ h m, add h m = m.insertHeaders (place m) [h]
  remove_eq : ∀ m, ∃ i, remove m = (m.getMultiple hname).map fun mh =>
    (m.removeAllHeaders hname).insertHeaders i mh.removeTop.written

/-- The Via headers. -/
def viaField : StackField where
  hname := SipHeaders.via
  get := getViaHeader
  add := addViaHeader
  remove := removeViaHeader
  place _ := 0
  get_eq _ := rfl
  add_eq _ _ := rfl
  remove_eq _ := ⟨0, rfl⟩

/-- The Route headers. -/
def routeField : StackField where
  hname := SipHeaders.route
  get := getRouteHeader
  add := addRouteHeader
  remove := removeRouteHeader
  place := indexAfter SipHeaders.via
  get_eq _ := rfl
  add_eq _ _ := rfl
  remove_eq _ := ⟨_, rfl⟩

/-- The value that is added is the top one, and is removed again; removing the top value of the
message removes one value; and neither changes anything else. -/
structure IsStack (f : StackField) (h : Header) (m : BasicSipMessage) : Prop where
  top : f.get (f.add h m) = some h.value
  added : SameBut f.hname m (f.add h m)
  restored : ∃ m', f.remove (f.add h m) = some m' ∧ m'.valuesOf f.hname = m.valuesOf f.hname ∧
    SameBut f.hname m m'
  removed : m.valuesOf f.hname ≠ [] → ∃ m', f.remove m = some m' ∧
    m'.valuesOf f.hname = (m.valuesOf f.hname).tail ∧ SameBut f.hname m m'

namespace StackField

variable (f : StackField)

/-- **The top value is read.** -/
theorem get_valuesOf (m : BasicSipMessage) : f.get m = (m.valuesOf f.hname).head? := by
  rw [f.get_eq]
  rcases getMultiple_cases f.hname m with ⟨hnone, hvalues⟩ | ⟨mh, hmh, hvalues, -⟩
  · rw [hnone, hvalues]
    rfl
  · rw [hmh, ← hvalues, Option.bind_some, MultipleHeader.getTop, Option.map_map]
    exact Option.map_id'

/-- **The top value is removed**, and nothing else. -/
theorem remove_valuesOf {m : BasicSipMessage} (hm : m.valuesOf f.hname ≠ []) :
    ∃ m', f.remove m = some m' ∧ m'.valuesOf f.hname = (m.valuesOf f.hname).tail ∧
      SameBut f.hname m m' := by
  obtain ⟨i, hremove⟩ := f.remove_eq m
  rcases getMultiple_cases f.hname m with ⟨-, hnil⟩ | ⟨mh, hmh, hvalues, hplain⟩
  · exact absurd hnil hm
  · have hwritten : mh.removeTop.written = mh.removeTop.getHeaders := by
      rw [MultipleHeader.written, show mh.removeTop.compact = false from hplain.compact]
      rfl
    have hnamed : ∀ h ∈ mh.removeTop.getHeaders, Named f.hname h = true := by
      rintro h hh
      obtain ⟨v, -, rfl⟩ := List.mem_map.mp hh
      exact hplain.named
    rw [hmh, Option.map_some, hwritten] at hremove
    refine ⟨_, hremove, ?_, ?_⟩
    · rw [valuesOf, getHeaders_insertHeaders_of_nil hnamed
        (getHeaders_removeAllHeaders_self f.hname m), ← hvalues]
      exact flatMap_values fun v hv => hplain.skips v (List.mem_of_mem_tail hv)
    · exact (sameBut_removeAllHeaders f.hname m).trans (sameBut_insertHeaders hnamed _ _)

/-- The values after one was added. -/
theorem add_valuesOf {h : Header} (hh : Named f.hname h = true) (m : BasicSipMessage) :
    ∃ below, m.valuesOf f.hname = (m.upTo (f.place m)).valuesOf f.hname ++ below ∧
      (f.add h m).valuesOf f.hname =
        (m.upTo (f.place m)).valuesOf f.hname ++ (h.values ++ below) := by
  obtain ⟨below, hm, hadd⟩ :=
    valuesOf_insertHeaders (List.forall_mem_singleton.mpr hh) (f.place m) m
  refine ⟨below, hm, ?_⟩
  rw [f.add_eq, hadd, List.flatMap_singleton]

end StackField

/-- The same values remain when the first one is taken away. -/
theorem eq_of_append_singleton {α : Type*} {v w : α} {vs : List α} (h : vs ++ [v] = w :: vs) :
    ∀ u ∈ w :: vs, u = v := by
  induction vs generalizing w with
  | nil =>
    intro u hu
    rw [List.mem_singleton.mp hu]
    exact (List.cons.inj h).1.symm
  | cons x vs ih =>
    obtain ⟨rfl, htail⟩ := List.cons.inj h
    have hall := ih htail
    exact List.forall_mem_cons.mpr ⟨hall x (List.mem_cons_self ..), hall⟩

theorem append_singleton_of_eq {α : Type*} {v : α} {vs : List α} (h : ∀ u ∈ vs, u = v) :
    vs ++ [v] = v :: vs := by
  induction vs with
  | nil => rfl
  | cons x vs ih =>
    obtain ⟨rfl, h⟩ := List.forall_mem_cons.mp h
    rw [List.cons_append, ih h]

/-- **A field is a stack if and only if** the value that is added is not divided at a comma, and no
other value stands above the place where it is put in. -/
theorem StackField.isStack_iff_place (f : StackField) {h : Header} (hh : Named f.hname h = true)
    (m : BasicSipMessage) :
    IsStack f h m ↔ h.isCommaSeparated = false ∧
      ∀ v ∈ (m.upTo (f.place m)).valuesOf f.hname, v = h.value := by
  obtain ⟨below, hm, hadd⟩ := f.add_valuesOf hh m
  have hnot : h.isCommaSeparated = false ↔ h.values = [h.value] := by
    constructor
    · intro hnot
      rw [Header.values, if_neg (by simp [hnot])]
    · intro hvalues
      have hskips := Header.skips_of_mem_values (h := h) (v := h.value) (by simp [hvalues])
      show ((spanSkippingQuoted ',' false h.value).2 != []) = false
      rw [hskips]
      rfl
  have hadded : SameBut f.hname m (f.add h m) := by
    rw [f.add_eq]
    exact sameBut_insertHeaders (List.forall_mem_singleton.mpr hh) _ m
  constructor
  · intro hstack
    have hvalue : h.value ∈ (f.add h m).valuesOf f.hname := by
      have htop := hstack.top
      rw [f.get_valuesOf] at htop
      exact List.mem_of_mem_head? htop
    have hone : h.values = [h.value] :=
      Header.values_of_skips (n := h.name) (skips_of_mem_valuesOf hvalue)
    refine ⟨hnot.mpr hone, ?_⟩
    obtain ⟨m', hremove, hvalues, -⟩ := hstack.restored
    obtain ⟨m'', hremove', htail, -⟩ :=
      f.remove_valuesOf (fun hnil => by rw [hnil] at hvalue; exact List.not_mem_nil hvalue)
    obtain rfl := Option.some.inj (hremove.symm.trans hremove')
    rw [htail, hadd, hm, hone] at hvalues
    cases habove : (m.upTo (f.place m)).valuesOf f.hname with
    | nil => exact fun v hv => absurd hv List.not_mem_nil
    | cons w vs =>
      -- the values above were moved by one place
      rw [habove, List.cons_append, List.tail_cons, ← List.append_assoc, List.append_left_inj]
        at hvalues
      exact eq_of_append_singleton hvalues
  · rintro ⟨hcomma, habove⟩
    have hcons : (f.add h m).valuesOf f.hname = h.value :: m.valuesOf f.hname := by
      rw [hadd, hm, hnot.mp hcomma, ← List.append_assoc, append_singleton_of_eq habove]
      rfl
    refine ⟨?_, hadded, ?_, f.remove_valuesOf⟩
    · rw [f.get_valuesOf, hcons]
      rfl
    · obtain ⟨m', hremove, htail, hsame⟩ :=
        f.remove_valuesOf (m := f.add h m) (by rw [hcons]; exact List.cons_ne_nil _ _)
      refine ⟨m', hremove, ?_, hadded.trans hsame⟩
      rw [htail, hcons, List.tail_cons]

/-- The Route values above the place where a new one is put in. -/
def routesAbove (m : BasicSipMessage) : List Text :=
  (m.upTo (m.indexAfter SipHeaders.via)).valuesOf SipHeaders.route

/-- **Via and Route are stacks**: Via for each value that is not divided at a comma, and Route for
each such value if no other Route stands above the first Via, nor, without a Via, anywhere. -/
theorem isStack_iff (m : BasicSipMessage) {vh rh : Header} (hvh : Named SipHeaders.via vh = true)
    (hrh : Named SipHeaders.route rh = true) :
    (IsStack viaField vh m ↔ vh.isCommaSeparated = false) ∧
      (IsStack routeField rh m ↔ rh.isCommaSeparated = false ∧
        ∀ v ∈ m.routesAbove, v = rh.value) := by
  refine ⟨?_, routeField.isStack_iff_place hrh m⟩
  rw [viaField.isStack_iff_place hvh]
  exact ⟨And.left, fun h => ⟨h, fun v hv => absurd hv List.not_mem_nil⟩⟩

/-- A request that has no Via yet, and two Route values in one header. -/
def routedRequest : BasicSipMessage where
  startLine := some (.request "OPTIONS".toList (some "sip:bob@h".toList))
  headers := [⟨SipHeaders.route, "<sip:p1;lr>, <sip:p2;lr>".toList⟩]

theorem isStack_iff_routedRequest :
    IsStack viaField ⟨SipHeaders.via, "SIP/2.0/UDP h".toList⟩ routedRequest ∧
      ¬IsStack routeField ⟨SipHeaders.route, "<sip:p0;lr>".toList⟩ routedRequest := by
  have hvh : Named SipHeaders.via ⟨SipHeaders.via, "SIP/2.0/UDP h".toList⟩ = true := by decide
  have hrh : Named SipHeaders.route ⟨SipHeaders.route, "<sip:p0;lr>".toList⟩ = true := by decide
  obtain ⟨hvia, hroute⟩ := isStack_iff routedRequest hvh hrh
  refine ⟨hvia.mpr (by decide), fun h => ?_⟩
  have habove := (hroute.mp h).2
  exact absurd habove (by decide)

/-- **The Route that is added is not the top one.** -/
theorem addRouteHeader_below :
    getRouteHeader (addRouteHeader ⟨SipHeaders.route, "<sip:p0;lr>".toList⟩ routedRequest) =
      some "<sip:p1;lr>".toList ∧
    ¬IsStack routeField ⟨SipHeaders.route, "<sip:p0;lr>".toList⟩ routedRequest := by
  refine ⟨by decide, fun h => ?_⟩
  have htop := h.top
  exact absurd htop (by decide)

end BasicSipMessage
end SoftPhone
