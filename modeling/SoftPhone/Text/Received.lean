import SoftPhone.Text.Segments
import SoftPhone.Text.Via

/-!
# The top Via of a request that was received

The provider sets the parameters received and rport of the top Via.  `IsVia` is a well-formed
Via value with a branch: a head with the protocol and the sent-by, and parameters among which the
branch is a token.  `Spared` is the condition under which `setReceived` and `setRport` do no
harm: where the parameter is there already, `removeParameter` has to find it and not its name
in the quotes of another one.

Then the value is still one with this head and this branch (`isVia_receivedVia`).
-/

namespace SoftPhone

open SipParser ParametricHeader

namespace ViaHeader

/-! ## The head -/

/-- What stands behind the transport. -/
def behindProtocol (value : Text) : Text :=
  (getString (skipWSP (goTo '/' ((goTo '/' (value.drop 3)).drop 4)).tail)).2

/-- What stands behind the protocol: the sent-by. -/
def behindSlashes (value : Text) : Text :=
  skipWSP (getString (goTo '/' (goTo '/' value).tail)).2

/-- The part of a Via value in front of the parameters: no separator of values or parameters is
in it, the transport ends in it, and the sent-by begins in it. -/
structure IsHead (head : Text) : Prop where
  semi : ';' ∉ head
  comma : ',' ∉ head
  quote : '"' ∉ head
  protocol : behindProtocol head ≠ []
  sentBy : behindSlashes head ≠ []

instance (head : Text) : Decidable (IsHead head) :=
  decidable_of_iff (';' ∉ head ∧ ',' ∉ head ∧ '"' ∉ head ∧ behindProtocol head ≠ [] ∧
    behindSlashes head ≠ [])
    ⟨fun h => ⟨h.1, h.2.1, h.2.2.1, h.2.2.2.1, h.2.2.2.2⟩,
      fun h => ⟨h.semi, h.comma, h.quote, h.protocol, h.sentBy⟩⟩

section Append

variable {a : Text} (e : Text)

theorem dropWhile_append_of_ne {p : Char → Bool} (h : a.dropWhile p ≠ []) :
    (a ++ e).dropWhile p = a.dropWhile p ++ e := by
  rw [List.dropWhile_append, if_neg (by simpa [List.isEmpty_iff] using h)]

theorem drop_append_of_ne {n : ℕ} (h : a.drop n ≠ []) : (a ++ e).drop n = a.drop n ++ e := by
  refine List.drop_append_of_le_length ?_
  by_contra hlt
  exact h (List.drop_eq_nil_iff.mpr (by omega))

theorem getString_append_of_ne (h : (getString a).2 ≠ []) :
    getString (a ++ e) = ((getString a).1, (getString a).2 ++ e) := by
  unfold getString at h ⊢
  dsimp only at h ⊢
  have hd : a.dropWhile (!isChar ·) ≠ [] := by
    intro hnil
    rw [hnil] at h
    exact h rfl
  rw [dropWhile_append_of_ne e hd, dropWhile_append_of_ne e h, List.takeWhile_append]
  have hlen : (List.takeWhile isChar (List.dropWhile (!isChar ·) a)).length ≠
      (List.dropWhile (!isChar ·) a).length := by
    intro heq
    refine h ?_
    have hsplit := congrArg List.length
      (List.takeWhile_append_dropWhile (p := isChar) (l := a.dropWhile (!isChar ·)))
    rw [List.length_append, heq] at hsplit
    exact List.length_eq_zero_iff.mp (by omega)
  rw [if_neg hlen]

/-- The protocol is read in the head. -/
theorem getProtocol_append (h : behindProtocol a ≠ []) :
    getProtocol (a ++ e) = getProtocol a := by
  unfold behindProtocol at h
  unfold getProtocol
  have hword : skipWSP (goTo '/' ((goTo '/' (a.drop 3)).drop 4)).tail ≠ [] := by
    intro hnil
    rw [hnil] at h
    exact h rfl
  have hslash : goTo '/' ((goTo '/' (a.drop 3)).drop 4) ≠ [] := by
    intro hnil
    rw [hnil] at hword
    exact hword rfl
  have htail : (goTo '/' ((goTo '/' (a.drop 3)).drop 4)).tail ≠ [] := by
    intro hnil
    rw [hnil] at hword
    exact hword rfl
  have hdrop : (goTo '/' (a.drop 3)).drop 4 ≠ [] := by
    intro hnil
    rw [hnil] at hslash
    exact hslash rfl
  have hfirst : goTo '/' (a.drop 3) ≠ [] := by
    intro hnil
    rw [hnil] at hdrop
    exact hdrop rfl
  have hthree : a.drop 3 ≠ [] := by
    intro hnil
    rw [hnil] at hfirst
    exact hfirst rfl
  have h1 : goTo '/' ((a ++ e).drop 3) = goTo '/' (a.drop 3) ++ e := by
    rw [drop_append_of_ne e hthree]
    exact dropWhile_append_of_ne e hfirst
  have h2 : goTo '/' ((goTo '/' ((a ++ e).drop 3)).drop 4) =
      goTo '/' ((goTo '/' (a.drop 3)).drop 4) ++ e := by
    rw [h1, drop_append_of_ne e hdrop]
    exact dropWhile_append_of_ne e hslash
  have h3 : skipWSP (goTo '/' ((goTo '/' ((a ++ e).drop 3)).drop 4)).tail =
      skipWSP (goTo '/' ((goTo '/' (a.drop 3)).drop 4)).tail ++ e := by
    rw [h2, List.tail_append_of_ne_nil hslash]
    exact dropWhile_append_of_ne e hword
  rw [h3, getString_append_of_ne e h]

end Append

/-- The sent-by is read in the head: the semicolon ends it. -/
theorem getSentBy_append {a : Text} (h : behindSlashes a ≠ []) (u : Text) :
    getSentBy (a ++ ';' :: u) = getSentBy a := by
  unfold behindSlashes at h
  have hrest : (getString (goTo '/' (goTo '/' a).tail)).2 ≠ [] := by
    intro hnil
    rw [hnil] at h
    exact h rfl
  have hslash : goTo '/' (goTo '/' a).tail ≠ [] := by
    intro hnil
    rw [hnil] at hrest
    exact hrest rfl
  have hfirst : goTo '/' a ≠ [] := by
    intro hnil
    rw [hnil] at hslash
    exact hslash rfl
  have h1 : goTo '/' (goTo '/' (a ++ ';' :: u)).tail = goTo '/' (goTo '/' a).tail ++ ';' :: u := by
    have hgo : goTo '/' (a ++ ';' :: u) = goTo '/' a ++ ';' :: u := dropWhile_append_of_ne _ hfirst
    rw [hgo, List.tail_append_of_ne_nil hfirst]
    exact dropWhile_append_of_ne _ hslash
  have h2 : skipWSP (getString (goTo '/' (goTo '/' (a ++ ';' :: u)).tail)).2 =
      skipWSP (getString (goTo '/' (goTo '/' a).tail)).2 ++ ';' :: u := by
    rw [h1, getString_append_of_ne _ hrest]
    exact dropWhile_append_of_ne _ h
  unfold getSentBy
  rw [h2]
  cases hs : skipWSP (getString (goTo '/' (goTo '/' a).tail)).2 with
  | nil => exact absurd hs h
  | cons c s =>
    show some (List.takeWhile _ ((c :: s) ++ ';' :: u)) = _
    have hsemi : List.takeWhile (!isSeparator ·) (';' :: u) = [] := rfl
    rw [List.takeWhile_append, hsemi, List.append_nil]
    split
    · rename_i hlength
      exact congrArg some ((List.takeWhile_prefix _).eq_of_length hlength).symm
    · rfl

/-! ## Via values -/

/-- The parameters of a Via value. -/
def parameters (v : Text) : List Segment := segments (firstSemi v).2.tail

/-- A Via value with this head.  The names of its parameters have no quotes. -/
structure HasHead (head v : Text) : Prop where
  isHead : IsHead head
  text : ∃ u, v = head ++ u ∧ (u = [] ∨ ∃ w, u = ';' :: w)
  names : Unquoted (parameters v)
  comma : Skips ',' false v

/-- A Via value with this head, and with the parameter branch. -/
structure IsVia (head branch v : Text) : Prop where
  isHead : IsHead head
  text : ∃ u, v = head ++ ';' :: u ∧ Unquoted (segments u) ∧
    ∃ a, find branchParam (segments u) = some a ∧ ownValue a.tail = some branch
  comma : Skips ',' false v

theorem IsHead.span {head u : Text} (h : IsHead head) (hu : u = [] ∨ ∃ w, u = ';' :: w) :
    ParametricHeader.firstSemi (head ++ u) = (head, u) :=
  span_append (skips_of_not_mem h.semi false)
    (hu.imp id fun hw => ⟨endsInside_of_not_mem h.quote false, hw⟩)

theorem IsHead.firstSemi {head : Text} (h : IsHead head) (u : Text) :
    ParametricHeader.firstSemi (head ++ ';' :: u) = (head, ';' :: u) := h.span (.inr ⟨u, rfl⟩)

theorem IsHead.parameters {head u : Text} (h : IsHead head) (hu : u = [] ∨ ∃ w, u = ';' :: w) :
    ViaHeader.parameters (head ++ u) = segments u.tail := by
  unfold ViaHeader.parameters
  rw [h.span hu]

theorem parameters_of_text {head u : Text} (h : IsHead head) :
    parameters (head ++ ';' :: u) = segments u := h.parameters (.inr ⟨u, rfl⟩)

/-- A quote is open behind the value if it is open behind the parameters. -/
theorem IsHead.endsInside {head : Text} (h : IsHead head) (u : Text) :
    SipParser.endsInside false (head ++ u) = SipParser.endsInside false u := by
  rw [endsInside_append, endsInside_of_not_mem h.quote]

/-- Spaces in front do not matter. -/
theorem segments_skipWSP (s : Text) : segments (skipWSP s) = segments s := by
  have hspace : ∀ c ∈ s.takeWhile (· == ' '), isParamSeparator c = true := by
    intro c hc
    have hc' := List.mem_takeWhile_imp hc
    rw [eq_of_beq hc']
    decide
  rw [← segments_append_separators hspace]
  show segments (List.takeWhile _ _ ++ List.dropWhile _ _) = _
  rw [List.takeWhile_append_dropWhile]

/-- A parameter is there if a segment has its name. -/
theorem hasParameter_eq {pname : Text} (hp : pname ≠ []) (v : Text) :
    hasParameter ParametricHeader.firstSemi pname v = (parameters v).any (·.name == pname) := by
  unfold hasParameter parameters
  rw [← segments_skipWSP]
  exact anyParameter_eq hp le_rfl

theorem IsVia.hasHead {head branch v : Text} (h : IsVia head branch v) : HasHead head v := by
  obtain ⟨u, rfl, hnames, -⟩ := h.text
  refine ⟨h.isHead, ⟨_, rfl, .inr ⟨u, rfl⟩⟩, ?_, h.comma⟩
  rw [parameters_of_text h.isHead]
  exact hnames

theorem IsVia.find_branch {head branch v : Text} (h : IsVia head branch v) :
    ∃ a, find branchParam (parameters v) = some a ∧ ownValue a.tail = some branch := by
  obtain ⟨u, rfl, -, hbranch⟩ := h.text
  rw [parameters_of_text h.isHead]
  exact hbranch

/-- A value with the parameter branch. -/
theorem HasHead.isVia {head branch v : Text} {a : Segment} (h : HasHead head v)
    (ha : find branchParam (parameters v) = some a) (hb : ownValue a.tail = some branch) :
    IsVia head branch v := by
  obtain ⟨u, rfl, hu⟩ := h.text
  have hnames := h.names
  rw [h.isHead.parameters hu] at ha hnames
  obtain rfl | ⟨w, rfl⟩ := hu
  · exact absurd ha (by simp [find, segments, segmentsFuel])
  · exact ⟨h.isHead, ⟨w, rfl, hnames, a, ha, hb⟩, h.comma⟩

theorem HasHead.getProtocol {head v : Text} (h : HasHead head v) :
    ViaHeader.getProtocol v = ViaHeader.getProtocol head := by
  obtain ⟨u, rfl, -⟩ := h.text
  exact getProtocol_append _ h.isHead.protocol

theorem HasHead.getSentBy {head v : Text} (h : HasHead head v) :
    ViaHeader.getSentBy v = ViaHeader.getSentBy head := by
  obtain ⟨u, rfl, rfl | ⟨w, rfl⟩⟩ := h.text
  · rw [List.append_nil]
  · exact getSentBy_append h.isHead.sentBy w

theorem IsVia.getBranch {head branch v : Text} (h : IsVia head branch v) :
    ViaHeader.getBranch v = some (some branch) := by
  obtain ⟨u, rfl, -, a, ha, hb⟩ := h.text
  unfold ViaHeader.getBranch getParameter
  rw [h.isHead.firstSemi]
  refine findParameter_eq le_rfl ?_ hb
  rw [segments_skipWSP]
  exact ha

theorem IsVia.hasBranch {head branch v : Text} (h : IsVia head branch v) :
    ViaHeader.hasBranch v = true := by
  obtain ⟨u, rfl, -, a, ha, -⟩ := h.text
  unfold ViaHeader.hasBranch
  rw [hasParameter_eq (by decide)]
  unfold parameters
  rw [h.isHead.firstSemi]
  exact any_of_find ha

theorem IsVia.getProtocol {head branch v : Text} (h : IsVia head branch v) :
    ViaHeader.getProtocol v = ViaHeader.getProtocol head := h.hasHead.getProtocol

theorem IsVia.getSentBy {head branch v : Text} (h : IsVia head branch v) :
    ViaHeader.getSentBy v = ViaHeader.getSentBy head := h.hasHead.getSentBy

/-! ## Setting a parameter -/

/-- What `setParameter` puts behind the name. -/
def addedText (pvalue : Option Text) : Text :=
  match pvalue with
  | none => []
  | some v => '=' :: v

theorem setParameter_eq (pname : Text) (pvalue : Option Text) (v : Text) :
    setParameter ParametricHeader.firstSemi pname pvalue v =
      (if hasParameter ParametricHeader.firstSemi pname v = true then
        removeParameter ParametricHeader.firstSemi pname v else v) ++
        ';' :: (pname ++ addedText pvalue) := by
  unfold setParameter
  cases pvalue <;> simp [addedText]

/-- A parameter is added. -/
theorem HasHead.append {head pname v added : Text} (h : HasHead head v)
    (hadded : Added pname added) (hcomma : ',' ∉ pname ++ added) :
    HasHead head (v ++ ';' :: (pname ++ added)) ∧
      Extended pname added (parameters v) (parameters (v ++ ';' :: (pname ++ added))) := by
  have hext : Extended pname added (parameters v) (parameters (v ++ ';' :: (pname ++ added))) := by
    obtain ⟨u, rfl, hu⟩ := h.text
    rw [h.isHead.parameters hu]
    obtain rfl | ⟨w, rfl⟩ := hu
    · rw [List.append_nil, parameters_of_text h.isHead, segments_added_nil hadded]
      exact .inl rfl
    · rw [List.append_assoc, List.cons_append, parameters_of_text h.isHead]
      exact segments_append hadded w
  refine ⟨⟨h.isHead, ?_, hext.unquoted hadded h.names, ?_⟩, hext⟩
  · obtain ⟨u, rfl, hu⟩ := h.text
    refine ⟨u ++ ';' :: (pname ++ added), by rw [List.append_assoc], .inr ?_⟩
    obtain rfl | ⟨w, rfl⟩ := hu
    · exact ⟨_, rfl⟩
    · exact ⟨_, rfl⟩
  · refine skips_append.mpr ⟨h.comma, skips_of_not_mem ?_ _⟩
    rw [List.mem_cons, not_or]
    exact ⟨by decide, hcomma⟩

/-- It is a parameter of its own, if no quote is open. -/
theorem HasHead.parameters_append {head pname v added : Text} (h : HasHead head v)
    (hadded : Added pname added) (hclosed : endsInside false v = false) :
    parameters (v ++ ';' :: (pname ++ added)) = parameters v ++ [⟨pname, added⟩] := by
  have hnames := h.names
  obtain ⟨u, rfl, hu⟩ := h.text
  rw [h.isHead.parameters hu] at hnames ⊢
  rw [h.isHead.endsInside] at hclosed
  obtain rfl | ⟨w, rfl⟩ := hu
  · rw [List.append_nil, parameters_of_text h.isHead, segments_added_nil hadded]
    rfl
  · rw [endsInside_cons, if_neg (by decide)] at hclosed
    rw [List.tail_cons] at hnames ⊢
    rw [List.append_assoc, List.cons_append, parameters_of_text h.isHead,
      segments_append_semi hnames hclosed, segments_added_nil hadded]

theorem IsVia.append {head branch pname v added : Text} (h : IsVia head branch v)
    (hadded : Added pname added) (hcomma : ',' ∉ pname ++ added) :
    IsVia head branch (v ++ ';' :: (pname ++ added)) ∧
      Extended pname added (parameters v) (parameters (v ++ ';' :: (pname ++ added))) := by
  obtain ⟨a, ha, hb⟩ := h.find_branch
  obtain ⟨hhead, hext⟩ := h.hasHead.append hadded hcomma
  obtain ⟨a', ha', hb'⟩ := hext.find_ownValue ha hb
  exact ⟨hhead.isVia ha' hb', hext⟩

/-- A parameter is removed, when `removeParameter` finds it. -/
theorem HasHead.removeParameter {head pname v : Text} (h : HasHead head v) (hp : pname ≠ [])
    (hclear : clear pname (parameters v) = true) :
    HasHead head (ParametricHeader.removeParameter ParametricHeader.firstSemi pname v) ∧
      parameters (ParametricHeader.removeParameter ParametricHeader.firstSemi pname v) =
        (parameters v).eraseP (·.name == pname) ∧
      (endsInside false v = false → endsInside false
        (ParametricHeader.removeParameter ParametricHeader.firstSemi pname v) = false) := by
  obtain ⟨u, rfl, hu⟩ := h.text
  have hnames := h.names
  have hcomma := h.comma
  rw [h.isHead.parameters hu] at hclear hnames ⊢
  rw [skips_append, endsInside_of_not_mem h.isHead.quote] at hcomma
  have hremove : ParametricHeader.removeParameter ParametricHeader.firstSemi pname (head ++ u) =
      cutParameter pname u.length head u := by
    unfold ParametricHeader.removeParameter
    rw [h.isHead.span hu]
  obtain ⟨out, hcut, hstart, hsegments, hcommas, hends⟩ : ∃ out,
      cutParameter pname u.length head u = head ++ out ∧ (out = [] ∨ ∃ w, out = ';' :: w) ∧
        segments out.tail = (segments u.tail).eraseP (·.name == pname) ∧
        (Skips ',' false u → Skips ',' false out) ∧
        (endsInside false u = false → endsInside false out = false) := by
    obtain rfl | ⟨w, rfl⟩ := hu
    · exact ⟨[], by simp [cutParameter_nil], .inl rfl, rfl, id, id⟩
    · rw [List.tail_cons] at hclear hnames
      exact cut_eq hp hclear hnames (by rw [List.length_cons]; omega) head
  have hparameters : parameters (head ++ out) = (segments u.tail).eraseP (·.name == pname) := by
    rw [h.isHead.parameters hstart, hsegments]
  rw [hremove, hcut, h.isHead.endsInside, h.isHead.endsInside, hparameters]
  refine ⟨⟨h.isHead, ⟨out, rfl, hstart⟩, ?_, ?_⟩, rfl, hends⟩
  · rw [hparameters]
    exact fun b hb => hnames b (List.mem_of_mem_eraseP hb)
  · rw [skips_append, endsInside_of_not_mem h.isHead.quote]
    exact ⟨hcomma.1, hcommas hcomma.2⟩

/-- **Setting a parameter replaces the first one of the name**, and puts it behind the others. -/
theorem HasHead.setParameter {head pname v : Text} {pvalue : Option Text} (h : HasHead head v)
    (hadded : Added pname (addedText pvalue)) (hcomma : ',' ∉ pname ++ addedText pvalue)
    (hclosed : endsInside false v = false)
    (hclear : hasParameter ParametricHeader.firstSemi pname v = true →
      clear pname (parameters v) = true) :
    HasHead head (ParametricHeader.setParameter ParametricHeader.firstSemi pname pvalue v) ∧
      parameters (ParametricHeader.setParameter ParametricHeader.firstSemi pname pvalue v) =
        (parameters v).eraseP (·.name == pname) ++ [⟨pname, addedText pvalue⟩] ∧
      endsInside false
        (ParametricHeader.setParameter ParametricHeader.firstSemi pname pvalue v) = false := by
  obtain ⟨w, hw, hhead, hparameters, hends⟩ : ∃ w,
      ParametricHeader.setParameter ParametricHeader.firstSemi pname pvalue v =
        w ++ ';' :: (pname ++ addedText pvalue) ∧ HasHead head w ∧
        parameters w = (parameters v).eraseP (·.name == pname) ∧ endsInside false w = false := by
    rw [setParameter_eq]
    by_cases hhas : hasParameter ParametricHeader.firstSemi pname v = true
    · rw [if_pos hhas]
      obtain ⟨hhead, hparameters, hends⟩ := h.removeParameter hadded.ne_nil (hclear hhas)
      exact ⟨_, rfl, hhead, hparameters, hends hclosed⟩
    · rw [if_neg hhas]
      rw [hasParameter_eq hadded.ne_nil, List.any_eq_true] at hhas
      refine ⟨v, rfl, h, (List.eraseP_of_forall_not ?_).symm, hclosed⟩
      exact fun a ha hname => hhas ⟨a, ha, hname⟩
  rw [hw, hhead.parameters_append hadded hends, hparameters]
  refine ⟨(hhead.append hadded hcomma).1, rfl, ?_⟩
  rw [endsInside_append, hends, endsInside_cons, if_neg (by decide)]
  exact endsInside_of_not_mem hadded.quote false

section Set

variable {head branch pname : Text} (hbranch : pname ≠ branchParam)

include hbranch

theorem IsVia.removeParameter {v : Text} (h : IsVia head branch v) (hp : pname ≠ [])
    (hclear : clear pname (parameters v) = true) :
    IsVia head branch (ParametricHeader.removeParameter ParametricHeader.firstSemi pname v) ∧
      parameters (ParametricHeader.removeParameter ParametricHeader.firstSemi pname v) =
        (parameters v).eraseP (·.name == pname) := by
  obtain ⟨a, ha, hb⟩ := h.find_branch
  obtain ⟨hhead, hparameters, -⟩ := h.hasHead.removeParameter hp hclear
  refine ⟨hhead.isVia ?_ hb, hparameters⟩
  rw [hparameters, find_eraseP hbranch, ha]

/-- **Setting a parameter keeps the head and the branch.** -/
theorem IsVia.setParameter {v : Text} {pvalue : Option Text} (h : IsVia head branch v)
    (hadded : Added pname (addedText pvalue)) (hcomma : ',' ∉ pname ++ addedText pvalue)
    (hclear : hasParameter ParametricHeader.firstSemi pname v = true →
      clear pname (parameters v) = true) :
    IsVia head branch (ParametricHeader.setParameter ParametricHeader.firstSemi pname pvalue v) ∧
      ∀ other, other ≠ [] → pname ≠ other →
        hasParameter ParametricHeader.firstSemi other
            (ParametricHeader.setParameter ParametricHeader.firstSemi pname pvalue v) =
          hasParameter ParametricHeader.firstSemi other v ∧
        (clear other (parameters v) = true → clear other (parameters
          (ParametricHeader.setParameter ParametricHeader.firstSemi pname pvalue v)) = true) := by
  obtain ⟨w, hw, hwvia, hwany⟩ : ∃ w, ParametricHeader.setParameter ParametricHeader.firstSemi pname
      pvalue v = w ++ ';' :: (pname ++ addedText pvalue) ∧ IsVia head branch w ∧
      ∀ other, pname ≠ other →
        (parameters w).any (·.name == other) = (parameters v).any (·.name == other) ∧
        (clear other (parameters v) = true → clear other (parameters w) = true) := by
    rw [setParameter_eq]
    by_cases hhas : hasParameter ParametricHeader.firstSemi pname v = true
    · rw [if_pos hhas]
      obtain ⟨hvia, hparameters⟩ := h.removeParameter hbranch hadded.ne_nil (hclear hhas)
      refine ⟨_, rfl, hvia, fun other hne => ?_⟩
      rw [hparameters]
      exact ⟨any_eraseP hne _, clear_eraseP hne⟩
    · rw [if_neg hhas]
      exact ⟨v, rfl, h, fun other hne => ⟨rfl, id⟩⟩
  rw [hw]
  obtain ⟨hvia, hext⟩ := hwvia.append hadded hcomma
  refine ⟨hvia, fun other hother hne => ⟨?_, fun hc => ?_⟩⟩
  · rw [hasParameter_eq hother, hasParameter_eq hother, hext.any hne, (hwany other hne).1]
  · exact hext.clear hne hadded ((hwany other hne).2 hc)

end Set

/-! ## The provider -/

/-- A source address: no separator of parameters is in it. -/
structure IsAddress (addr : Text) : Prop where
  semi : ';' ∉ addr
  comma : ',' ∉ addr
  quote : '"' ∉ addr

instance (addr : Text) : Decidable (IsAddress addr) :=
  decidable_of_iff (';' ∉ addr ∧ ',' ∉ addr ∧ '"' ∉ addr)
    ⟨fun h => ⟨h.1, h.2.1, h.2.2⟩, fun h => ⟨h.semi, h.comma, h.quote⟩⟩

/-- Where the provider sets a parameter that is there already, `removeParameter` finds it. -/
structure Spared (srcAddr v : Text) : Prop where
  received : getHost v ≠ some srcAddr →
    hasParameter ParametricHeader.firstSemi receivedParam v = true →
      clear receivedParam (parameters v) = true
  rport : hasRport v = true → clear rportParam (parameters v) = true

instance (srcAddr v : Text) : Decidable (Spared srcAddr v) :=
  decidable_of_iff ((getHost v ≠ some srcAddr →
    hasParameter ParametricHeader.firstSemi receivedParam v = true →
      clear receivedParam (parameters v) = true) ∧
    (hasRport v = true → clear rportParam (parameters v) = true))
    ⟨fun h => ⟨h.1, h.2⟩, fun h => ⟨h.received, h.rport⟩⟩

theorem added_received {addr : Text} (h : IsAddress addr) :
    Added receivedParam (addedText (some addr)) where
  word := by decide
  ne_nil := by decide
  stop := by
    intro c hc
    rw [← Option.some.inj hc]
    decide
  semi := by
    show ';' ∉ '=' :: addr
    rw [List.mem_cons, not_or]
    exact ⟨by decide, h.semi⟩
  quote := by
    show '"' ∉ receivedParam ++ '=' :: addr
    rw [List.mem_append, List.mem_cons, not_or, not_or]
    exact ⟨by decide, by decide, h.quote⟩

/-- A number has digits and a sign. -/
theorem mem_valueOf {n : ℤ} {c : Char} (h : c ∈ valueOf n) : c = '-' ∨ c.isDigit = true := by
  by_cases hn : 0 ≤ n
  · exact .inr (isDigit_valueOf hn h)
  · rw [valueOf_eq, if_neg hn] at h
    rcases List.mem_cons.mp h with rfl | h
    · exact .inl rfl
    · exact .inr (Nat.isDigit_of_mem_toDigits (by decide) (by decide) h)

/-- A number has no separators. -/
theorem isAddress_valueOf (n : ℤ) : IsAddress (valueOf n) := by
  refine ⟨fun h => ?_, fun h => ?_, fun h => ?_⟩ <;>
    rcases mem_valueOf h with h | h <;> exact absurd h (by decide)

theorem added_rport (port : ℤ) :
    Added rportParam (addedText (if port < 0 then none else some (valueOf port))) := by
  have h := isAddress_valueOf port
  by_cases hport : port < 0
  · rw [if_pos hport]
    exact ⟨by decide, by decide, by simp [addedText], by simp [addedText], by decide⟩
  · rw [if_neg hport]
    refine ⟨by decide, by decide, ?_, ?_, ?_⟩
    · intro c hc
      rw [← Option.some.inj hc]
      decide
    · show ';' ∉ '=' :: valueOf port
      rw [List.mem_cons, not_or]
      exact ⟨by decide, h.semi⟩
    · show '"' ∉ rportParam ++ '=' :: valueOf port
      rw [List.mem_append, List.mem_cons, not_or, not_or]
      exact ⟨by decide, by decide, h.quote⟩

theorem comma_received {addr : Text} (h : IsAddress addr) :
    ',' ∉ receivedParam ++ addedText (some addr) := by
  show ',' ∉ receivedParam ++ '=' :: addr
  rw [List.mem_append, List.mem_cons, not_or, not_or]
  exact ⟨by decide, by decide, h.comma⟩

theorem comma_rport (port : ℤ) :
    ',' ∉ rportParam ++ addedText (if port < 0 then none else some (valueOf port)) := by
  by_cases hport : port < 0
  · rw [if_pos hport]
    decide
  · rw [if_neg hport]
    show ',' ∉ rportParam ++ '=' :: valueOf port
    rw [List.mem_append, List.mem_cons, not_or, not_or]
    exact ⟨by decide, by decide, (isAddress_valueOf port).comma⟩

/-- `force_rport`, and the request did not come from the port of the sent-by. -/
def Forced (forceRport : Bool) (srcPort : ℤ) (value : Text) : Prop :=
  forceRport = true ∧
    (getPort value).map (fun port => if port ≤ 0 then defaultPort else port) ≠ some srcPort

/-- What the provider can make of a Via: received is set where the host is not the source
address, and rport where it is there, or where the provider forces it. -/
theorem receivedVia_cases {v addr : Text} {forceRport : Bool} {port : ℤ} {p : Text × Bool}
    (hp : receivedVia forceRport addr port v = some p) :
    ∃ host viaPort w, getHost v = some host ∧ getPort v = some viaPort ∧
      (host ≠ addr ∧ w = setReceived addr v ∨ host = addr ∧ w = v) ∧
      (p = (setRport port w, true) ∧ (hasRport w = true ∨ Forced forceRport port v) ∨
        p = (w, decide (host ≠ addr)) ∧ hasRport w = false) := by
  obtain ⟨host, hhost, hp⟩ := Option.bind_eq_some_iff.mp hp
  obtain ⟨viaPort, hport, hp⟩ := Option.map_eq_some_iff.mp hp
  have hset {w : Text} {changed : Bool}
      (hw : (if hasRport w = true ∨
          forceRport = true ∧ (if viaPort ≤ 0 then defaultPort else viaPort) ≠ port then
        (setRport port w, true) else (w, changed)) = p) :
      p = (setRport port w, true) ∧ (hasRport w = true ∨ Forced forceRport port v) ∨
        p = (w, changed) ∧ hasRport w = false := by
    have hforced : Forced forceRport port v ↔
        forceRport = true ∧ (if viaPort ≤ 0 then defaultPort else viaPort) ≠ port := by
      unfold Forced
      rw [hport, Option.map_some, Ne, Option.some_inj]
    by_cases hrport : hasRport w = true ∨
        forceRport = true ∧ (if viaPort ≤ 0 then defaultPort else viaPort) ≠ port
    · rw [if_pos hrport] at hw
      exact .inl ⟨hw.symm, hrport.imp id hforced.mpr⟩
    · rw [if_neg hrport] at hw
      rw [not_or] at hrport
      exact .inr ⟨hw.symm, by simpa using hrport.1⟩
  dsimp only at hp
  by_cases hne : host ≠ addr
  · rw [if_pos hne] at hp
    refine ⟨host, viaPort, _, hhost, hport, .inl ⟨hne, rfl⟩, ?_⟩
    rw [decide_eq_true hne]
    exact hset hp
  · rw [if_neg hne] at hp
    refine ⟨host, viaPort, _, hhost, hport, .inr ⟨not_not.mp hne, rfl⟩, ?_⟩
    rw [decide_eq_false hne]
    exact hset hp

/-- Without `via_changed`, the Via is as it was. -/
theorem receivedVia_unchanged {v addr : Text} {forceRport : Bool} {port : ℤ} {p : Text × Bool}
    (hp : receivedVia forceRport addr port v = some p) (h : p.2 = false) : p.1 = v := by
  obtain ⟨host, viaPort, w, -, -, hw, ⟨rfl, -⟩ | ⟨rfl, -⟩⟩ := receivedVia_cases hp
  · exact absurd h (by simp)
  · obtain ⟨hne, -⟩ | ⟨-, rfl⟩ := hw
    · exact absurd hne (by simpa using h)
    · rfl

/-- **The top Via of a request that was received has the same head and the same branch.** -/
theorem isVia_receivedVia {head branch v addr : Text} {forceRport : Bool} {port : ℤ}
    {p : Text × Bool} (h : IsVia head branch v) (haddr : IsAddress addr) (hspared : Spared addr v)
    (hp : receivedVia forceRport addr port v = some p) : IsVia head branch p.1 := by
  obtain ⟨host, viaPort, w, hhost, -, hw, hp⟩ := receivedVia_cases hp
  obtain ⟨hvia, hhas, hclear⟩ : IsVia head branch w ∧ hasRport w = hasRport v ∧
      (clear rportParam (parameters v) = true → clear rportParam (parameters w) = true) := by
    obtain ⟨hne, rfl⟩ | ⟨-, rfl⟩ := hw
    · obtain ⟨hvia, hother⟩ := h.setParameter (by decide) (added_received haddr)
        (comma_received haddr) (hspared.received (by rw [hhost]; simpa using hne))
      exact ⟨hvia, hother rportParam (by decide) (by decide)⟩
    · exact ⟨h, rfl, id⟩
  obtain ⟨rfl, -⟩ | ⟨rfl, -⟩ := hp
  · exact (hvia.setParameter (by decide) (added_rport port) (comma_rport port)
      fun hr => hclear (hspared.rport (hhas ▸ hr))).1
  · exact hvia

/-! ## A Via that is made from another one -/

theorem mem_skipWSP {c : Char} {s : Text} (h : c ∈ skipWSP s) : c ∈ s :=
  (List.dropWhile_suffix _).subset h

theorem mem_goTo {c d : Char} {s : Text} (h : c ∈ goTo d s) : c ∈ s :=
  (List.dropWhile_suffix _).subset h

theorem mem_getString {c : Char} {s : Text} (h : c ∈ (getString s).1 ∨ c ∈ (getString s).2) :
    c ∈ s := by
  rcases h with h | h
  · exact (List.dropWhile_suffix _).subset ((List.takeWhile_prefix _).subset h)
  · exact (List.dropWhile_suffix _).subset ((List.dropWhile_suffix _).subset h)

theorem mem_getProtocol {c : Char} {v : Text} (h : c ∈ getProtocol v) : c ∈ v := by
  have h1 := mem_goTo (List.mem_of_mem_tail (mem_skipWSP (mem_getString (.inl h))))
  exact List.mem_of_mem_drop (mem_goTo (List.mem_of_mem_drop h1))

/-- The transport is a token. -/
theorem isChar_getProtocol {v : Text} : ∀ c ∈ getProtocol v, isChar c = true :=
  fun _ hc => isChar_of_mem_getString hc

theorem getProtocol_ne_nil {v : Text} (h : behindProtocol v ≠ []) : getProtocol v ≠ [] := by
  unfold behindProtocol getString at h
  unfold getProtocol getString
  dsimp only at h ⊢
  intro hnil
  refine h ?_
  cases hd : List.dropWhile (!isChar ·)
      (skipWSP (goTo '/' ((goTo '/' (v.drop 3)).drop 4)).tail) with
  | nil => rfl
  | cons a t =>
    have ha := head_dropWhile (p := (!isChar ·)) a (by rw [hd]; rfl)
    rw [hd] at hnil
    simp at ha
    simp [ha] at hnil

theorem toUpper_cases (c : Char) :
    c.toUpper = c ∨ 65 ≤ c.toUpper.toNat ∧ c.toUpper.toNat ≤ 90 := by
  unfold Char.toUpper
  split
  · rename_i h
    right
    obtain ⟨h1, h2⟩ := h
    rw [UInt32.le_iff_toNat_le] at h1 h2
    have ha : ('a' : Char).val.toNat = 97 := rfl
    have hz : ('z' : Char).val.toNat = 122 := rfl
    rw [ha] at h1
    rw [hz] at h2
    show 65 ≤ (c.val + ('A'.val - 'a'.val)).toNat ∧ (c.val + ('A'.val - 'a'.val)).toNat ≤ 90
    have hsub : ('A'.val - 'a'.val).toNat = 4294967264 := rfl
    rw [UInt32.toNat_add, hsub]
    omega
  · exact .inl rfl

theorem isChar_iff {c : Char} : isChar c = true ↔ 32 < c.toNat ∧ c.toNat ≤ 126 := by
  unfold isChar
  rw [Bool.and_eq_true, decide_eq_true_eq, decide_eq_true_eq, Char.lt_def, Char.le_def,
    UInt32.lt_iff_toNat_lt, UInt32.le_iff_toNat_le]
  exact Iff.rfl

theorem isChar_toUpper {c : Char} (h : isChar c = true) : isChar c.toUpper = true := by
  rcases toUpper_cases c with heq | hrange
  · rw [heq]
    exact h
  · rw [isChar_iff]
    omega

/-- A character that is no letter is not the upper case of another one. -/
theorem toUpper_ne {c d : Char} (hd : d.toNat < 65) (hne : c ≠ d) : c.toUpper ≠ d := by
  rcases toUpper_cases c with heq | hrange
  · rw [heq]
    exact hne
  · rintro rfl
    omega

section Word

variable {word : Text} (hword : ∀ c ∈ word, isChar c = true)
include hword

theorem skipWSP_chars (hne : word ≠ []) (u : Text) : skipWSP (word ++ u) = word ++ u := by
  cases word with
  | nil => exact absurd rfl hne
  | cons c word =>
    have hc := hword c (List.mem_cons_self ..)
    refine List.dropWhile_cons_of_neg ?_
    intro hspace
    rw [eq_of_beq hspace] at hc
    exact absurd hc (by decide)

/-- What stands behind the second slash. -/
theorem behindSlashes_chars (u : Text) :
    behindSlashes ("SIP/2.0/".toList ++ (word ++ ' ' :: u)) = skipWSP u := by
  have htoken : ∀ c ∈ '/' :: word, isChar c = true := by
    intro c hc
    rcases List.mem_cons.mp hc with rfl | hc
    · decide
    · exact hword c hc
  show skipWSP (getString (('/' :: word) ++ ' ' :: u)).2 = _
  rw [getString_blank htoken (List.cons_ne_nil _ _)]
  exact List.dropWhile_cons_of_pos (by decide)

end Word

section OfHost

variable {proto host : Text} {port : ℤ}

theorem ofHost_eq : ofHost proto host port = "SIP/2.0/".toList ++
    (proto.map Char.toUpper ++ (' ' :: (host ++ ':' :: valueOf port))) := by
  unfold ofHost
  simp

theorem chars_upper (hproto : ∀ c ∈ proto, isChar c = true) :
    ∀ c ∈ proto.map Char.toUpper, isChar c = true := by
  intro c hc
  obtain ⟨d, hd, rfl⟩ := List.mem_map.mp hc
  exact isChar_toUpper (hproto d hd)

/-- What stands behind the last slash. -/
theorem behind_ofHost (hproto : ∀ c ∈ proto, isChar c = true) (hne : proto ≠ []) :
    getString (skipWSP (goTo '/' ((goTo '/' ((ofHost proto host port).drop 3)).drop 4)).tail) =
      (proto.map Char.toUpper, ' ' :: (host ++ ':' :: valueOf port)) := by
  have hupper := chars_upper hproto
  have hne' : proto.map Char.toUpper ≠ [] := by simpa using hne
  rw [ofHost_eq]
  show getString (skipWSP (proto.map Char.toUpper ++ _)) = _
  rw [skipWSP_chars hupper hne', getString_blank hupper hne']

theorem behindSlashes_ofHost (hproto : ∀ c ∈ proto, isChar c = true) (hhost : ' ' ∉ host) :
    behindSlashes (ofHost proto host port) = host ++ ':' :: valueOf port := by
  rw [ofHost_eq, behindSlashes_chars (chars_upper hproto)]
  cases host with
  | nil => exact List.dropWhile_cons_of_neg (by decide)
  | cons c host =>
    refine List.dropWhile_cons_of_neg ?_
    intro hspace
    rw [eq_of_beq hspace] at hhost
    exact hhost (List.mem_cons_self ..)

theorem getProtocol_ofHost (hproto : ∀ c ∈ proto, isChar c = true) (hne : proto ≠ []) :
    getProtocol (ofHost proto host port) = proto.map Char.toUpper :=
  congrArg Prod.fst (behind_ofHost hproto hne)

/-- A character that may stand in a sent-by. -/
theorem not_separator_valueOf {c : Char} (h : c ∈ valueOf port) : isSeparator c = false := by
  rcases mem_valueOf h with rfl | hdigit
  · rfl
  · by_contra hsep
    unfold isSeparator at hsep
    simp only [Bool.not_eq_false, List.contains_eq_mem, decide_eq_true_eq, List.mem_cons,
      List.not_mem_nil, or_false] at hsep
    rcases hsep with rfl | rfl | rfl | rfl | rfl | rfl | rfl | rfl | rfl | rfl | rfl | rfl | rfl |
      rfl | rfl | rfl | rfl | rfl | rfl <;> exact absurd hdigit (by decide)

/-- The sent-by of a Via that was made. -/
theorem getSentBy_ofHost (hproto : ∀ c ∈ proto, isChar c = true)
    (hhost : ∀ c ∈ host, isSeparator c = false) :
    getSentBy (ofHost proto host port) = some (host ++ ':' :: valueOf port) := by
  have hspace : ' ' ∉ host := fun h => absurd (hhost ' ' h) (by decide)
  have hall : ∀ c ∈ host ++ ':' :: valueOf port, (!isSeparator c) = true := by
    intro c hc
    rcases List.mem_append.mp hc with hc | hc
    · simp [hhost c hc]
    · rcases List.mem_cons.mp hc with rfl | hc
      · decide
      · simp [not_separator_valueOf hc]
  have hbehind : behindSlashes (ofHost proto host port) = host ++ ':' :: valueOf port :=
    behindSlashes_ofHost hproto hspace
  unfold behindSlashes at hbehind
  unfold getSentBy
  rw [hbehind]
  cases hs : host ++ ':' :: valueOf port with
  | nil => exact absurd hs (by simp)
  | cons c t =>
    rw [hs] at hall
    show some (List.takeWhile _ (c :: t)) = _
    rw [List.takeWhile_eq_self_iff.mpr hall]

/-- Host and port of a Via that was made. -/
theorem getHost_ofHost (hproto : ∀ c ∈ proto, isChar c = true)
    (hhost : ∀ c ∈ host, isSeparator c = false) (hcolon : ':' ∉ host)
    (hport : -2147483648 ≤ port ∧ port ≤ 2147483647) :
    getHost (ofHost proto host port) = some host ∧
      getPort (ofHost proto host port) = some port := by
  have hrun : ∀ c ∈ host, (c != ':') = true := bne_of_not_mem hcolon
  obtain ⟨htake, hdrop⟩ := takeWhile_run (b := ':' :: valueOf port) hrun (by simp)
  unfold getHost getPort
  rw [getSentBy_ofHost hproto hhost]
  constructor
  · exact congrArg some htake
  · have hgo : goTo ':' (host ++ ':' :: valueOf port) = ':' :: valueOf port := hdrop
    rw [Option.bind_some, hgo]
    show parseInt (getString (valueOf port)).1 = _
    have htoken := getString_append (s := []) (fun c => isChar_valueOf (n := port) (c := c))
      (by simp) (valueOf_ne_nil port)
    rw [List.append_nil] at htoken
    rw [htoken]
    exact parseInt_valueOf hport

/-- A Via that is made from a transport, a host and a port that were read is a head. -/
theorem isHead_ofHost (hproto : ∀ c ∈ proto, isChar c = true) (hne : proto ≠ [])
    (hplain : ';' ∉ proto ∧ ',' ∉ proto ∧ '"' ∉ proto)
    (hhost : ∀ c ∈ host, isSeparator c = false) : IsHead (ofHost proto host port) := by
  have hnot {d : Char} (hd : d.toNat < 65) (hp : d ∉ proto) (hh : d ∉ host)
      (hv : d ∉ valueOf port) (hfix : d ∉ "SIP/2.0/".toList) (hspace : d ≠ ' ')
      (hcolon : d ≠ ':') : d ∉ ofHost proto host port := by
    rw [ofHost_eq]
    simp only [List.mem_append, List.mem_cons, List.mem_map, not_or, not_exists, not_and]
    exact ⟨hfix, fun c hc => toUpper_ne hd fun heq => hp (heq ▸ hc), hspace, hh, hcolon, hv⟩
  have hvalue := isAddress_valueOf port
  refine ⟨hnot (by decide) hplain.1 (fun h => ?_) hvalue.semi (by decide) (by decide) (by decide),
    hnot (by decide) hplain.2.1 (fun h => ?_) hvalue.comma (by decide) (by decide) (by decide),
    hnot (by decide) hplain.2.2 (fun h => ?_) hvalue.quote (by decide) (by decide) (by decide),
    ?_, ?_⟩
  · exact absurd (hhost _ h) (by decide)
  · exact absurd (hhost _ h) (by decide)
  · exact absurd (hhost _ h) (by decide)
  · unfold behindProtocol
    rw [behind_ofHost hproto hne]
    exact List.cons_ne_nil _ _
  · rw [behindSlashes_ofHost hproto fun h => absurd (hhost ' ' h) (by decide)]
    simp

end OfHost

/-- The branch is the only parameter of a Via that had none. -/
theorem setBranch_head {head branch : Text} (h : IsHead head)
    (hbranch : ∀ c ∈ branch, isParamSeparator c = false) (hquote : '"' ∉ branch) :
    setBranch (some branch) head = head ++ ';' :: (branchParam ++ '=' :: branch) ∧
      segments (branchParam ++ '=' :: branch) = [⟨branchParam, '=' :: branch⟩] := by
  have hadded : Added branchParam ('=' :: branch) := by
    refine ⟨by decide, by decide, ?_, ?_, ?_⟩
    · intro c hc
      rw [← Option.some.inj hc]
      decide
    · rw [List.mem_cons, not_or]
      exact ⟨by decide, fun hmem => absurd (hbranch _ hmem) (by decide)⟩
    · rw [List.mem_append, List.mem_cons, not_or, not_or]
      exact ⟨by decide, by decide, hquote⟩
  have hnone : hasParameter ParametricHeader.firstSemi branchParam head = false := by
    rw [hasParameter_eq (by decide)]
    unfold parameters ParametricHeader.firstSemi
    have hskips : Skips ';' false head := skips_of_not_mem h.semi false
    rw [hskips]
    rfl
  refine ⟨?_, segments_added_nil hadded⟩
  unfold setBranch
  rw [setParameter_eq, hnone, if_neg (by decide)]
  rfl

/-- The branch of a Via without parameters is set. -/
theorem isVia_setBranch {head branch : Text} (h : IsHead head)
    (hbranch : ∀ c ∈ branch, isParamSeparator c = false) (hne : branch ≠ [])
    (hquote : '"' ∉ branch) : IsVia head branch (setBranch (some branch) head) := by
  obtain ⟨htext, hsegments⟩ := setBranch_head h hbranch hquote
  rw [htext]
  refine ⟨h, ⟨_, rfl, ?_, ⟨branchParam, '=' :: branch⟩, ?_, ownValue_token hbranch hne hquote⟩, ?_⟩
  · rw [hsegments]
    exact List.forall_mem_singleton.mpr (by decide : '"' ∉ branchParam)
  · rw [hsegments]
    rfl
  · refine skips_of_not_mem ?_ false
    simp only [List.mem_append, List.mem_cons, not_or]
    exact ⟨h.comma, by decide, by decide, by decide, fun hmem => absurd (hbranch _ hmem) (by decide)⟩

/-- There is no other parameter, and the provider spares the branch. -/
theorem spared_setBranch {head branch : Text} (h : IsHead head)
    (hbranch : ∀ c ∈ branch, isParamSeparator c = false) (hquote : '"' ∉ branch) (addr : Text) :
    Spared addr (setBranch (some branch) head) := by
  obtain ⟨htext, hsegments⟩ := setBranch_head h hbranch hquote
  have hparams : parameters (setBranch (some branch) head) = [⟨branchParam, '=' :: branch⟩] := by
    rw [htext, parameters_of_text h, hsegments]
  have hnot {pname : Text} (hp : pname ≠ []) (hne : (branchParam == pname) = false) :
      hasParameter ParametricHeader.firstSemi pname (setBranch (some branch) head) = false := by
    rw [hasParameter_eq hp, hparams, List.any_cons, List.any_nil, Bool.or_false]
    exact hne
  refine ⟨fun _ hreceived => ?_, fun hrport => ?_⟩
  · rw [hnot (by decide) (by decide)] at hreceived
    exact Bool.noConfusion hreceived
  · rw [hasRport, hnot (by decide) (by decide)] at hrport
    exact Bool.noConfusion hrport

/-- What `getPort` returns is in the range of an `int`. -/
theorem range_getPort {v : Text} {port : ℤ} (h : getPort v = some port) :
    -2147483648 ≤ port ∧ port ≤ 2147483647 := by
  obtain ⟨sentBy, -, h⟩ := Option.bind_eq_some_iff.mp h
  split at h
  · rw [← Option.some.inj h]
    decide
  · exact range_parseInt h

/-- What `getHost` returns. -/
theorem host_chars {v host : Text} (h : getHost v = some host) :
    (∀ c ∈ host, isSeparator c = false) ∧ ':' ∉ host := by
  obtain ⟨sentBy, hs, hhost⟩ := Option.map_eq_some_iff.mp h
  rw [← hhost]
  refine ⟨fun c hc => ?_, fun hc => absurd (List.mem_takeWhile_imp hc) (by decide)⟩
  have hmem := (List.takeWhile_prefix _).subset hc
  unfold getSentBy at hs
  split at hs
  · exact absurd hs (by simp)
  · rw [← Option.some.inj hs] at hmem
    have hsep := List.mem_takeWhile_imp hmem
    simpa using hsep

/-- **A Via with the transport, the host, the port and the branch of another one.** -/
theorem isVia_made {head branch v host made : Text} {port : ℤ} (h : IsVia head branch v)
    (hhost : getHost v = some host) (hport : getPort v = some port)
    (hmade : made = setBranch (some branch) (ofHost (getProtocol v) host port)) :
    IsVia (ofHost (getProtocol v) host port) branch made ∧
      getProtocol made = (getProtocol v).map Char.toUpper ∧
      getHost made = some host ∧ getPort made = some port ∧ ∀ addr, Spared addr made := by
  obtain ⟨hchars, hcolon⟩ := host_chars hhost
  have hproto := isChar_getProtocol (v := v)
  have hne : getProtocol v ≠ [] := by
    rw [h.getProtocol]
    exact getProtocol_ne_nil h.isHead.protocol
  have hplain : ';' ∉ getProtocol v ∧ ',' ∉ getProtocol v ∧ '"' ∉ getProtocol v := by
    rw [h.getProtocol]
    exact ⟨fun hc => h.isHead.semi (mem_getProtocol hc), fun hc => h.isHead.comma (mem_getProtocol hc),
      fun hc => h.isHead.quote (mem_getProtocol hc)⟩
  obtain ⟨u, -, -, a, -, hb⟩ := h.text
  obtain ⟨htoken, hbne, hquote⟩ := token_of_ownValue hb
  have hhead : IsHead (ofHost (getProtocol v) host port) := isHead_ofHost hproto hne hplain hchars
  have hvia : IsVia (ofHost (getProtocol v) host port) branch made := by
    rw [hmade]
    exact isVia_setBranch hhead htoken hbne hquote
  obtain ⟨hhost', hport'⟩ := getHost_ofHost hproto hchars hcolon (range_getPort hport)
  refine ⟨hvia, hvia.getProtocol.trans (getProtocol_ofHost hproto hne), ?_, ?_, fun addr => ?_⟩
  · unfold getHost at hhost' ⊢
    rw [hvia.getSentBy]
    exact hhost'
  · unfold getPort at hport' ⊢
    rw [hvia.getSentBy]
    exact hport'
  · rw [hmade]
    exact spared_setBranch hhead htoken hquote addr

end ViaHeader
end SoftPhone
