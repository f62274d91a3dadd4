import Mathlib.Data.List.Forall2
import SoftPhone.Sdp.SdpMessage

/-!
# Class `OfferAnswerModel`

The answer to an offer is made of the media descriptions of the local session.  For each offered
media, the first local one of the same type that is left is taken, with its port and the formats
that both have; an offered media without one is left out.

So the answer fits the offer (`Fits`) if and only if each offered media has its own local one, and
this one has a format of the offer, unless its port is zero (`fits_iff`).
-/

namespace SoftPhone

open SipParser

/-! ## Classes `MediaField` and `AttributeField` -/

namespace SdpField

/-- `MediaField.getMedia`. -/
def getMedia (f : SdpField 'm') : Text := (getString f.value).1

/-- `MediaField.getPort`: what is in front of a slash, if there is one. -/
def getPort (f : SdpField 'm') : Option ℤ :=
  parseInt ((getString (getString f.value).2).1.takeWhile (· != '/'))

/-- `MediaField.getTransport`. -/
def getTransport (f : SdpField 'm') : Text := (getString (getString (getString f.value).2).2).1

/-- The loop of `MediaField.getFormatList`. -/
def formats : ℕ → Text → List Text
  | 0, _ => []
  | n + 1, s =>
    if s = [] then []
    else if (getString s).1 = [] then formats n (getString s).2
    else (getString s).1 :: formats n (getString s).2

/-- `MediaField.getFormatList`. -/
def getFormatList (f : SdpField 'm') : List Text :=
  let rest := (getString (getString (getString f.value).2).2).2
  formats rest.length rest

/-- `MediaField(String,int,int,String,Vector)`. -/
def ofParts (media : Text) (port num : ℤ) (transport : Text) (formatlist : List Text) :
    SdpField 'm' where
  value := media ++ ' ' :: (valueOf port ++ (if 0 < num then '/' :: valueOf num else []) ++
    ' ' :: (transport ++ formatlist.flatMap (' ' :: ·)))

/-- `AttributeField.getAttributeName`. -/
def getAttributeName (f : SdpField 'a') : Text := f.value.takeWhile (· != ':')

/-- `AttributeField.getAttributeValue`; null if there is no colon. -/
def getAttributeValue (f : SdpField 'a') : Option Text :=
  if ':' ∈ f.value then some ((f.value.dropWhile (· != ':')).drop 1) else none

end SdpField

/-- `MediaDescriptor.getAttributes(String)`. -/
def MediaDescriptor.getAttributes (d : MediaDescriptor) (name : Text) : List (SdpField 'a') :=
  d.av.filter (·.getAttributeName = name)

namespace OfferAnswerModel

/-! ## The products -/

/-- The formats of the offer that are in the start as well. -/
def commonFormats (start offer : MediaDescriptor) : List Text :=
  offer.m.getFormatList.filter (start.m.getFormatList.contains ·)

/-- The loop over the attributes: those with a value that starts with the format.  It is none if an
attribute has no value. -/
def startingWith (format : Text) : List (SdpField 'a') → Option (List (SdpField 'a'))
  | [] => some []
  | attr :: attrs => do
    let value ← attr.getAttributeValue
    let rest ← startingWith format attrs
    return if format.isPrefixOf value then attr :: rest else rest

/-- `makeMediaDescriptorProduct(MediaDescriptor,MediaDescriptor)`; none is an exception. -/
def product (start offer : MediaDescriptor) : Option MediaDescriptor := do
  let common := commonFormats start offer
  let attrs ← common.mapM (startingWith · (start.getAttributes "rtpmap".toList))
  let port ← start.m.getPort
  return {
    m := SdpField.ofParts start.m.getMedia port 0 start.m.getTransport common
    av := attrs.flatten }

/-- The first media description of this type, and those that are left. -/
def takeFirst (type : Text) : List MediaDescriptor → Option (MediaDescriptor × List MediaDescriptor)
  | [] => none
  | d :: ds =>
    if d.m.getMedia = type then some (d, ds)
    else (takeFirst type ds).map fun p => (p.1, d :: p.2)

/-- `makeMediaDescriptorProduct(Vector,Vector)`; none is an exception. -/
def makeMediaDescriptorProduct (start : List MediaDescriptor) :
    List MediaDescriptor → Option (List MediaDescriptor)
  | [] => some []
  | offer :: offers =>
    match takeFirst offer.m.getMedia start with
    | none => makeMediaDescriptorProduct start offers
    | some (d, left) => do
      let answer ← product d offer
      let answers ← makeMediaDescriptorProduct left offers
      return answer :: answers

/-- `makeSessionDescriptorProduct`: the copy of the session has its own version field. -/
def makeSessionDescriptorProduct (start offer : SdpMessage) : Option SdpMessage :=
  (makeMediaDescriptorProduct start.media offer.media).map fun media =>
    { start with v := ⟨"0".toList⟩, media := media }

/-! ## What is written is read -/

end OfferAnswerModel

namespace SdpField

/-- Without a token, nothing is left. -/
theorem getString_eq_nil {s : Text} (h : (getString s).1 = []) : (getString s).2 = [] := by
  unfold getString at h ⊢
  dsimp only at h ⊢
  cases hs : s.dropWhile (!isChar ·) with
  | nil => rfl
  | cons c t =>
    have hc : (!isChar c) = false := by
      have hhead := List.head?_dropWhile_not (!isChar ·) s
      rw [hs] at hhead
      simpa using hhead
    rw [hs, List.takeWhile_cons_of_pos (by simpa using hc)] at h
    exact absurd h (List.cons_ne_nil _ _)

/-- The formats are tokens. -/
theorem token_of_mem_formats {n : ℕ} {s f : Text} (h : f ∈ formats n s) :
    f ≠ [] ∧ ∀ c ∈ f, isChar c = true := by
  induction n generalizing s with
  | zero => exact absurd h List.not_mem_nil
  | succ n ih =>
    rw [formats] at h
    split at h
    · exact absurd h List.not_mem_nil
    · split at h
      · exact ih h
      · rename_i hne
        rcases List.mem_cons.mp h with rfl | h
        · exact ⟨hne, fun c hc => isChar_of_mem_getString hc⟩
        · exact ih h

/-- Formats that are written one behind another are read again. -/
theorem formats_flatMap {n : ℕ} {fs : List Text} (hfs : ∀ f ∈ fs, f ≠ [] ∧ ∀ c ∈ f, isChar c = true)
    (hn : fs.length ≤ n) : formats n (fs.flatMap (' ' :: ·)) = fs := by
  induction fs generalizing n with
  | nil =>
    cases n with
    | zero => rfl
    | succ n => rfl
  | cons f fs ih =>
    rw [List.length_cons] at hn
    obtain ⟨n, rfl⟩ : ∃ n', n = n' + 1 := ⟨n - 1, by omega⟩
    obtain ⟨⟨hne, hf⟩, hfs⟩ := List.forall_mem_cons.mp hfs
    have hread : getString ((f :: fs).flatMap (' ' :: ·)) = (f, fs.flatMap (' ' :: ·)) := by
      rw [List.flatMap_cons, List.cons_append, getString_space,
        getString_append hf (not_isChar_words fs) hne]
    rw [formats, if_neg (by simp), hread]
    dsimp only
    rw [if_neg hne, ih hfs (by omega)]

/-- A readable port stands behind a media type. -/
theorem getMedia_ne_nil {f : SdpField 'm'} (h : f.getPort ≠ none) : f.getMedia ≠ [] := by
  intro hnil
  refine h ?_
  unfold getPort
  rw [getString_eq_nil hnil]
  rfl

/-- Formats stand behind a transport. -/
theorem getTransport_ne_nil {f : SdpField 'm'} (h : f.getFormatList ≠ []) : f.getTransport ≠ [] := by
  intro hnil
  refine h ?_
  unfold getFormatList
  dsimp only
  rw [getString_eq_nil hnil]
  rfl

/-- A decimal number has no slash in it. -/
theorem ne_slash_of_mem_valueOf {n : ℤ} {c : Char} (hc : c ∈ valueOf n) : (c != '/') = true := by
  rw [valueOf_eq] at hc
  have hdigit {k : ℕ} (hc : c ∈ Nat.toDigits 10 k) : c ≠ '/' := by
    rintro rfl
    exact absurd (Nat.isDigit_of_mem_toDigits (by decide) (by decide) hc) (by decide)
  split at hc
  · simpa using hdigit hc
  · rcases List.mem_cons.mp hc with rfl | hc
    · decide
    · simpa using hdigit hc

section OfParts

/-- What stands for the port and the number of ports. -/
def portText (port num : ℤ) : Text := valueOf port ++ if 0 < num then '/' :: valueOf num else []

theorem portText_ne_nil (port num : ℤ) : portText port num ≠ [] :=
  List.append_ne_nil_of_left_ne_nil (valueOf_ne_nil port) _

theorem isChar_of_mem_portText {port num : ℤ} {c : Char} (hc : c ∈ portText port num) :
    isChar c = true := by
  rcases List.mem_append.mp hc with hc | hc
  · exact isChar_valueOf hc
  · split at hc
    · rcases List.mem_cons.mp hc with rfl | hc
      · decide
      · exact isChar_valueOf hc
    · exact absurd hc List.not_mem_nil

/-- The port stands in front of the slash. -/
theorem takeWhile_portText (port num : ℤ) :
    (portText port num).takeWhile (· != '/') = valueOf port := by
  rw [portText, List.takeWhile_append_of_pos fun c hc => ne_slash_of_mem_valueOf hc]
  split
  · exact List.append_nil _
  · exact List.append_nil _

variable {media transport : Text} {port num : ℤ} {fs : List Text}
  (hmedia : media ≠ [] ∧ ∀ c ∈ media, isChar c = true)
  (hport : -2147483648 ≤ port ∧ port ≤ 2147483647)

include hmedia

theorem getString_ofParts :
    getString (ofParts media port num transport fs).value =
      (media, ' ' :: (portText port num ++ ' ' :: (transport ++ fs.flatMap (' ' :: ·)))) :=
  getString_append hmedia.2 (not_isChar_space _) hmedia.1

theorem getMedia_ofParts : (ofParts media port num transport fs).getMedia = media := by
  unfold getMedia
  rw [getString_ofParts hmedia]

/-- The port is in the second token. -/
theorem getString_getString_ofParts :
    getString (getString (ofParts media port num transport fs).value).2 =
      (portText port num, ' ' :: (transport ++ fs.flatMap (' ' :: ·))) := by
  rw [getString_ofParts hmedia, getString_space]
  exact getString_append (fun c hc => isChar_of_mem_portText hc) (not_isChar_space _)
    (portText_ne_nil port num)

include hport in
theorem getPort_ofParts : (ofParts media port num transport fs).getPort = some port := by
  unfold getPort
  rw [getString_getString_ofParts hmedia, takeWhile_portText, parseInt_valueOf hport]

theorem getFormatList_ofParts (ht : fs ≠ [] → transport ≠ []) (htc : ∀ c ∈ transport, isChar c = true)
    (hfs : ∀ f ∈ fs, f ≠ [] ∧ ∀ c ∈ f, isChar c = true) :
    (ofParts media port num transport fs).getFormatList = fs := by
  have hrest :
      (getString (getString (getString (ofParts media port num transport fs).value).2).2).2 =
        fs.flatMap (' ' :: ·) := by
    rw [getString_getString_ofParts hmedia, getString_space]
    by_cases hnil : transport = []
    · have hfs : fs = [] := by
        by_contra hne
        exact ht hne hnil
      rw [hnil, hfs]
      rfl
    · rw [getString_append htc (not_isChar_words fs) hnil]
  unfold getFormatList
  dsimp only
  rw [hrest, formats_flatMap hfs (length_le_flatMap_cons ' ' fs)]

end OfParts

end SdpField

namespace OfferAnswerModel

/-! ## One media description -/

/-- The two media descriptions have a format in common. -/
def Common (start offer : MediaDescriptor) : Prop :=
  ∃ f ∈ offer.m.getFormatList, f ∈ start.m.getFormatList

theorem common_iff {start offer : MediaDescriptor} :
    Common start offer ↔ commonFormats start offer ≠ [] := by
  unfold commonFormats Common
  rw [ne_eq, List.filter_eq_nil_iff]
  push Not
  simp only [List.contains_iff_mem]

theorem startingWith_eq_none {format : Text} {attrs : List (SdpField 'a')} :
    startingWith format attrs = none ↔ ∃ attr ∈ attrs, attr.getAttributeValue = none := by
  induction attrs with
  | nil => exact ⟨nofun, fun ⟨attr, hattr, _⟩ => absurd hattr List.not_mem_nil⟩
  | cons attr attrs ih =>
    rw [startingWith]
    cases hvalue : attr.getAttributeValue with
    | none =>
      exact ⟨fun _ => ⟨attr, List.mem_cons_self .., hvalue⟩, fun _ => rfl⟩
    | some value =>
      have hsome : (∃ a ∈ attr :: attrs, a.getAttributeValue = none) ↔
          ∃ a ∈ attrs, a.getAttributeValue = none := by
        simp [hvalue]
      rw [hsome, ← ih]
      cases startingWith format attrs with
      | none => exact ⟨fun _ => rfl, fun _ => rfl⟩
      | some rest => exact ⟨nofun, nofun⟩

/-- The local media description can answer the offered one: its port can be read, each of its rtpmap
attributes has a value if they are looked at, and there is a common format unless the port is zero. -/
structure Usable (start offer : MediaDescriptor) : Prop where
  port : start.m.getPort ≠ none
  values : Common start offer →
    ∀ attr ∈ start.getAttributes "rtpmap".toList, attr.getAttributeValue ≠ none
  common : start.m.getPort ≠ some 0 → Common start offer

theorem mapM_startingWith_eq_none {fs : List Text} {attrs : List (SdpField 'a')} :
    fs.mapM (startingWith · attrs) = none ↔
      fs ≠ [] ∧ ∃ attr ∈ attrs, attr.getAttributeValue = none := by
  induction fs with
  | nil => exact ⟨nofun, fun h => absurd rfl h.1⟩
  | cons f fs ih =>
    rw [List.mapM_cons]
    cases hf : startingWith f attrs with
    | none => exact ⟨fun _ => ⟨List.cons_ne_nil _ _, startingWith_eq_none.mp hf⟩, fun _ => rfl⟩
    | some as =>
      have hvalues : ¬∃ attr ∈ attrs, attr.getAttributeValue = none := fun h => by
        rw [startingWith_eq_none.mpr h] at hf
        exact nomatch hf
      cases hfs : fs.mapM (startingWith · attrs) with
      | none => exact absurd (ih.mp hfs).2 hvalues
      | some ass => exact ⟨nofun, fun h => absurd h.2 hvalues⟩

/-- **What one media description answers**: the type and the port are those of the local one, and
the formats are the common ones. -/
theorem product_spec {start offer answer : MediaDescriptor} (h : product start offer = some answer) :
    answer.m.getMedia = start.m.getMedia ∧ answer.m.getPort = start.m.getPort ∧
      answer.m.getFormatList = commonFormats start offer := by
  obtain ⟨attrs, -, h⟩ := Option.bind_eq_some_iff.mp h
  obtain ⟨port, hport, h⟩ := Option.bind_eq_some_iff.mp h
  rw [← Option.some.inj h]
  have hmedia : start.m.getMedia ≠ [] ∧ ∀ c ∈ start.m.getMedia, isChar c = true := by
    refine ⟨SdpField.getMedia_ne_nil ?_, fun c hc => isChar_of_mem_getString hc⟩
    rw [hport]
    exact nofun
  have hsub : ∀ f ∈ commonFormats start offer, f ∈ start.m.getFormatList := fun f hf => by
    simpa using (List.mem_filter.mp hf).2
  refine ⟨SdpField.getMedia_ofParts hmedia, ?_, SdpField.getFormatList_ofParts hmedia ?_ ?_ ?_⟩
  · rw [hport]
    exact SdpField.getPort_ofParts hmedia (range_parseInt hport)
  · intro hne
    refine SdpField.getTransport_ne_nil fun hnil => hne ?_
    refine List.eq_nil_iff_forall_not_mem.mpr fun f hf => ?_
    have hf' := hsub f hf
    rw [hnil] at hf'
    exact absurd hf' List.not_mem_nil
  · exact fun c hc => isChar_of_mem_getString hc
  · exact fun f hf => SdpField.token_of_mem_formats (List.mem_of_mem_filter hf)

/-- When there is an exception. -/
theorem product_eq_none {start offer : MediaDescriptor} :
    product start offer = none ↔ start.m.getPort = none ∨
      (Common start offer ∧
        ∃ attr ∈ start.getAttributes "rtpmap".toList, attr.getAttributeValue = none) := by
  rw [common_iff, ← mapM_startingWith_eq_none]
  unfold product
  dsimp only
  cases hattrs : (commonFormats start offer).mapM
      (startingWith · (start.getAttributes "rtpmap".toList)) with
  | none => exact ⟨fun _ => .inr rfl, fun _ => rfl⟩
  | some attrs =>
    cases hport : start.m.getPort with
    | none => exact ⟨fun _ => .inl rfl, fun _ => rfl⟩
    | some port => exact ⟨nofun, fun h => h.elim nofun nofun⟩

/-! ## The media descriptions that are left -/

theorem takeFirst_eq_none {type : Text} {ds : List MediaDescriptor} :
    takeFirst type ds = none ↔ ∀ d ∈ ds, d.m.getMedia ≠ type := by
  induction ds with
  | nil => exact ⟨fun _ d hd => absurd hd List.not_mem_nil, fun _ => rfl⟩
  | cons d ds ih =>
    rw [takeFirst, List.forall_mem_cons]
    by_cases hd : d.m.getMedia = type
    · rw [if_pos hd]
      exact ⟨nofun, fun h => absurd hd h.1⟩
    · rw [if_neg hd, Option.map_eq_none_iff, ih]
      exact ⟨fun h => ⟨hd, h⟩, fun h => h.2⟩

theorem takeFirst_eq_some {type : Text} {ds left : List MediaDescriptor} {d : MediaDescriptor}
    (h : takeFirst type ds = some (d, left)) :
    ∃ a b, ds = a ++ d :: b ∧ left = a ++ b ∧ d.m.getMedia = type ∧
      ∀ x ∈ a, x.m.getMedia ≠ type := by
  induction ds generalizing left with
  | nil => exact nomatch h
  | cons x ds ih =>
    rw [takeFirst] at h
    by_cases hx : x.m.getMedia = type
    · rw [if_pos hx] at h
      obtain ⟨rfl, rfl⟩ := Prod.mk.inj (Option.some.inj h)
      exact ⟨[], ds, rfl, rfl, hx, fun y hy => absurd hy List.not_mem_nil⟩
    · rw [if_neg hx] at h
      obtain ⟨p, hp, heq⟩ := Option.map_eq_some_iff.mp h
      obtain ⟨rfl, rfl⟩ := Prod.mk.inj heq
      obtain ⟨a, b, rfl, hleft, hd, ha⟩ := ih hp
      refine ⟨x :: a, b, rfl, ?_, hd, List.forall_mem_cons.mpr ⟨hx, ha⟩⟩
      rw [hleft, List.cons_append]

theorem takeFirst_mem {type : Text} {ds left : List MediaDescriptor} {d : MediaDescriptor}
    (h : takeFirst type ds = some (d, left)) : d ∈ ds ∧ d.m.getMedia = type := by
  obtain ⟨a, b, rfl, -, hd, -⟩ := takeFirst_eq_some h
  exact ⟨List.mem_append_right _ (List.mem_cons_self ..), hd⟩

theorem takeFirst_sub {type : Text} {ds left : List MediaDescriptor} {d : MediaDescriptor}
    (h : takeFirst type ds = some (d, left)) : ∀ x ∈ left, x ∈ ds := by
  obtain ⟨a, b, rfl, rfl, -, -⟩ := takeFirst_eq_some h
  intro x hx
  rcases List.mem_append.mp hx with hx | hx
  · exact List.mem_append_left _ hx
  · exact List.mem_append_right _ (List.mem_cons_of_mem d hx)

/-- The local media description for an offered one: among those of its type, the one at its place. -/
def partner (start before : List MediaDescriptor) (offered : MediaDescriptor) :
    Option MediaDescriptor :=
  (start.filter (·.m.getMedia = offered.m.getMedia))[
    before.countP (·.m.getMedia = offered.m.getMedia)]?

/-- The first offered media description has the first one of its type. -/
theorem partner_nil (start : List MediaDescriptor) (offered : MediaDescriptor) :
    partner start [] offered = (takeFirst offered.m.getMedia start).map Prod.fst := by
  unfold partner
  rw [List.countP_nil]
  cases h : takeFirst offered.m.getMedia start with
  | none =>
    have hnone : start.filter (·.m.getMedia = offered.m.getMedia) = [] :=
      List.filter_eq_nil_iff.mpr fun d hd => by simpa using takeFirst_eq_none.mp h d hd
    rw [hnone]
    rfl
  | some p =>
    obtain ⟨a, b, hstart, -, hd, ha⟩ := takeFirst_eq_some h
    have hnone : a.filter (·.m.getMedia = offered.m.getMedia) = [] :=
      List.filter_eq_nil_iff.mpr fun d hd => by simpa using ha d hd
    rw [hstart, List.filter_append, hnone, List.nil_append,
      List.filter_cons_of_pos (by simpa using hd)]
    rfl

/-- The other ones have what is left. -/
theorem partner_cons {start left before : List MediaDescriptor} {first d : MediaDescriptor}
    (h : takeFirst first.m.getMedia start = some (d, left)) (offered : MediaDescriptor) :
    partner start (first :: before) offered = partner left before offered := by
  obtain ⟨a, b, rfl, rfl, hd, ha⟩ := takeFirst_eq_some h
  unfold partner
  by_cases htype : first.m.getMedia = offered.m.getMedia
  · have hnone : a.filter (·.m.getMedia = offered.m.getMedia) = [] :=
      List.filter_eq_nil_iff.mpr fun x hx => by simpa using htype ▸ ha x hx
    rw [List.countP_cons_of_pos (by simpa using htype), List.filter_append, List.filter_append, hnone,
      List.nil_append, List.nil_append, List.filter_cons_of_pos (by simpa using hd.trans htype),
      List.getElem?_cons_succ]
  · rw [List.countP_cons_of_neg (by simpa using htype), List.filter_append, List.filter_append,
      List.filter_cons_of_neg (by simpa using hd ▸ htype)]

/-! ## The answer -/

/-- The answer to an offered media description: it has the same type, and if its port is not zero,
it has a format that is in the offer and in a local media description of this type. -/
structure Answers (start : List MediaDescriptor) (offer answer : MediaDescriptor) : Prop where
  type : answer.m.getMedia = offer.m.getMedia
  port : answer.m.getPort ≠ some 0 → ∃ f ∈ answer.m.getFormatList, f ∈ offer.m.getFormatList ∧
    ∃ d ∈ start, d.m.getMedia = offer.m.getMedia ∧ f ∈ d.m.getFormatList

/-- There is an answer, with one media description for each offered one, in the same order, that
answers it. -/
def Fits (start offer : SdpMessage) : Prop :=
  ∃ answer, makeSessionDescriptorProduct start offer = some answer ∧
    List.Forall₂ (Answers start.media) offer.media answer.media

/-- No media description is added. -/
theorem length_product_le {start offer answer : List MediaDescriptor}
    (h : makeMediaDescriptorProduct start offer = some answer) : answer.length ≤ offer.length := by
  induction offer generalizing start answer with
  | nil =>
    rw [← Option.some.inj (show some [] = some answer from h)]
  | cons o os ih =>
    rw [makeMediaDescriptorProduct] at h
    cases htake : takeFirst o.m.getMedia start with
    | none =>
      rw [htake] at h
      exact (ih h).trans (by rw [List.length_cons]; omega)
    | some p =>
      rw [htake] at h
      obtain ⟨a, -, h⟩ := Option.bind_eq_some_iff.mp h
      obtain ⟨as, has, h⟩ := Option.bind_eq_some_iff.mp h
      rw [← Option.some.inj (show some (a :: as) = some answer from h), List.length_cons,
        List.length_cons]
      have hle := ih has
      omega

/-- **What is offered one by one, is answered one by one.**  The induction is on the offer; what is
left of the local media descriptions gets less with each round. -/
theorem forall₂_iff {all start offer : List MediaDescriptor} (hall : ∀ d ∈ start, d ∈ all) :
    (∃ answer, makeMediaDescriptorProduct start offer = some answer ∧
        List.Forall₂ (Answers all) offer answer) ↔
      ∀ before offered after, offer = before ++ offered :: after →
        ∃ d, partner start before offered = some d ∧ Usable d offered := by
  induction offer generalizing start with
  | nil =>
    exact ⟨fun _ before offered after h => absurd h.symm (by simp), fun _ => ⟨[], rfl, .nil⟩⟩
  | cons o os ih =>
    constructor
    · rintro ⟨answer, hproduct, hfits⟩
      rw [makeMediaDescriptorProduct] at hproduct
      cases htake : takeFirst o.m.getMedia start with
      | none =>
        -- an offered media description is left out, so there are too few
        rw [htake] at hproduct
        have hle := length_product_le hproduct
        rw [← hfits.length_eq, List.length_cons] at hle
        omega
      | some p =>
        obtain ⟨d, left⟩ := p
        rw [htake] at hproduct
        obtain ⟨a, ha, hproduct⟩ := Option.bind_eq_some_iff.mp hproduct
        obtain ⟨as, has, hproduct⟩ := Option.bind_eq_some_iff.mp hproduct
        rw [← Option.some.inj (show some (a :: as) = some answer from hproduct)] at hfits
        obtain ⟨hone, hrest⟩ := List.forall₂_cons.mp hfits
        have hlater := (ih fun x hx => hall x (takeFirst_sub htake x hx)).mp ⟨as, has, hrest⟩
        obtain ⟨-, hport, hformats⟩ := product_spec ha
        have hnone : ¬product d o = none := by
          rw [ha]
          exact nofun
        rw [product_eq_none, not_or, not_and] at hnone
        have husable : Usable d o := by
          refine ⟨hnone.1, fun hcommon attr hattr hvalue => ?_, fun hzero => ?_⟩
          · exact hnone.2 hcommon ⟨attr, hattr, hvalue⟩
          · rw [← hport] at hzero
            obtain ⟨f, hf, -⟩ := hone.port hzero
            rw [hformats] at hf
            rw [common_iff]
            exact List.ne_nil_of_mem hf
        intro before offered after heq
        cases before with
        | nil =>
          obtain ⟨rfl, rfl⟩ := List.cons.inj heq
          refine ⟨d, ?_, husable⟩
          rw [partner_nil, htake]
          rfl
        | cons first before =>
          obtain ⟨rfl, rfl⟩ := List.cons.inj heq
          rw [partner_cons htake]
          exact hlater before offered after rfl
    · intro h
      obtain ⟨d, hd, husable⟩ := h [] o os rfl
      rw [partner_nil] at hd
      obtain ⟨⟨d, left⟩, htake, rfl⟩ := Option.map_eq_some_iff.mp hd
      obtain ⟨hd, htype⟩ := takeFirst_mem htake
      have hlater : ∀ before offered after, os = before ++ offered :: after →
          ∃ d, partner left before offered = some d ∧ Usable d offered := by
        intro before offered after heq
        rw [← partner_cons htake]
        exact h (o :: before) offered after (by rw [heq, List.cons_append])
      obtain ⟨as, has, hrest⟩ := (ih fun x hx => hall x (takeFirst_sub htake x hx)).mpr hlater
      obtain ⟨a, ha⟩ : ∃ a, product d o = some a := by
        refine Option.ne_none_iff_exists'.mp fun hnone => ?_
        rcases product_eq_none.mp hnone with hport | ⟨hcommon, attr, hattr, hvalue⟩
        · exact husable.port hport
        · exact husable.values hcommon attr hattr hvalue
      obtain ⟨hmedia, hport, hformats⟩ := product_spec ha
      refine ⟨a :: as, ?_, .cons ⟨hmedia.trans htype, fun hzero => ?_⟩ hrest⟩
      · rw [makeMediaDescriptorProduct, htake]
        dsimp only
        rw [ha, has]
        rfl
      · rw [hport] at hzero
        obtain ⟨f, hf, hf'⟩ := husable.common hzero
        refine ⟨f, ?_, hf, d, hall d hd, htype, hf'⟩
        rw [hformats]
        exact List.mem_filter.mpr ⟨hf, by simpa using hf'⟩

/-- **When the answer fits the offer**: each offered media description has its own one in the local
session, and this one is usable. -/
theorem fits_iff (start offer : SdpMessage) :
    Fits start offer ↔ ∀ before offered after, offer.media = before ++ offered :: after →
      ∃ d, partner start.media before offered = some d ∧ Usable d offered := by
  rw [← forall₂_iff fun d hd => hd]
  unfold Fits makeSessionDescriptorProduct
  constructor
  · rintro ⟨answer, hanswer, hfits⟩
    obtain ⟨media, hmedia, rfl⟩ := Option.map_eq_some_iff.mp hanswer
    exact ⟨media, hmedia, hfits⟩
  · rintro ⟨media, hmedia, hfits⟩
    exact ⟨_, Option.map_eq_some_iff.mpr ⟨media, hmedia, rfl⟩, hfits⟩

/-- A session with these media fields. -/
def session (media : List String) : SdpMessage where
  v := ⟨"0".toList⟩
  o := ⟨"- 0 0 IN IP4 h".toList⟩
  s := ⟨"-".toList⟩
  c := ⟨"IN IP4 h".toList⟩
  tv := [{ t := ⟨"0 0".toList⟩ }]
  media := media.map fun m => { m := ⟨m.toList⟩ }

/-- **A video that is not there locally** is left out of the answer, and **an audio without a common
format** has the local port. -/
theorem not_fits_dropped :
    makeSessionDescriptorProduct (session ["audio 4000 RTP/AVP 0"])
        (session ["audio 6000 RTP/AVP 8", "video 6002 RTP/AVP 31"]) =
      some (session ["audio 4000 RTP/AVP"]) ∧
    ¬Fits (session ["audio 4000 RTP/AVP 0"])
        (session ["audio 6000 RTP/AVP 8", "video 6002 RTP/AVP 31"]) := by
  have hanswer : makeSessionDescriptorProduct (session ["audio 4000 RTP/AVP 0"])
      (session ["audio 6000 RTP/AVP 8", "video 6002 RTP/AVP 31"]) =
      some (session ["audio 4000 RTP/AVP"]) := by decide +kernel
  refine ⟨hanswer, ?_⟩
  rintro ⟨answer, hsome, hfits⟩
  rw [hanswer] at hsome
  rw [← Option.some.inj hsome] at hfits
  exact absurd hfits.length_eq (by decide)

end OfferAnswerModel

end SoftPhone
