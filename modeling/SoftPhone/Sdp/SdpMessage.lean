import SoftPhone.Text.Parser

/-!
# Classes `SdpMessage`, `MediaDescriptor` and `SdpParser`

A session description is a text of lines, each with a type and a value: the session first, and
then one section for each media.  `SdpMessage(String)` looks for the fields of the session one
type after another, each from where the last one was found, and then for the media.

A parser is what is left of the text.  A method that finds nothing leaves it as it is.
-/

namespace SoftPhone

open SipParser

/-- Class `SdpField`.  The subclasses `OriginField`, `ConnectionField`, ... have their type. -/
structure SdpField (type : Char) where
  value : Text
  deriving DecidableEq, Repr

/-- `toString`. -/
def SdpField.text {type : Char} (f : SdpField type) : Text :=
  type :: '=' :: (f.value ++ "\r\n".toList)

/-- Class `TimeDescription`. -/
structure TimeDescription where
  t : SdpField 't'
  rv : List (SdpField 'r') := []
  deriving DecidableEq, Repr

/-- Class `MediaDescriptor`. -/
structure MediaDescriptor where
  m : SdpField 'm'
  c : Option (SdpField 'c') := none
  av : List (SdpField 'a') := []
  deriving DecidableEq, Repr

/-- Class `SdpMessage`; an array of fields that is null is empty. -/
structure SdpMessage where
  v : SdpField 'v'
  o : SdpField 'o'
  s : SdpField 's'
  i : Option (SdpField 'i') := none
  u : Option (SdpField 'u') := none
  e : Option (SdpField 'e') := none
  p : Option (SdpField 'p') := none
  c : SdpField 'c'
  bv : List (SdpField 'b') := []
  tv : List TimeDescription
  z : Option (SdpField 'z') := none
  k : Option (SdpField 'k') := none
  av : List (SdpField 'a') := []
  media : List MediaDescriptor := []
  deriving DecidableEq, Repr

/-! ## Writing -/

/-- `toString`. -/
def TimeDescription.text (d : TimeDescription) : Text := d.t.text ++ d.rv.flatMap SdpField.text

/-- The text of a field that may be null. -/
def optionText {type : Char} (f : Option (SdpField type)) : Text := f.toList.flatMap SdpField.text

/-- `toString`. -/
def MediaDescriptor.text (d : MediaDescriptor) : Text :=
  d.m.text ++ optionText d.c ++ d.av.flatMap SdpField.text

/-- `toString`. -/
def SdpMessage.text (m : SdpMessage) : Text :=
  m.v.text ++ m.o.text ++ m.s.text ++ optionText m.i ++ optionText m.u ++ optionText m.e ++
    optionText m.p ++ m.c.text ++ m.bv.flatMap SdpField.text ++ m.tv.flatMap TimeDescription.text ++
    optionText m.z ++ optionText m.k ++ m.av.flatMap SdpField.text ++
    m.media.flatMap MediaDescriptor.text

/-! ## Class `SdpParser` -/

namespace SdpParser

/-- `startsWith(type+"=")`. -/
def startsField (type : Char) : Text → Bool
  | c :: '=' :: _ => c == type
  | _ => false

/-- What follows the first `"\n"+type+"="`. -/
def afterField (type : Char) : Text → Option Text
  | [] => none
  | c :: s => if c = '\n' ∧ startsField type s then some (s.drop 2) else afterField type s

/-- `parseSdpField(type)`, and what is left. -/
def parseSdpField (type : Char) (s : Text) : Option (SdpField type) × Text :=
  match if startsField type s then some (s.drop 2) else afterField type s with
  | none => (none, s)
  | some s => (some ⟨trim (s.takeWhile (!isCRLF ·))⟩, goToNextLine s)

/-- The loop that parses fields of a type until there is none. -/
def parseSdpFields (type : Char) : ℕ → Text → List (SdpField type) × Text
  | 0, s => ([], s)
  | n + 1, s =>
    match parseSdpField type s with
    | (none, s) => ([], s)
    | (some f, s) => (f :: (parseSdpFields type n s).1, (parseSdpFields type n s).2)

/-- The loop of `SdpMessage(String)` that parses attributes as long as the next line is one. -/
def parseAttributes : ℕ → Text → List (SdpField 'a') × Text
  | 0, s => ([], s)
  | n + 1, s =>
    if startsField 'a' s then
      match parseSdpField 'a' s with
      | (none, s) => ([], s)
      | (some f, s) => (f :: (parseAttributes n s).1, (parseAttributes n s).2)
    else ([], s)

/-- The text up to the first `"\nm"`, and what is left. -/
def cutMedia : Text → Text × Text
  | [] => ([], [])
  | c :: s =>
    if c = '\n' ∧ s.head? = some 'm' then (['\n'], s) else (c :: (cutMedia s).1, (cutMedia s).2)

/-- What follows the media field, and what is left. -/
def mediaDescriptor (m : SdpField 'm') (s : Text) : MediaDescriptor :=
  let c := parseSdpField 'c' s
  { m := m, c := c.1, av := (parseSdpFields 'a' c.2.length c.2).1 }

/-- `parseMediaDescriptor()`, and what is left. -/
def parseMediaDescriptor (s : Text) : Option MediaDescriptor × Text :=
  match parseSdpField 'm' s with
  | (none, s) => (none, s)
  | (some m, s) => (some (mediaDescriptor m (cutMedia s).1), (cutMedia s).2)

/-- The loop that parses media descriptions until there is none. -/
def parseMediaDescriptors : ℕ → Text → List MediaDescriptor
  | 0, _ => []
  | n + 1, s =>
    match parseMediaDescriptor s with
    | (none, _) => []
    | (some d, s) => d :: parseMediaDescriptors n s

end SdpParser

open SdpParser in
/-- `SdpMessage(String)`. -/
def SdpMessage.ofText (sdp : Text) : SdpMessage :=
  let v := parseSdpField 'v' sdp
  let o := parseSdpField 'o' v.2
  let s := parseSdpField 's' o.2
  let i := parseSdpField 'i' s.2
  let u := parseSdpField 'u' i.2
  let e := parseSdpField 'e' u.2
  let p := parseSdpField 'p' e.2
  let c := parseSdpField 'c' p.2
  let b := parseSdpFields 'b' c.2.length c.2
  let t := parseSdpFields 't' b.2.length b.2
  let z := parseSdpField 'z' t.2
  let k := parseSdpField 'k' z.2
  let a := parseAttributes k.2.length k.2
  { v := v.1.getD ⟨"0".toList⟩
    o := o.1.getD ⟨"unknown".toList⟩
    s := s.1.getD ⟨"-".toList⟩
    i := i.1
    u := u.1
    e := e.1
    p := p.1
    c := c.1.getD ⟨"IN IP4 0.0.0.0".toList⟩
    bv := b.1
    tv := t.1.map fun t => { t := t }
    z := z.1
    k := k.1
    av := a.1
    media := parseMediaDescriptors a.2.length a.2 }

end SoftPhone
