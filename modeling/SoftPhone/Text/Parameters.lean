import SoftPhone.Text.Parser

/-!
# Class `ParametricHeader`

The parameters of a header stand behind its first semicolon, each with a semicolon between it
and the next one.  `getParameter` and `hasParameter` go from one semicolon to the next and
leave out the ones in quotes.  `removeParameter` does not: it stops at every semicolon.

Which semicolon is the first is up to the class: `semi` divides the value there.
-/

namespace SoftPhone

open SipParser

namespace ParametricHeader

/-- `SipParser.getParameter(name)`.  The outer `none` is an index out of range: the parameter
stands at the end of the text and has no value. -/
def findParameter (name : Text) : ℕ → Text → Option (Option Text)
  | 0, _ => some none
  | n + 1, s =>
    if s = [] then some none
    else
      let p := getWord s
      if p.1 = name then
        match skipWSP p.2 with
        | [] => none
        | c :: t => if c = '=' then some (some (getWordSkippingQuoted t)) else some none
      else findParameter name n (goToSkippingQuoted ';' p.2).tail

/-- `SipParser.hasParameter(name)`. -/
def anyParameter (name : Text) : ℕ → Text → Bool
  | 0, _ => false
  | n + 1, s =>
    if s = [] then false
    else
      let p := getWord s
      p.1 == name || anyParameter name n (goToSkippingQuoted ';' p.2).tail

/-- The loop of `removeParameter`: `top` was passed, and `s` begins with a semicolon. -/
def cutParameter (pname : Text) : ℕ → Text → Text → Text
  | 0, top, s => top ++ s
  | n + 1, top, s =>
    if s = [] then top
    else
      let p := getWord s.tail
      if p.1 = pname then top ++ goToSkippingQuoted ';' p.2
      else
        let rest := goTo ';' p.2
        cutParameter pname n (top ++ s.take (s.length - rest.length)) rest

/-- `indexOfFirstSemi`: what stands in front of the first semicolon, and the rest. -/
def firstSemi (value : Text) : Text × Text := spanSkippingQuoted ';' false value

section Semi

variable (semi : Text → Text × Text)

/-- `getParameter(pname)`. -/
def getParameter (pname value : Text) : Option (Option Text) :=
  let s := skipWSP (semi value).2.tail
  findParameter pname s.length s

/-- `hasParameter(pname)`. -/
def hasParameter (pname value : Text) : Bool :=
  let s := skipWSP (semi value).2.tail
  anyParameter pname s.length s

/-- `removeParameter(pname)`. -/
def removeParameter (pname value : Text) : Text :=
  let p := semi value
  cutParameter pname p.2.length p.1 p.2

/-- `setParameter(pname,pvalue)`. -/
def setParameter (pname : Text) (pvalue : Option Text) (value : Text) : Text :=
  let value := if hasParameter semi pname value then removeParameter semi pname value else value
  value ++ ';' :: pname ++
    match pvalue with
    | none => []
    | some v => '=' :: v

end Semi

end ParametricHeader

end SoftPhone
