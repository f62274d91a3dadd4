import SoftPhone.Text.Factory
import SoftPhone.Text.Received

/-!
# Where a response is sent to

`SipProvider.sendMessage` takes the destination of a response from its top Via.  The address is
the parameter received, or the host of the sent-by.  The port is the parameter rport, or the one
of the sent-by, or the default port; the parameter maddr is not read.  Host and port of the
sent-by go through the text of a `SipURI`, which gives them back (`SipURI.getHost_ofHost`,
`SipURI.getPort_ofHost`).
-/

namespace SoftPhone

open SipParser

namespace ViaHeader

open ParametricHeader

/-- `hasReceived`. -/
def hasReceived (value : Text) : Bool := hasParameter firstSemi receivedParam value

/-- `getReceived`; the outer `none` is an index out of range. -/
def getReceived (value : Text) : Option (Option Text) := getParameter firstSemi receivedParam value

/-- `getRport`; `none` is an index out of range or a number format exception. -/
def getRport (value : Text) : Option ℤ :=
  (getParameter firstSemi rportParam value).bind fun rport =>
    match rport with
    | none => some (-1)
    | some rport => parseInt rport

end ViaHeader

namespace SipURI

/-- `new SipURI(hostname,portnumber)`. -/
def ofHost (hostname : Text) (portnumber : ℤ) : Text :=
  "sip:".toList ++ hostname ++ if portnumber > 0 then ':' :: valueOf portnumber else []

/-- The characters that end the host. -/
def isHostTerminator (c : Char) : Bool := [':', ';', '?'].contains c

/-- `getHost`. -/
def getHost (uri : Text) : Text :=
  let s := if '@' ∈ uri then goTo '@' uri else goTo ':' uri
  s.tail.takeWhile (!isHostTerminator ·)

/-- `getPort`; `none` is a number format exception. -/
def getPort (uri : Text) : Option ℤ :=
  match goTo ':' (goTo ':' uri).tail with
  | [] => some (-1)
  | _ :: s => parseInt (s.takeWhile fun c => c != ';' && c != '?')

theorem goTo_ofHost (host : Text) (port : ℤ) :
    (goTo ':' (ofHost host port)).tail = host ++ if port > 0 then ':' :: valueOf port else [] := rfl

/-- What stands behind the host begins with a colon. -/
theorem head_port {port : ℤ} {c : Char}
    (hc : c ∈ (if port > 0 then ':' :: valueOf port else []).head?) : c = ':' := by
  by_cases hport : port > 0
  · rw [if_pos hport] at hc
    exact (Option.some.inj hc).symm
  · rw [if_neg hport] at hc
    exact absurd hc (by simp)

section OfHost

variable {host : Text} {port : ℤ} (hhost : ∀ c ∈ host, isHostTerminator c = false)

include hhost

theorem getHost_ofHost (hat : '@' ∉ host) : getHost (ofHost host port) = host := by
  have hnot : '@' ∉ ofHost host port := by
    unfold ofHost
    rw [List.append_assoc, List.mem_append, List.mem_append, not_or, not_or]
    refine ⟨by decide, hat, fun h => ?_⟩
    by_cases hport : port > 0
    · rw [if_pos hport] at h
      rcases List.mem_cons.mp h with h | h
      · exact absurd h (by decide)
      · exact absurd (isDigit_valueOf (by omega) h) (by decide)
    · rw [if_neg hport] at h
      exact absurd h (by simp)
  unfold getHost
  rw [if_neg hnot]
  show List.takeWhile _ (goTo ':' (ofHost host port)).tail = host
  rw [goTo_ofHost]
  refine (takeWhile_run (fun c hc => ?_) fun c hc => ?_).1
  · simp [hhost c hc]
  · rw [head_port hc]
    decide

theorem getPort_ofHost (hrange : port ≤ 2147483647) :
    getPort (ofHost host port) = some (if port > 0 then port else -1) := by
  have hcolon : goTo ':' (goTo ':' (ofHost host port)).tail =
      if port > 0 then ':' :: valueOf port else [] := by
    rw [goTo_ofHost]
    refine (takeWhile_run (fun c hc => ?_) fun c hc => ?_).2
    · rw [bne_iff_ne]
      rintro rfl
      exact absurd (hhost ':' hc) (by decide)
    · rw [head_port hc]
      decide
  unfold getPort
  rw [hcolon]
  by_cases hport : port > 0
  · rw [if_pos hport, if_pos hport]
    show parseInt (List.takeWhile _ (valueOf port)) = _
    rw [List.takeWhile_eq_self_iff.mpr fun c hc => ?_]
    · exact parseInt_valueOf ⟨by omega, hrange⟩
    · have hdigit := isDigit_valueOf (by omega) hc
      rw [Bool.and_eq_true, bne_iff_ne, bne_iff_ne]
      constructor <;>
      · rintro rfl
        exact absurd hdigit (by decide)
  · rw [if_neg hport, if_neg hport]

end OfHost

end SipURI

/-! ## `sendMessage` -/

/-- `isSecureTransport`. -/
def isSecureTransport (proto : Text) : Bool :=
  equalsIgnoreCase proto "tls".toList || equalsIgnoreCase proto "dtls".toList

/-- The port of a transport, when none is given. -/
def defaultPortOf (proto : Text) : ℤ :=
  if isSecureTransport proto then ViaHeader.defaultPort + 1 else ViaHeader.defaultPort

/-- `dest_addr`, for the top Via of a response and its `SipURI`; the address may be null. -/
def destAddr (via uri : Text) : Option (Option Text) :=
  if ViaHeader.hasReceived via then ViaHeader.getReceived via else some (some (SipURI.getHost uri))

/-- `dest_port`, as long as the default port is not taken. -/
def destPort (via uri : Text) : Option ℤ :=
  (if ViaHeader.hasRport via then ViaHeader.getRport via else some 0).bind fun port =>
    if port ≤ 0 then SipURI.getPort uri else some port

/-- `SipProvider.sendMessage`, the destination for the top Via of a response; `none` is an
exception. -/
def viaDestination (via : Text) : Option (Option Text × ℤ) :=
  (ViaHeader.getHost via).bind fun host =>
    (ViaHeader.getPort via).bind fun port =>
      let uri := SipURI.ofHost host port
      (destAddr via uri).bind fun addr =>
        (destPort via uri).map fun port =>
          (addr, if port ≤ 0 then defaultPortOf (ViaHeader.getProtocol via) else port)

namespace BasicSipMessage

/-- `SipProvider.sendMessage`, the destination of a response. -/
def responseDestination (msg : BasicSipMessage) : Option (Option Text × ℤ) :=
  msg.getViaHeader.bind viaDestination

end BasicSipMessage

namespace ViaHeader

/-- The port of the sent-by, or the default port. -/
def sentByPort (via : Text) : Option ℤ :=
  (getPort via).map fun port => if port ≤ 0 then defaultPortOf (getProtocol via) else port

/-- The number that rport stands for is taken, unless it is not positive. -/
def rportOr (rport port : ℤ) : ℤ := if rport ≤ 0 then port else rport

/-- The host of the sent-by is a part of it that no separator and no colon is in. -/
theorem isHostTerminator_getHost {v host : Text} (h : getHost v = some host) :
    ∀ c ∈ host, SipURI.isHostTerminator c = false := by
  obtain ⟨hsep, hcolon⟩ := host_chars h
  intro c hc
  have hne : c ≠ ':' ∧ c ≠ ';' ∧ c ≠ '?' := by
    refine ⟨?_, ?_, ?_⟩ <;> rintro rfl
    · exact hcolon hc
    · exact absurd (hsep ';' hc) (by decide)
    · exact absurd (hsep '?' hc) (by decide)
  simp [SipURI.isHostTerminator, hne]

/-- **The destination**: the sent-by, where received and rport do not say something else. -/
theorem viaDestination_eq {via host : Text} {port : ℤ} (hhost : getHost via = some host)
    (hat : '@' ∉ host) (hport : sentByPort via = some port) :
    viaDestination via =
      (if hasReceived via then getReceived via else some (some host)).bind fun destAddr =>
        (if hasRport via then getRport via else some 0).map fun rport =>
          (destAddr, rportOr rport port) := by
  obtain ⟨sentBy, hsentBy, hport⟩ := Option.map_eq_some_iff.mp hport
  have hterm := isHostTerminator_getHost hhost
  have hrange := range_getPort hsentBy
  unfold viaDestination destAddr destPort
  rw [hhost, Option.bind_some, hsentBy, Option.bind_some]
  dsimp only
  rw [SipURI.getHost_ofHost hterm hat, SipURI.getPort_ofHost hterm hrange.2]
  refine congrArg (Option.bind _) (funext fun destAddr => ?_)
  generalize (if hasRport via = true then getRport via else some 0) = rport
  cases rport with
  | none => rfl
  | some rport =>
    rw [Option.bind_some, Option.map_some, ← hport]
    unfold rportOr
    by_cases hrport : rport ≤ 0
    · rw [if_pos hrport, if_pos hrport]
      by_cases hpos : sentBy ≤ 0
      · rw [if_pos hpos, if_neg (by omega)]
        rfl
      · rw [if_neg hpos, if_pos (by omega), Option.map_some, if_neg hpos]
    · rw [if_neg hrport, if_neg hrport, Option.map_some, if_neg hrport]

end ViaHeader
end SoftPhone
