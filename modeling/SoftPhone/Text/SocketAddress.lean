import SoftPhone.Text.RoundTrip
import SoftPhone.Text.Routes
import SoftPhone.Text.Search

/-!
# Class `SocketAddress`

An address and a port.  `toString` puts an address with a colon in brackets; the constructor with a
string looks at the first character, at dots and at the number of colons.

* `ofString_bracketed`: what is in brackets is the address, whatever it is.
* `ofString_name`: without a colon in the address, the port is behind the only one, with dots or
  without.
-/

namespace SoftPhone

open SipParser
open TextSearch (indexOf indexOf_of_not_mem indexOf_zero indexOf_nonneg_iff)

/-- An IP address: the text that it was made from, or the one that the resolved address has. -/
structure IpAddress where
  address : Option Text
  inetAddress : Option Text

namespace IpAddress

/-- `IpAddress(address)`. -/
def ofText (address : Text) : IpAddress := ⟨some address, none⟩

/-- `toString()`. -/
def toString (ipaddr : IpAddress) : Option Text := ipaddr.address <|> ipaddr.inetAddress

/-- `equals(obj)`.  A text that is `null` has no `equals`, and the exception is caught. -/
def equals (ipaddr obj : IpAddress) : Bool :=
  match ipaddr.toString with
  | none => false
  | some address => obj.toString == some address

end IpAddress

/-- An address, possibly `null`, and a port. -/
structure SocketAddress where
  ipaddr : Option IpAddress
  port : ℤ

namespace SocketAddress

/-- An address with the port behind it. -/
def withPort (addr portText : Text) : Option SocketAddress :=
  (parseInt portText).map fun port => ⟨some (IpAddress.ofText addr), port⟩

/-- An address without port. -/
def withoutPort (addr : Text) : SocketAddress := ⟨some (IpAddress.ofText addr), -1⟩

/-- `SocketAddress(soaddr)`; `none` is an exception. -/
def ofString (soaddr : Text) : Option SocketAddress :=
  let soaddr := trim soaddr
  match soaddr.head? with
  | none => none
  | some first =>
    if first = '[' then
      -- IPv6 address and port number
      let close := indexOf soaddr ']' 0
      if close < 0 then none
      else
        let addr := (soaddr.take close.toNat).drop 1
        let colon := indexOf soaddr ':' (close.toNat + 1)
        if 0 < colon then withPort addr (soaddr.drop (colon.toNat + 1))
        else some (withoutPort addr)
    else if 0 < indexOf soaddr '.' 0 then
      -- IPv4 address
      let colon := indexOf soaddr ':' 0
      if colon < 0 then some (withoutPort soaddr)
      else withPort (soaddr.take colon.toNat) (soaddr.drop (colon.toNat + 1))
    else
      let colon := indexOf soaddr ':' 0
      if 0 ≤ colon then
        -- IPv6 address, no port, or name and port
        if 0 < indexOf soaddr ':' (colon.toNat + 1) then some (withoutPort soaddr)
        else withPort (soaddr.take colon.toNat) (soaddr.drop (colon.toNat + 1))
      else some (withoutPort soaddr)

/-- `equals(obj)`.  The exception for an address that is `null` is caught. -/
def equals (soaddr obj : SocketAddress) : Bool :=
  if soaddr.port ≠ obj.port then false
  else
    match soaddr.ipaddr, obj.ipaddr with
    | some ipaddr, some other => ipaddr.equals other
    | _, _ => false

/-- `toString()`. -/
def toString (soaddr : SocketAddress) : Text :=
  let addr := (soaddr.ipaddr.bind IpAddress.toString).map fun addr =>
    if 0 ≤ indexOf addr ':' 0 then '[' :: (addr ++ [']']) else addr
  addr.getD "null".toList ++ ':' :: valueOf soaddr.port

/-! ## Reading -/

theorem getLast?_append_valueOf (before : Text) (port : ℤ) :
    ∀ c ∈ (before ++ valueOf port).getLast?, ¬c ≤ ' ' := by
  intro c hc
  rw [List.getLast?_append_of_ne_nil _ (valueOf_ne_nil port)] at hc
  have hchar := isChar_valueOf (List.mem_of_mem_getLast? hc)
  rw [isChar, Bool.and_eq_true, decide_eq_true_eq] at hchar
  exact Char.not_le.mpr hchar.1

theorem colon_not_mem_valueOf (port : ℤ) : ':' ∉ valueOf port := by
  intro h
  rw [valueOf_eq] at h
  split at h
  · exact absurd (Nat.isDigit_of_mem_toDigits (by decide) (by decide) h) (by decide)
  · rcases List.mem_cons.mp h with h | h
    · nomatch h
    · exact absurd (Nat.isDigit_of_mem_toDigits (by decide) (by decide) h) (by decide)

/-- **What is in brackets is the address.** -/
theorem ofString_bracketed {addr : Text} (haddr : ']' ∉ addr) (port : ℤ) :
    ofString ('[' :: addr ++ ']' :: ':' :: valueOf port) = withPort addr (valueOf port) := by
  obtain ⟨front, hfront⟩ : ∃ front, front = '[' :: addr := ⟨_, rfl⟩
  have hnot : ']' ∉ front := by
    rw [hfront]
    exact fun h => (List.mem_cons.mp h).elim (by decide) haddr
  have hhead : (front ++ ']' :: ':' :: valueOf port).head? = some '[' := by rw [hfront]; rfl
  have hlen : (front ++ [']']).length = front.length + 1 := by
    rw [List.length_append, List.length_singleton]
  have hsplit : front ++ ']' :: ':' :: valueOf port =
      (front ++ [']']) ++ ([] ++ ':' :: valueOf port) := by
    rw [List.nil_append, List.append_assoc, List.singleton_append]
  have htrim : trim (front ++ ']' :: ':' :: valueOf port) = front ++ ']' :: ':' :: valueOf port := by
    refine trim_eq_self (fun c hc => ?_) fun c hc => ?_
    · rw [hhead] at hc
      obtain rfl := Option.some.inj hc
      decide
    · refine getLast?_append_valueOf (front ++ [']', ':']) port c ?_
      rwa [List.append_assoc]
  have hclose : indexOf (front ++ ']' :: ':' :: valueOf port) ']' 0 = front.length :=
    indexOf_zero hnot
  have hcolon : indexOf (front ++ ']' :: ':' :: valueOf port) ':' (front.length + 1) =
      (front.length + 1 : ℕ) := by
    rw [hsplit, ← hlen]
    exact TextSearch.indexOf_append List.not_mem_nil
  have haddr' : ((front ++ ']' :: ':' :: valueOf port).take front.length).drop 1 = addr := by
    rw [List.take_left, hfront, List.drop_succ_cons, List.drop_zero]
  have hport : (front ++ ']' :: ':' :: valueOf port).drop (front.length + 1 + 1) = valueOf port := by
    rw [Nat.add_assoc, List.drop_length_add_append]
    rfl
  rw [← hfront, ofString, htrim, hhead]
  simp only [if_true, hclose, Int.toNat_natCast]
  rw [if_neg (by omega), hcolon, if_pos (by omega), haddr', Int.toNat_natCast, hport]

/-- **Without a colon in the address, the port is behind the only one**, whether the address has
dots or not. -/
theorem ofString_name {addr : Text} (hne : addr ≠ []) (htrimmed : Trimmed addr)
    (hcolon : ':' ∉ addr) (hopen : '[' ∉ addr) (port : ℤ) :
    ofString (addr ++ ':' :: valueOf port) = withPort addr (valueOf port) := by
  obtain ⟨c, rest, haddr⟩ := List.exists_cons_of_ne_nil hne
  have hhead : (addr ++ ':' :: valueOf port).head? = some c := by rw [haddr]; rfl
  have hc : c ≠ '[' := by
    rintro rfl
    exact hopen (haddr ▸ List.mem_cons_self)
  have hvisible : ' ' < c := htrimmed.head c (by rw [haddr]; rfl)
  have htrim : trim (addr ++ ':' :: valueOf port) = addr ++ ':' :: valueOf port := by
    refine trim_eq_self (fun d hd => ?_) fun d hd => ?_
    · rw [hhead] at hd
      obtain rfl := Option.some.inj hd
      exact Char.not_le.mpr hvisible
    · refine getLast?_append_valueOf (addr ++ [':']) port d ?_
      rwa [List.append_assoc]
  have hfirst : indexOf (addr ++ ':' :: valueOf port) ':' 0 = addr.length := indexOf_zero hcolon
  have hport : (addr ++ ':' :: valueOf port).drop (addr.length + 1) = valueOf port := by
    rw [List.drop_length_add_append]
    rfl
  have hsecond : indexOf (addr ++ ':' :: valueOf port) ':' (addr.length + 1) = -1 := by
    refine indexOf_of_not_mem ?_
    rw [hport]
    exact colon_not_mem_valueOf port
  rw [ofString, htrim, hhead]
  simp only [if_neg hc, hfirst, Int.toNat_natCast, hsecond, List.take_left, hport]
  by_cases hdot : 0 < indexOf (addr ++ ':' :: valueOf port) '.' 0
  · rw [if_pos hdot, if_neg (by omega)]
  · rw [if_neg hdot, if_pos (by omega), if_neg (by omega)]

/-! ## The round trip -/

/-- A number of an address with dots. -/
def dotted (a b c d : Fin 256) : Text :=
  valueOf a.val ++ '.' :: (valueOf b.val ++ '.' :: (valueOf c.val ++ '.' :: valueOf d.val))

/-- What an address may be: a name, four numbers with dots, or a text with colons. -/
inductive IsHost : Text → Prop
  | name {addr : Text} (hne : addr ≠ []) (htrimmed : Trimmed addr) (hcolon : ':' ∉ addr)
      (hopen : '[' ∉ addr) : IsHost addr
  | ipv4 (a b c d : Fin 256) : IsHost (dotted a b c d)
  | ipv6 {addr : Text} (hcolon : ':' ∈ addr) (hclose : ']' ∉ addr) : IsHost addr

theorem mem_dotted {a b c d : Fin 256} {x : Char} (h : x ∈ dotted a b c d) :
    x.isDigit = true ∨ x = '.' := by
  have hdigit (n : Fin 256) (hn : x ∈ valueOf n.val) : x.isDigit = true :=
    isDigit_valueOf (Int.natCast_nonneg _) hn
  rw [dotted, List.mem_append, List.mem_cons, List.mem_append, List.mem_cons, List.mem_append,
    List.mem_cons] at h
  rcases h with h | h | h | h | h | h | h
  · exact .inl (hdigit a h)
  · exact .inr h
  · exact .inl (hdigit b h)
  · exact .inr h
  · exact .inl (hdigit c h)
  · exact .inr h
  · exact .inl (hdigit d h)

/-- Four numbers with dots are a name. -/
theorem IsHost.name_or_ipv6 {addr : Text} (h : IsHost addr) :
    (addr ≠ [] ∧ Trimmed addr ∧ ':' ∉ addr ∧ '[' ∉ addr) ∨ (':' ∈ addr ∧ ']' ∉ addr) := by
  cases h with
  | name hne htrimmed hcolon hopen => exact .inl ⟨hne, htrimmed, hcolon, hopen⟩
  | ipv6 hcolon hclose => exact .inr ⟨hcolon, hclose⟩
  | ipv4 a b c d =>
    have hvisible : ∀ x ∈ dotted a b c d, ¬x ≤ ' ' := by
      intro x hx
      rcases mem_dotted hx with h | rfl
      · have hchar := isChar_of_isDigit h
        rw [isChar, Bool.and_eq_true, decide_eq_true_eq] at hchar
        exact Char.not_le.mpr hchar.1
      · decide
    have hne : dotted a b c d ≠ [] := List.append_ne_nil_of_left_ne_nil (valueOf_ne_nil _) _
    refine .inl ⟨hne, ?_, fun h => ?_, fun h => ?_⟩
    · exact trim_eq_self (fun x hx => hvisible x (List.mem_of_mem_head? hx))
        fun x hx => hvisible x (List.mem_of_mem_getLast? hx)
    · exact (mem_dotted h).elim (by decide) (by decide)
    · exact (mem_dotted h).elim (by decide) (by decide)

/-- What is printed is read as the address and the port. -/
theorem ofString_toString_eq {ipaddr : IpAddress} {addr : Text}
    (hipaddr : ipaddr.toString = some addr) (haddr : IsHost addr) (port : ℤ) :
    ofString (toString ⟨some ipaddr, port⟩) = withPort addr (valueOf port) := by
  rw [toString, Option.bind_some, hipaddr, Option.map_some, Option.getD_some]
  rcases haddr.name_or_ipv6 with ⟨hne, htrimmed, hcolon, hopen⟩ | ⟨hcolon, hclose⟩
  · rw [if_neg (indexOf_nonneg_iff.not.mpr hcolon)]
    exact ofString_name hne htrimmed hcolon hopen port
  · rw [if_pos (indexOf_nonneg_iff.mpr hcolon), ← List.cons_append, List.append_assoc]
    exact ofString_bracketed hclose port

theorem equals_of_toString {ipaddr other : IpAddress} {addr : Text}
    (h : ipaddr.toString = some addr) (h' : other.toString = some addr) :
    ipaddr.equals other = true := by
  rw [IpAddress.equals, h]
  exact beq_iff_eq.mpr h'

/-- **The round trip.** -/
theorem ofString_toString {ipaddr : IpAddress} {addr : Text} (hipaddr : ipaddr.toString = some addr)
    (haddr : IsHost addr) {port : ℤ} (hport : -2147483648 ≤ port ∧ port ≤ 2147483647) :
    ∃ soaddr, ofString (toString ⟨some ipaddr, port⟩) = some soaddr ∧
      soaddr.equals ⟨some ipaddr, port⟩ = true ∧
      soaddr.ipaddr.bind IpAddress.toString = some addr ∧ soaddr.port = port := by
  refine ⟨⟨some (IpAddress.ofText addr), port⟩, ?_, ?_, rfl, rfl⟩
  · rw [ofString_toString_eq hipaddr haddr, withPort, parseInt_valueOf hport, Option.map_some]
  · rw [equals, if_neg (fun h => h rfl)]
    exact equals_of_toString rfl hipaddr

/-- An IPv6 address with dots at its end, and a negative port. -/
theorem ofString_toString_mapped :
    ∃ soaddr, ofString (toString ⟨some (IpAddress.ofText "::ffff:10.0.0.1".toList), -1⟩) =
        some soaddr ∧
      soaddr.equals ⟨some (IpAddress.ofText "::ffff:10.0.0.1".toList), -1⟩ = true ∧
      soaddr.ipaddr.bind IpAddress.toString = some "::ffff:10.0.0.1".toList ∧ soaddr.port = -1 :=
  ofString_toString rfl (.ipv6 (by decide) (by decide)) (by decide)

end SocketAddress
end SoftPhone
