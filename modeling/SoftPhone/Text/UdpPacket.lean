import SoftPhone.Text.Buffer

/-!
# Class `UdpPacket`

A datagram is received into an array that is used again and again, so what stands behind the
datagram is left over from earlier ones.  The header section is looked for within the length of
the packet, and the body is copied out of the array, however long the packet is.

The message depends on nothing but the datagram if and only if no Content-Length is greater than
what follows the header section (`setMessage_congr_iff`).
-/

namespace SoftPhone

open SipParser BasicSipMessage

/-- Class `UdpPacket`: some bytes of an array. -/
structure UdpPacket where
  data : List UInt8
  offset : ℕ
  length : ℕ
  le : offset + length ≤ data.length

namespace UdpPacket

/-- The bytes of the packet. -/
def bytes (p : UdpPacket) : List UInt8 := (p.data.drop p.offset).take p.length

/-- `setMessage(buf,off,len)`, of a new message, with the data, the offset and the length of a
packet. -/
def setMessage (charset : Charset) (p : UdpPacket) : Option (BasicSipMessage × ℤ) := do
  let q ← parseHeaders charset p.bytes
  let bodyLen ← q.2.bodyLength (p.length - q.1)
  let body ← copyBody (p.data.drop (p.offset + q.1)) bodyLen
  some ({ q.2 with body := body }, q.1 + bodyLen)

/-- `receive`, of a `UdpProvider`: the datagram is put in front of what is in the array. -/
def receive (datagram buf : List UInt8) : UdpPacket where
  data := datagram ++ buf.drop datagram.length
  offset := 0
  length := datagram.length
  le := by
    rw [List.length_append]
    omega

@[simp] theorem bytes_receive (datagram buf : List UInt8) :
    (receive datagram buf).bytes = datagram := by
  show (List.drop 0 (datagram ++ _)).take datagram.length = datagram
  rw [List.drop_zero, List.take_left]

theorem length_bytes (p : UdpPacket) : p.bytes.length = p.length := by
  have hle := p.le
  unfold bytes
  rw [List.length_take, List.length_drop]
  omega

/-- A part of the packet, in the array. -/
theorem take_drop_data (p : UdpPacket) {n k : ℕ} (h : n + k ≤ p.length) :
    (p.data.drop (p.offset + n)).take k = (p.bytes.drop n).take k := by
  unfold bytes
  rw [List.drop_take, List.take_take, List.drop_drop, Nat.min_eq_left (by omega)]

/-! ## The length of the body -/

/-- No Content-Length is greater than what follows the header section. -/
def Encloses (charset : Charset) (bytes : List UInt8) : Prop :=
  ∀ q ∈ parseHeaders charset bytes, ∀ clh ∈ q.2.getHeader SipHeaders.contentLength,
    ∀ n ∈ getInt clh.value, (q.1 : ℤ) + n ≤ bytes.length

instance (charset : Charset) (bytes : List UInt8) : Decidable (Encloses charset bytes) :=
  inferInstanceAs (Decidable (∀ q ∈ parseHeaders charset bytes, _))

/-- The header section is within the bytes. -/
theorem le_of_parseHeaders {charset : Charset} {bytes : List UInt8} {q : ℕ × BasicSipMessage}
    (h : parseHeaders charset bytes = some q) : q.1 ≤ bytes.length := by
  simp only [parseHeaders, Option.bind_eq_bind, Option.bind_eq_some_iff] at h
  obtain ⟨i, hi, p, -, heq⟩ := h
  obtain rfl := Option.some.inj heq
  exact (range_headerLength hi).2

section Body

variable {charset : Charset} {bytes : List UInt8} {q : ℕ × BasicSipMessage} {n : ℤ}

/-- Only a Content-Length makes the body longer than what follows. -/
theorem Encloses.le (h : Encloses charset bytes) (hq : parseHeaders charset bytes = some q)
    (hn : q.2.bodyLength (bytes.length - q.1) = some n) : (q.1 : ℤ) + n ≤ bytes.length := by
  have hle := le_of_parseHeaders hq
  unfold bodyLength at hn
  split at hn
  · rename_i clh hclh
    exact h q hq clh hclh n hn
  · split at hn
    · have hn := Option.some.inj hn
      omega
    · have hn := Option.some.inj hn
      omega

/-- **A body within the packet is copied from the packet.** -/
theorem copyBody_congr {p : UdpPacket} {m : ℕ} (hm : m ≤ p.length) (hn : (m : ℤ) + n ≤ p.length) :
    copyBody (p.data.drop (p.offset + m)) n = copyBody (p.bytes.drop m) n := by
  have hle := p.le
  unfold copyBody
  by_cases hpos : 0 < n
  · rw [if_pos hpos, if_pos hpos, if_pos, if_pos, take_drop_data p (by omega)]
    · rw [List.length_drop, length_bytes]
      omega
    · rw [List.length_drop]
      omega
  · rw [if_neg hpos, if_neg hpos]

end Body

/-- **A message that is enclosed in the packet is read as from the bytes alone.** -/
theorem setMessage_eq_bytes {charset : Charset} {p : UdpPacket} (h : Encloses charset p.bytes) :
    p.setMessage charset = BasicSipMessage.setMessage charset p.bytes := by
  unfold UdpPacket.setMessage BasicSipMessage.setMessage
  simp only [Option.bind_eq_bind]
  cases hq : parseHeaders charset p.bytes with
  | none => rfl
  | some q =>
    rw [Option.bind_some, Option.bind_some, length_bytes]
    cases hn : q.2.bodyLength (p.length - q.1) with
    | none => rfl
    | some n =>
      have hm := le_of_parseHeaders hq
      rw [length_bytes] at hm
      have hle := h.le (n := n) hq (by rw [length_bytes]; exact hn)
      rw [length_bytes] at hle
      rw [Option.bind_some, Option.bind_some, copyBody_congr hm hle]

/-- **Where the datagram stands in the array does not matter.** -/
theorem setMessage_receive {charset : Charset} {datagram : List UInt8} (buf : List UInt8)
    (h : Encloses charset datagram) :
    (receive datagram buf).setMessage charset = BasicSipMessage.setMessage charset datagram := by
  rw [setMessage_eq_bytes (by rw [bytes_receive]; exact h), bytes_receive]

/-- A body that goes on behind the packet: there is no message if nothing follows, and there is
one if enough follows. -/
theorem setMessage_beyond {charset : Charset} {datagram : List UInt8} {q : ℕ × BasicSipMessage}
    {n : ℤ} (hq : parseHeaders charset datagram = some q)
    (hn : q.2.bodyLength (datagram.length - q.1) = some n) (hlt : datagram.length < (q.1 : ℤ) + n) :
    (receive datagram []).setMessage charset = none ∧
      ∀ buf : List UInt8, (q.1 : ℤ) + n ≤ buf.length →
        (receive datagram buf).setMessage charset ≠ none := by
  have hm := le_of_parseHeaders hq
  have hread (buf : List UInt8) : (receive datagram buf).setMessage charset =
      (copyBody ((datagram ++ buf.drop datagram.length).drop q.1) n).map fun body =>
        ({ q.2 with body := body }, q.1 + n) := by
    unfold UdpPacket.setMessage
    simp only [Option.bind_eq_bind, bytes_receive, hq, Option.bind_some]
    show (q.2.bodyLength (datagram.length - q.1)).bind _ = _
    rw [hn, Option.bind_some]
    show (copyBody ((datagram ++ buf.drop datagram.length).drop (0 + q.1)) n).bind _ = _
    rw [Nat.zero_add]
    cases copyBody ((datagram ++ buf.drop datagram.length).drop q.1) n <;> rfl
  refine ⟨?_, fun buf hbuf => ?_⟩
  · rw [hread]
    unfold copyBody
    rw [if_pos (by omega), if_neg]
    · rfl
    · rw [List.drop_nil, List.append_nil, List.length_drop]
      omega
  · rw [hread]
    unfold copyBody
    rw [if_pos (by omega), if_pos]
    · exact nofun
    · rw [List.length_drop, List.length_append, List.length_drop]
      omega

/-- **What is left over in the array never gets into a message if and only if no Content-Length is
greater than what follows the header section.** -/
theorem setMessage_congr_iff (charset : Charset) (bytes : List UInt8) :
    (∀ p p' : UdpPacket, p.bytes = bytes → p'.bytes = bytes →
        p.setMessage charset = p'.setMessage charset) ↔
      Encloses charset bytes := by
  constructor
  · intro hsame q hq clh hclh n hn
    by_contra hgt
    have hlength : q.2.bodyLength (bytes.length - q.1) = some n := by
      unfold bodyLength
      rw [Option.mem_def.mp hclh]
      exact hn
    obtain ⟨hnone, hsome⟩ := setMessage_beyond (Option.mem_def.mp hq) hlength (by omega)
    refine hsome (List.replicate (q.1 + n).toNat 0) ?_ ?_
    · rw [List.length_replicate]
      omega
    · rw [hsame _ (receive bytes []) (bytes_receive ..) (bytes_receive ..), hnone]
  · rintro h p p' hp hp'
    rw [setMessage_eq_bytes (hp.symm ▸ h), setMessage_eq_bytes (hp'.symm ▸ h), hp, hp']

/-- A MESSAGE with this Content-Length. -/
def messageText (length body : String) : List UInt8 :=
  Charset.latin1.encode ("MESSAGE sip:a@h SIP/2.0\r\nContent-Length: ".toList ++ length.toList ++
    "\r\n\r\n".toList ++ body.toList)

/-- **The body of another message**: a message that says it is longer than its datagram gets the
rest of the one that has been received before, and after a message without such a rest it is not
read. -/
theorem body_leftOver :
    let before := (receive (messageText "6" "secret") []).data
    let p := receive (messageText "6" "") before
    let p' := receive (messageText "6" "") []
    p.bytes = p'.bytes ∧
      (p.setMessage .latin1).map (fun r => r.1.body) =
        some (some (Charset.latin1.encode "secret".toList)) ∧
      p'.setMessage .latin1 = none := by
  decide +kernel

end UdpPacket

end SoftPhone
