import SoftPhone.Text.SipMessage

/-!
# Classes `SipMessageBuffer` and `TcpTransportConnection`

A connection puts what it receives into a buffer, and takes messages out of it until there is no
complete one left.  `parses` are the messages that were taken out, with the buffer before and
behind.

Every message takes out some of the bytes, at least one, and leaves the rest, if and only if no
Content-Length is so negative that the message is not longer than nothing (`receiveAll_progress`).
With such a length the same bytes are read again and again (`negativeLength_running`).
-/

namespace SoftPhone

open SipParser BasicSipMessage

/-- Class `SipMessageBuffer`. -/
structure SipMessageBuffer where
  buffer : Option (List UInt8) := none
  offset : ℤ := 0
  deriving DecidableEq, Repr

namespace SipMessageBuffer

/-- `getLength`. -/
def getLength (b : SipMessageBuffer) : ℤ :=
  match b.buffer with
  | none => 0
  | some data => data.length - b.offset

/-- `byteAt(i)`; `none` is an index out of range or a null pointer. -/
def byteAt (i : ℤ) (b : SipMessageBuffer) : Option UInt8 :=
  b.buffer.bind fun data => if 0 ≤ b.offset + i then data[(b.offset + i).toNat]? else none

/-- `skip(n)`; `none` is the exception for a buffer that is exceeded. -/
def skip (n : ℤ) (b : SipMessageBuffer) : Option SipMessageBuffer :=
  match b.buffer with
  | none => none
  | some data => if b.offset + n > data.length then none else some { b with offset := b.offset + n }

/-- `append(data)`; `none` is an index out of range. -/
def append (new : List UInt8) (b : SipMessageBuffer) : Option SipMessageBuffer :=
  match b.buffer with
  | none => some ⟨some new, 0⟩
  | some data =>
    if 0 ≤ b.offset ∧ b.offset ≤ data.length then
      some ⟨some (data.drop b.offset.toNat ++ new), 0⟩
    else none

/-- `parseSipMessage`; `none` is an exception, after which the buffer is as before. -/
def parseSipMessage (charset : Charset) (b : SipMessageBuffer) :
    Option (BasicSipMessage × SipMessageBuffer) :=
  b.buffer.bind fun data =>
    if 0 ≤ b.offset ∧ b.offset ≤ data.length then
      (setMessage charset (data.drop b.offset.toNat)).map fun p =>
        (p.1, { b with offset := b.offset + p.2 })
    else none

end SipMessageBuffer

/-! ## The receive loop -/

/-- A message that was taken out of the buffer. -/
structure Parse where
  before : SipMessageBuffer
  message : BasicSipMessage
  after : SipMessageBuffer

/-- How far a connection has got: the loop has ended, has failed with an exception, or goes on. -/
inductive LoopState where
  | ended
  | failed
  | running
  deriving DecidableEq, Repr

/-- What a connection has done with what it has received. -/
structure Received where
  parses : List Parse
  buffer : SipMessageBuffer
  state : LoopState

namespace TcpTransportConnection

/-- The loop of `getSipMessage` that skips leading CR and LF; `none` is an exception. -/
def skipCRLF : ℕ → SipMessageBuffer → Option SipMessageBuffer
  | 0, b => some b
  | n + 1, b =>
    if 0 < b.getLength then
      (b.byteAt 0).bind fun byte =>
        if byte = 13 ∨ byte = 10 then (b.skip 1).bind (skipCRLF n) else some b
    else some b

section Charset

variable (charset : Charset)

/-- The loop of `processReceivedData`, so many times at most. -/
def receiveLoop : ℕ → SipMessageBuffer → Received
  | 0, b => ⟨[], b, .running⟩
  | n + 1, b =>
    match skipCRLF b.getLength.toNat b with
    | none => ⟨[], b, .failed⟩
    | some b =>
      match b.parseSipMessage charset with
      | none => ⟨[], b, .ended⟩
      | some (message, after) =>
        let r := receiveLoop n after
        { r with parses := ⟨b, message, after⟩ :: r.parses }

/-- `processReceivedData`, for one chunk after the other; an exception ends the connection. -/
def receiveAll (n : ℕ) : List (List UInt8) → SipMessageBuffer → Received
  | [], b => ⟨[], b, .ended⟩
  | chunk :: chunks, b =>
    match b.append chunk with
    | none => ⟨[], b, .failed⟩
    | some b =>
      let r := receiveLoop charset n b
      match r.state with
      | .ended =>
        let r' := receiveAll n chunks r.buffer
        { r' with parses := r.parses ++ r'.parses }
      | _ => r

end Charset

end TcpTransportConnection

/-! ## What is in the buffer -/

namespace SipMessageBuffer

/-- The bytes that are in the buffer. -/
def content (b : SipMessageBuffer) : List UInt8 := (b.buffer.getD []).drop b.offset.toNat

/-- The offset is within the buffer. -/
structure Valid (b : SipMessageBuffer) : Prop where
  nonneg : 0 ≤ b.offset
  le : b.offset ≤ (b.buffer.getD []).length

theorem valid_new : Valid {} := ⟨Int.le_refl 0, Int.le_refl 0⟩

section Valid

variable {b : SipMessageBuffer} (hb : b.Valid)
include hb

theorem Valid.length_content : (b.content.length : ℤ) = (b.buffer.getD []).length - b.offset := by
  have h1 := hb.nonneg
  have h2 := hb.le
  unfold content
  rw [List.length_drop]
  omega

theorem Valid.getLength : b.getLength = b.content.length := by
  rw [hb.length_content]
  have h1 := hb.nonneg
  have h2 := hb.le
  unfold SipMessageBuffer.getLength
  cases hbuffer : b.buffer with
  | none =>
    rw [hbuffer] at h2
    show (0 : ℤ) = 0 - b.offset
    have hlen : ((none : Option (List UInt8)).getD []).length = 0 := rfl
    rw [hlen] at h2
    omega
  | some data => rfl

theorem Valid.byteAt_zero : b.byteAt 0 = b.content.head? := by
  have h1 := hb.nonneg
  unfold byteAt content
  cases b.buffer with
  | none => simp
  | some data =>
    rw [Int.add_zero, Option.bind_some, if_pos h1, Option.getD_some, List.head?_drop]

/-- The offset goes on within the buffer. -/
theorem Valid.advance {n : ℕ} (hn : n ≤ b.content.length) :
    ({ b with offset := b.offset + n } : SipMessageBuffer).Valid ∧
      ({ b with offset := b.offset + n } : SipMessageBuffer).content = b.content.drop n := by
  have h1 := hb.nonneg
  have hlen := hb.length_content
  refine ⟨⟨?_, ?_⟩, ?_⟩
  · show 0 ≤ b.offset + n
    omega
  · show b.offset + n ≤ (b.buffer.getD []).length
    omega
  · unfold content
    dsimp only
    rw [List.drop_drop]
    congr 1
    omega

/-- Bytes are skipped. -/
theorem Valid.skip {n : ℕ} (hn : n ≤ b.content.length) (hpos : b.content ≠ []) :
    ∃ b', b.skip n = some b' ∧ b'.Valid ∧ b'.content = b.content.drop n := by
  have hlen := hb.length_content
  obtain ⟨hvalid, hcontent⟩ := hb.advance hn
  unfold SipMessageBuffer.skip
  cases hbuffer : b.buffer with
  | none =>
    unfold content at hpos
    rw [hbuffer] at hpos
    exact absurd (List.drop_nil) hpos
  | some data =>
    rw [hbuffer, Option.getD_some] at hlen
    rw [hbuffer] at hvalid hcontent
    dsimp only
    rw [if_neg (by omega)]
    exact ⟨_, rfl, hvalid, hcontent⟩

/-- New bytes are put behind the ones that are left. -/
theorem Valid.append (new : List UInt8) :
    ∃ b', b.append new = some b' ∧ b'.Valid ∧ b'.content = b.content ++ new := by
  unfold SipMessageBuffer.append
  cases hbuffer : b.buffer with
  | none =>
    refine ⟨_, rfl, ⟨Int.le_refl 0, Int.natCast_nonneg _⟩, ?_⟩
    unfold content
    rw [hbuffer]
    simp
  | some data =>
    have hle := hb.le
    rw [hbuffer] at hle
    dsimp only
    rw [if_pos ⟨hb.nonneg, hle⟩]
    refine ⟨_, rfl, ⟨Int.le_refl 0, Int.natCast_nonneg _⟩, ?_⟩
    unfold content
    rw [hbuffer]
    rfl

/-- A message is read from the bytes that are in the buffer. -/
theorem Valid.parseSipMessage (charset : Charset) :
    b.parseSipMessage charset = (setMessage charset b.content).map fun p =>
      (p.1, { b with offset := b.offset + p.2 }) := by
  unfold SipMessageBuffer.parseSipMessage content
  cases hbuffer : b.buffer with
  | none =>
    rw [Option.getD_none, List.drop_nil]
    rfl
  | some data =>
    have hle := hb.le
    rw [hbuffer] at hle
    rw [Option.bind_some, if_pos ⟨hb.nonneg, hle⟩]
    rfl

end Valid

end SipMessageBuffer

/-! ## How many bytes a message takes -/

theorem indexOf_le {delim data : List UInt8} {i : ℕ} (h : ByteUtils.indexOf delim data = some i) :
    i + delim.length ≤ data.length := by
  induction data generalizing i with
  | nil =>
    unfold ByteUtils.indexOf at h
    split at h
    · rename_i hnil
      rw [hnil, ← Option.some.inj h]
      exact le_rfl
    · exact absurd h (by simp)
  | cons b data ih =>
    unfold ByteUtils.indexOf at h
    split at h
    · rename_i hpre
      rw [← Option.some.inj h, Nat.zero_add]
      exact (List.isPrefixOf_iff_prefix.mp hpre).length_le
    · obtain ⟨j, hj, rfl⟩ := Option.map_eq_some_iff.mp h
      have hle := ih hj
      rw [List.length_cons]
      omega

/-- The header section has the delimiter at least, and is within the bytes. -/
theorem range_headerLength {data : List UInt8} {n : ℕ} (h : headerLength data = some n) :
    2 ≤ n ∧ n ≤ data.length := by
  unfold headerLength at h
  split at h
  · rename_i i hi
    have hle := indexOf_le hi
    rw [← Option.some.inj h]
    exact ⟨by omega, hle⟩
  · obtain ⟨i, hi, rfl⟩ := Option.map_eq_some_iff.mp h
    have hle := indexOf_le hi
    exact ⟨by omega, hle⟩

/-- A header section is longer than its Content-Length is negative. -/
def SoundLength (charset : Charset) (data : List UInt8) : Prop :=
  ∀ p ∈ parseHeaders charset data, ∀ clh ∈ p.2.getHeader SipHeaders.contentLength,
    ∀ n ∈ getInt clh.value, 0 < (p.1 : ℤ) + n

instance (charset : Charset) (data : List UInt8) : Decidable (SoundLength charset data) :=
  inferInstanceAs (Decidable (∀ p ∈ parseHeaders charset data, _))

/-- What `setMessage` has read and used. -/
theorem setMessage_eq {charset : Charset} {data : List UInt8} {m : BasicSipMessage} {k : ℤ}
    (h : setMessage charset data = some (m, k)) :
    ∃ siphLen m₀ n, parseHeaders charset data = some (siphLen, m₀) ∧
      m₀.bodyLength (data.length - siphLen) = some n ∧ k = siphLen + n ∧
      2 ≤ siphLen ∧ siphLen + n ≤ data.length ∧ siphLen ≤ data.length := by
  simp only [setMessage, Option.bind_eq_bind, Option.bind_eq_some_iff] at h
  obtain ⟨⟨siphLen, m₀⟩, hheaders, n, hn, body, hbody, h⟩ := h
  obtain ⟨-, rfl⟩ := Prod.mk.inj (Option.some.inj h)
  have hrange : 2 ≤ siphLen ∧ siphLen ≤ data.length := by
    simp only [parseHeaders, Option.bind_eq_bind, Option.bind_eq_some_iff] at hheaders
    obtain ⟨i, hi, p, -, heq⟩ := hheaders
    obtain ⟨rfl, -⟩ := Prod.mk.inj (Option.some.inj heq)
    exact range_headerLength hi
  refine ⟨siphLen, m₀, n, hheaders, hn, rfl, hrange.1, ?_, hrange.2⟩
  unfold copyBody at hbody
  split at hbody
  · split at hbody
    · rename_i hle
      rw [List.length_drop] at hle
      dsimp only at hle
      omega
    · exact absurd hbody (by simp)
  · omega

/-- **A message takes one byte at least if and only if its Content-Length is not too negative.** -/
theorem setMessage_used {charset : Charset} {data : List UInt8} {m : BasicSipMessage} {k : ℤ}
    (h : setMessage charset data = some (m, k)) :
    k ≤ data.length ∧ (1 ≤ k ↔ SoundLength charset data) := by
  obtain ⟨siphLen, m₀, n, hheaders, hn, rfl, htwo, hle, -⟩ := setMessage_eq h
  refine ⟨hle, ?_, ?_⟩
  · intro hpos p hp clh hclh n' hn'
    obtain rfl := Option.some.inj (hheaders.symm.trans hp)
    unfold bodyLength at hn
    rw [Option.mem_def.mp hclh] at hn
    obtain rfl := Option.some.inj (hn.symm.trans hn')
    omega
  · intro hsound
    unfold bodyLength at hn
    split at hn
    · rename_i clh hclh
      have hpos := hsound _ hheaders clh hclh n hn
      dsimp only at hpos
      omega
    · split at hn
      · have hn := Option.some.inj hn
        omega
      · have hn := Option.some.inj hn
        omega

/-- The message has taken some of the bytes, at least one, and left the rest. -/
def Parse.Removes (p : Parse) : Prop :=
  p.after.Valid ∧ ∃ n, 1 ≤ n ∧ n ≤ p.before.content.length ∧
    p.after.content = p.before.content.drop n

open SipMessageBuffer in
/-- **What `parseSipMessage` removes.** -/
theorem removes_iff {charset : Charset} {before after : SipMessageBuffer} {m : BasicSipMessage}
    (hb : before.Valid) (h : before.parseSipMessage charset = some (m, after)) :
    Parse.Removes ⟨before, m, after⟩ ↔ SoundLength charset before.content := by
  rw [hb.parseSipMessage] at h
  obtain ⟨⟨m', k⟩, hk, heq⟩ := Option.map_eq_some_iff.mp h
  obtain ⟨rfl, rfl⟩ := Prod.mk.inj heq
  obtain ⟨hle, hpos⟩ := setMessage_used hk
  rw [← hpos]
  have h1 := hb.nonneg
  have h2 := hb.le
  have hlen := hb.length_content
  constructor
  · rintro ⟨-, n, hn, hle', hcontent⟩
    have hlength := congrArg List.length hcontent
    unfold content at hlength hle'
    dsimp only at hlength hle'
    rw [List.length_drop, List.length_drop, List.length_drop] at hlength
    rw [List.length_drop] at hle'
    omega
  · intro hk
    obtain ⟨n, rfl⟩ := Int.eq_ofNat_of_zero_le (a := k) (by omega)
    obtain ⟨hvalid, hcontent⟩ := hb.advance (n := n) (by omega)
    exact ⟨hvalid, n, by omega, by dsimp only; omega, hcontent⟩

/-! ## The loops end -/

namespace TcpTransportConnection

open SipMessageBuffer

/-- CR and LF, as bytes. -/
def isCRLFByte (b : UInt8) : Bool := b == 13 || b == 10

/-- **Leading CR and LF are skipped**, as many as there are. -/
theorem skipCRLF_spec {n : ℕ} {b : SipMessageBuffer} (hb : b.Valid) (hn : b.content.length ≤ n) :
    ∃ b', skipCRLF n b = some b' ∧ b'.Valid ∧ b'.content = b.content.dropWhile isCRLFByte := by
  induction n generalizing b with
  | zero =>
    have hnil : b.content = [] := List.length_eq_zero_iff.mp (Nat.le_zero.mp hn)
    exact ⟨b, rfl, hb, by rw [hnil]; rfl⟩
  | succ n ih =>
    rw [skipCRLF, hb.getLength, hb.byteAt_zero]
    cases hcontent : b.content with
    | nil =>
      rw [if_neg (by simp)]
      exact ⟨b, rfl, hb, hcontent⟩
    | cons x rest =>
      rw [if_pos (by rw [List.length_cons]; omega), List.head?_cons, Option.bind_some]
      by_cases hx : x = 13 ∨ x = 10
      · obtain ⟨b', hskip, hb', hrest⟩ := hb.skip (n := 1) (by rw [hcontent]; simp) (by rw [hcontent]; simp)
        have hskip' : b.skip 1 = some b' := hskip
        rw [hcontent] at hrest hn
        have hrest' : b'.content = rest := hrest
        rw [List.length_cons] at hn
        obtain ⟨b'', hloop, hb'', hdrop⟩ := ih hb' (by rw [hrest']; omega)
        have hcrlf : isCRLFByte x = true := by
          unfold isCRLFByte
          rcases hx with rfl | rfl <;> rfl
        rw [if_pos hx, hskip', Option.bind_some]
        refine ⟨b'', hloop, hb'', ?_⟩
        rw [hdrop, hrest', List.dropWhile_cons_of_pos hcrlf]
      · have hcrlf : ¬isCRLFByte x = true := by
          unfold isCRLFByte
          simpa using hx
        rw [if_neg hx]
        exact ⟨b, rfl, hb, by rw [hcontent, List.dropWhile_cons_of_neg hcrlf]⟩

/-- A round of the loop: leading CR and LF are skipped, and a message is read or not. -/
theorem receiveLoop_succ (charset : Charset) (n : ℕ) {b : SipMessageBuffer} (hb : b.Valid) :
    ∃ b', b'.Valid ∧ b'.content = b.content.dropWhile isCRLFByte ∧
      receiveLoop charset (n + 1) b =
        match b'.parseSipMessage charset with
        | none => ⟨[], b', .ended⟩
        | some (message, after) =>
          { receiveLoop charset n after with
            parses := ⟨b', message, after⟩ :: (receiveLoop charset n after).parses } := by
  have hlen : b.content.length ≤ b.getLength.toNat := by
    rw [hb.getLength]
    omega
  obtain ⟨b', hskip, hb', hcontent⟩ := skipCRLF_spec hb hlen
  refine ⟨b', hb', hcontent, ?_⟩
  rw [receiveLoop, hskip]
  rfl

/-- The bytes that are left are fewer. -/
theorem removes_length {p : Parse} (h : p.Removes) : p.after.content.length < p.before.content.length := by
  obtain ⟨-, n, hn, hle, hcontent⟩ := h
  rw [hcontent, List.length_drop]
  omega

/-- A loop has gone well. -/
structure Progress (n : ℕ) (length : ℕ) (r : Received) : Prop where
  removes : ∀ p ∈ r.parses, p.Removes
  not_failed : r.state ≠ .failed
  ended : length < n → r.state = .ended
  valid : r.buffer.Valid
  length_le : r.buffer.content.length ≤ length

/-- **The loop goes well while no Content-Length is too negative.** -/
theorem receiveLoop_progress {charset : Charset} {n : ℕ} {b : SipMessageBuffer} (hb : b.Valid)
    (h : ∀ p ∈ (receiveLoop charset n b).parses, SoundLength charset p.before.content) :
    Progress n b.content.length (receiveLoop charset n b) := by
  induction n generalizing b with
  | zero => exact ⟨fun p hp => absurd hp (List.not_mem_nil), nofun, nofun, hb, le_rfl⟩
  | succ n ih =>
    obtain ⟨b', hb', hcontent, hloop⟩ := receiveLoop_succ charset n hb
    have hle : b'.content.length ≤ b.content.length := by
      rw [hcontent]
      exact List.length_dropWhile_le _ _
    rw [hloop] at h ⊢
    cases hparse : b'.parseSipMessage charset with
    | none => exact ⟨fun p hp => absurd hp (List.not_mem_nil), nofun, fun _ => rfl, hb', hle⟩
    | some q =>
      obtain ⟨message, after⟩ := q
      rw [hparse] at h
      obtain ⟨hsound, h⟩ := List.forall_mem_cons.mp h
      have hremoves := (removes_iff hb' hparse).mpr hsound
      have hlt : after.content.length < b'.content.length := removes_length hremoves
      have hnext := ih hremoves.1 h
      refine ⟨List.forall_mem_cons.mpr ⟨hremoves, hnext.removes⟩, hnext.not_failed, ?_, hnext.valid, ?_⟩
      · intro hn
        refine hnext.ended ?_
        show after.content.length < n
        omega
      · have hnextLe : (receiveLoop charset n after).buffer.content.length ≤ after.content.length :=
          hnext.length_le
        show (receiveLoop charset n after).buffer.content.length ≤ b.content.length
        omega

/-- The loop only goes well if no Content-Length is too negative. -/
theorem receiveLoop_sound {charset : Charset} {n : ℕ} {b : SipMessageBuffer} (hb : b.Valid)
    (h : ∀ p ∈ (receiveLoop charset n b).parses, p.Removes) :
    ∀ p ∈ (receiveLoop charset n b).parses, SoundLength charset p.before.content := by
  induction n generalizing b with
  | zero => exact fun p hp => absurd hp (List.not_mem_nil)
  | succ n ih =>
    obtain ⟨b', hb', -, hloop⟩ := receiveLoop_succ charset n hb
    rw [hloop] at h ⊢
    cases hparse : b'.parseSipMessage charset with
    | none => exact fun p hp => absurd hp (List.not_mem_nil)
    | some q =>
      obtain ⟨message, after⟩ := q
      rw [hparse] at h
      obtain ⟨hremoves, h⟩ := List.forall_mem_cons.mp h
      exact List.forall_mem_cons.mpr ⟨(removes_iff hb' hparse).mp hremoves, ih hremoves.1 h⟩

/-- A chunk, and the ones after it. -/
theorem receiveAll_cons (charset : Charset) (n : ℕ) (chunk : List UInt8)
    (chunks : List (List UInt8)) {b : SipMessageBuffer} (hb : b.Valid) :
    ∃ b', b'.Valid ∧ b'.content = b.content ++ chunk ∧
      receiveAll charset n (chunk :: chunks) b =
        match (receiveLoop charset n b').state with
        | .ended =>
          { receiveAll charset n chunks (receiveLoop charset n b').buffer with
            parses := (receiveLoop charset n b').parses ++
              (receiveAll charset n chunks (receiveLoop charset n b').buffer).parses }
        | _ => receiveLoop charset n b' := by
  obtain ⟨b', happend, hb', hcontent⟩ := hb.append chunk
  refine ⟨b', hb', hcontent, ?_⟩
  rw [receiveAll, happend]

/-- **The connection goes on.**  Whatever is received, in whatever chunks: all the messages take
out some of the bytes, at least one, and leave the rest, and the loop ends after each chunk and
does not fail, if and only if no Content-Length is so negative that its message is not longer
than nothing. -/
theorem receiveAll_progress (charset : Charset) (chunks : List (List UInt8)) {n : ℕ}
    (hn : chunks.flatten.length < n) :
    ((∀ p ∈ (receiveAll charset n chunks {}).parses, p.Removes) ∧
        (receiveAll charset n chunks {}).state = .ended) ↔
      ∀ p ∈ (receiveAll charset n chunks {}).parses, SoundLength charset p.before.content := by
  suffices hall : ∀ b : SipMessageBuffer, b.Valid → b.content.length + chunks.flatten.length < n →
      (((∀ p ∈ (receiveAll charset n chunks b).parses, p.Removes) ∧
          (receiveAll charset n chunks b).state = .ended) ↔
        ∀ p ∈ (receiveAll charset n chunks b).parses, SoundLength charset p.before.content) by
    refine hall {} valid_new ?_
    have hnone : (content {}).length = 0 := rfl
    rw [hnone, Nat.zero_add]
    exact hn
  clear hn
  induction chunks with
  | nil =>
    intro b _ _
    exact ⟨fun _ p hp => absurd hp (List.not_mem_nil),
      fun _ => ⟨fun p hp => absurd hp (List.not_mem_nil), rfl⟩⟩
  | cons chunk chunks ih =>
    intro b hb hn
    rw [List.flatten_cons, List.length_append] at hn
    obtain ⟨b', hb', hcontent, hall⟩ := receiveAll_cons charset n chunk chunks hb
    have hlen : b'.content.length = b.content.length + chunk.length := by
      rw [hcontent, List.length_append]
    rw [hall]
    -- the loop for this chunk ends, if one side or the other holds for it
    have hloop (h : ∀ p ∈ (receiveLoop charset n b').parses, SoundLength charset p.before.content) :
        (receiveLoop charset n b').state = .ended ∧
          (receiveLoop charset n b').buffer.Valid ∧
          (receiveLoop charset n b').buffer.content.length + chunks.flatten.length < n ∧
          ∀ p ∈ (receiveLoop charset n b').parses, p.Removes := by
      have hprogress := receiveLoop_progress hb' h
      have hle := hprogress.length_le
      exact ⟨hprogress.ended (by omega), hprogress.valid, by omega, hprogress.removes⟩
    cases hstate : (receiveLoop charset n b').state with
    | ended =>
      dsimp only
      constructor
      · rintro ⟨hremoves, hended⟩
        obtain ⟨hfirst, hrest⟩ := List.forall_mem_append.mp hremoves
        have hsound := receiveLoop_sound hb' hfirst
        obtain ⟨-, hvalid, hlt, -⟩ := hloop hsound
        exact List.forall_mem_append.mpr ⟨hsound, (ih _ hvalid hlt).mp ⟨hrest, hended⟩⟩
      · intro hsound
        obtain ⟨hfirst, hrest⟩ := List.forall_mem_append.mp hsound
        obtain ⟨-, hvalid, hlt, hremoves⟩ := hloop hfirst
        obtain ⟨hrest, hended⟩ := (ih _ hvalid hlt).mpr hrest
        exact ⟨List.forall_mem_append.mpr ⟨hremoves, hrest⟩, hended⟩
    | failed =>
      dsimp only
      refine ⟨fun h => ?_, fun h => ?_⟩
      · rw [hstate] at h
        exact absurd h.2 nofun
      · exact absurd ((hloop h).1.symm.trans hstate) nofun
    | running =>
      dsimp only
      refine ⟨fun h => ?_, fun h => ?_⟩
      · rw [hstate] at h
        exact absurd h.2 nofun
      · exact absurd ((hloop h).1.symm.trans hstate) nofun

/-- A BYE with this Content-Length and no body. -/
def byeWithLength (length : Text) : List UInt8 :=
  Charset.latin1.encode ("BYE sip:a@h SIP/2.0\r\nContent-Length: ".toList ++ length ++
    "\r\n\r\n".toList)

/-- Two messages in three chunks: the second one has come in part, with a keep-alive before. -/
theorem receiveAll_progress_chunks :
    let chunks := [(byeWithLength "0".toList).take 20,
      (byeWithLength "0".toList).drop 20 ++ [13, 10], (byeWithLength "7".toList) ++ [65, 66]]
    (∀ p ∈ (receiveAll .latin1 200 chunks {}).parses, p.Removes) ∧
      (receiveAll .latin1 200 chunks {}).state = .ended := by
  intro chunks
  exact (receiveAll_progress .latin1 chunks (by decide +kernel)).mpr (by decide +kernel)

/-- A loop that finds the same message again does not end. -/
theorem receiveLoop_stuck {charset : Charset} {b : SipMessageBuffer} {m : BasicSipMessage}
    (hskip : skipCRLF b.getLength.toNat b = some b)
    (hparse : b.parseSipMessage charset = some (m, b)) (n : ℕ) :
    (receiveLoop charset n b).state = .running := by
  induction n with
  | zero => rfl
  | succ n ih =>
    rw [receiveLoop, hskip]
    dsimp only
    rw [hparse]
    exact ih

/-- **The same bytes again and again, and an index out of range**: the header section of the first
BYE has 44 bytes, and the one of the second BYE is shorter than its Content-Length is negative. -/
theorem negativeLength_running :
    (∀ n, (receiveAll .latin1 n [byeWithLength "-44".toList] {}).state = .running) ∧
      (receiveAll .latin1 50 [byeWithLength "-90".toList] {}).state = .failed := by
  refine ⟨fun n => ?_, by decide +kernel⟩
  have hused : (setMessage .latin1 (byeWithLength "-44".toList)).map Prod.snd = some 0 := by
    decide +kernel
  obtain ⟨⟨m, k⟩, hm, hk⟩ := Option.map_eq_some_iff.mp hused
  obtain rfl : k = 0 := hk
  have hparse : SipMessageBuffer.parseSipMessage .latin1 ⟨some (byeWithLength "-44".toList), 0⟩ =
      some (m, ⟨some (byeWithLength "-44".toList), 0⟩) := by
    rw [Valid.parseSipMessage ⟨Int.le_refl 0, Int.natCast_nonneg _⟩]
    show (setMessage .latin1 (byeWithLength "-44".toList)).map _ = _
    rw [hm]
    rfl
  have hstuck := receiveLoop_stuck (by decide +kernel) hparse n
  have happend : ({} : SipMessageBuffer).append (byeWithLength "-44".toList) =
      some ⟨some (byeWithLength "-44".toList), 0⟩ := rfl
  rw [receiveAll, happend]
  dsimp only
  rw [hstuck]
  exact hstuck

end TcpTransportConnection

end SoftPhone
