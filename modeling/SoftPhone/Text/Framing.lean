import SoftPhone.Text.Buffer
import SoftPhone.Text.RoundTrip

/-!
# Messages on a connection

Messages are written to a connection one after another, with CR and LF between them as
keep-alives, and the bytes arrive in any chunks.  `setMessage` reads a message from the bytes that
begin with it (`setMessage_getBytes`), and reads nothing as long as the message is not complete
(`setMessage_incomplete`); for the empty line is found where it was written, and not before.

So what is in the buffer and what is still to come always make up the messages that have not been
delivered, and all the messages are delivered in their order (`receiveAll_stream`).
-/

namespace SoftPhone

open SipParser BasicSipMessage

/-! ## The empty line, as bytes -/

/-- The bytes of a text in ASCII. -/
def toBytes (s : Text) : List UInt8 := s.map fun c => UInt8.ofNat c.toNat

theorem toBytes_append (s t : Text) : toBytes (s ++ t) = toBytes s ++ toBytes t := List.map_append

theorem toNat_toByte {c : Char} (hc : c.toNat < 128) : (UInt8.ofNat c.toNat).toNat = c.toNat := by
  rw [UInt8.toNat_ofNat']
  omega

theorem decode_toBytes {charset : Charset} {s : Text} (hs : ∀ c ∈ s, c.toNat < 128) :
    charset.decode (toBytes s) = s := by
  rw [charset.decode_ascii]
  · unfold toBytes
    rw [List.map_map]
    conv_rhs => rw [← List.map_id s]
    refine List.map_congr_left fun c hc => ?_
    show Char.ofNat (UInt8.ofNat c.toNat).toNat = c
    rw [toNat_toByte (hs c hc), Char.ofNat_toNat]
  · intro b hb
    obtain ⟨c, hc, rfl⟩ := List.mem_map.mp hb
    rw [toNat_toByte (hs c hc)]
    exact hs c hc

/-- The end of a line is not followed by another one, in bytes. -/
def NoBlankBytes (data : List UInt8) : Prop := data.IsChain fun a b => a = 10 → b ≠ 13 ∧ b ≠ 10

theorem toByte_eq {c d : Char} (hc : c.toNat < 128) (hd : d.toNat < 128)
    (h : UInt8.ofNat c.toNat = UInt8.ofNat d.toNat) : c = d := by
  have hnat := congrArg UInt8.toNat h
  rw [toNat_toByte hc, toNat_toByte hd] at hnat
  exact Char.toNat_inj.mp hnat

theorem noBlank_toBytes {s : Text} (hs : NoBlank s) (hascii : ∀ c ∈ s, c.toNat < 128) :
    NoBlankBytes (toBytes s) := by
  unfold NoBlankBytes toBytes
  rw [List.isChain_map]
  refine List.isChain_iff_forall_rel_of_append_cons_cons.mpr ?_
  intro a b l₁ l₂ heq ha
  have hrel := List.isChain_iff_forall_rel_of_append_cons_cons.mp hs heq
  have hmem : a ∈ s ∧ b ∈ s := by
    rw [heq]
    simp
  have hline : a = '\n' := toByte_eq (hascii a hmem.1) (by decide) ha
  have hcrlf := hrel hline
  refine ⟨fun hb => ?_, fun hb => ?_⟩
  · rw [toByte_eq (d := '\r') (hascii b hmem.2) (by decide) hb] at hcrlf
    exact absurd hcrlf (by decide)
  · rw [toByte_eq (d := '\n') (hascii b hmem.2) (by decide) hb] at hcrlf
    exact absurd hcrlf (by decide)

section IndexOf

variable {delim a b : List UInt8}

/-- Where the delimiter is found. -/
theorem indexOf_append (hb : delim <+: b) (hne : b ≠ [])
    (hfree : ∀ y, y <:+ a → y ≠ [] → ¬delim <+: y ++ b) :
    ByteUtils.indexOf delim (a ++ b) = some a.length := by
  induction a with
  | nil =>
    cases b with
    | nil => exact absurd rfl hne
    | cons x b => rw [List.nil_append, ByteUtils.indexOf, if_pos (List.isPrefixOf_iff_prefix.mpr hb)]; rfl
  | cons x a ih =>
    have hnot : ¬delim.isPrefixOf (x :: (a ++ b)) = true := fun hpre =>
      hfree (x :: a) List.suffix_rfl (List.cons_ne_nil _ _) (List.isPrefixOf_iff_prefix.mp hpre)
    rw [List.cons_append, ByteUtils.indexOf, if_neg hnot,
      ih fun y hy => hfree y (hy.trans (List.suffix_cons x a))]
    rfl

/-- Where the delimiter is not found. -/
theorem indexOf_none (hdelim : delim ≠ []) (hfree : ∀ y, y <:+ a → ¬delim <+: y) :
    ByteUtils.indexOf delim a = none := by
  induction a with
  | nil => rw [ByteUtils.indexOf, if_neg hdelim]
  | cons x a ih =>
    have hnot : ¬delim.isPrefixOf (x :: a) = true := fun hpre =>
      hfree (x :: a) List.suffix_rfl (List.isPrefixOf_iff_prefix.mp hpre)
    rw [ByteUtils.indexOf, if_neg hnot, ih fun y hy => hfree y (hy.trans (List.suffix_cons x a))]
    rfl

end IndexOf

theorem not_noBlank {x y : UInt8} {a b : List UInt8} (hx : x = 10) (hy : y = 13 ∨ y = 10) :
    ¬NoBlankBytes (a ++ x :: y :: b) := by
  intro h
  obtain ⟨h13, h10⟩ := List.isChain_iff_forall_rel_of_append_cons_cons.mp h rfl hx
  exact hy.elim h13 h10

/-- **The header section ends with the first empty line.** -/
theorem headerLength_section {t more : List UInt8} (ht : NoBlankBytes (t ++ [13, 10])) :
    headerLength (t ++ [13, 10] ++ [13, 10] ++ more) = some (t.length + 4) := by
  have hindex : ByteUtils.indexOf [13, 10, 13, 10] (t ++ ([13, 10, 13, 10] ++ more)) =
      some t.length := by
    refine indexOf_append (List.prefix_append _ _) (by simp) fun y hy hne hpre => ?_
    -- an earlier one would have an empty line in front of the last one
    have hthree : [13, 10, 13] <+: y ++ [13, 10] := by
      have h1 : [13, 10, 13] <+: y ++ ([13, 10, 13, 10] ++ more) :=
        List.IsPrefix.trans ⟨[10], rfl⟩ hpre
      have h2 : y ++ [13, 10] <+: y ++ ([13, 10, 13, 10] ++ more) :=
        (List.prefix_append_right_inj y).mpr ⟨[13, 10] ++ more, rfl⟩
      refine List.prefix_of_prefix_length_le h1 h2 ?_
      have hpos := List.length_pos_iff.mpr hne
      rw [List.length_append]
      show 3 ≤ y.length + 2
      omega
    obtain ⟨z, hz⟩ := hthree
    obtain ⟨x, rfl⟩ := hy
    rw [List.append_assoc, ← hz] at ht
    exact not_noBlank (a := x ++ [13]) (b := z) rfl (.inl rfl) (by simpa using ht)
  have hsplit : t ++ [13, 10] ++ [13, 10] ++ more = t ++ ([13, 10, 13, 10] ++ more) := by simp
  unfold headerLength
  rw [hsplit, hindex]

/-- **There is no empty line before.** -/
theorem headerLength_incomplete {t data : List UInt8} (ht : NoBlankBytes (t ++ [13, 10]))
    (hdata : data <+: t ++ [13, 10] ++ [13, 10]) (hlt : data.length < t.length + 4) :
    headerLength data = none := by
  have hwithin {p : List UInt8} (hp : p <+: data) (hlen : p.length ≤ t.length + 2) :
      p <+: t ++ [13, 10] := by
    refine List.prefix_of_prefix_length_le (hp.trans hdata) (List.prefix_append _ _) ?_
    rw [List.length_append]
    exact hlen
  have hcrlf : ByteUtils.indexOf [13, 10, 13, 10] data = none := by
    refine indexOf_none (by simp) ?_
    rintro y ⟨x, hx⟩ ⟨w, rfl⟩
    have hlen := congrArg List.length hx
    simp only [List.length_append, List.length_cons, List.length_nil] at hlen
    obtain ⟨z, hz⟩ := hwithin (p := x ++ [13, 10, 13]) ⟨10 :: w, by rw [← hx]; simp⟩
      (by simp only [List.length_append, List.length_cons, List.length_nil]; omega)
    rw [← hz] at ht
    exact not_noBlank (a := x ++ [13]) (b := z) rfl (.inl rfl) (by simpa using ht)
  have hlf : ByteUtils.indexOf [10, 10] data = none := by
    refine indexOf_none (by simp) ?_
    rintro y ⟨x, hx⟩ ⟨w, rfl⟩
    have hlen := congrArg List.length hx
    simp only [List.length_append, List.length_cons, List.length_nil] at hlen
    by_cases hle : x.length ≤ t.length
    · obtain ⟨z, hz⟩ := hwithin (p := x ++ [10, 10]) ⟨w, by rw [← hx]; simp⟩
        (by simp only [List.length_append, List.length_cons, List.length_nil]; omega)
      rw [← hz] at ht
      exact not_noBlank (a := x) (b := z) rfl (.inr rfl) (by simpa using ht)
    · -- the last one of the bytes would be the CR of the empty line
      have hend : x ++ [10, 10] <+: t ++ [13, 10] ++ [13, 10] :=
        List.IsPrefix.trans ⟨w, by rw [← hx]; simp⟩ hdata
      have hend' : t ++ [13, 10] ++ [13] <+: t ++ [13, 10] ++ [13, 10] := ⟨[10], by simp⟩
      have hsame := (List.prefix_of_prefix_length_le hend hend'
        (by simp only [List.length_append, List.length_cons, List.length_nil]; omega)).eq_of_length
        (by simp only [List.length_append, List.length_cons, List.length_nil]; omega)
      have hlast := congrArg List.getLast? hsame
      simp at hlast
  unfold headerLength
  rw [hcrlf, hlf]
  rfl

/-! ## One message -/

section Message

variable {charset : Charset} {m : BasicSipMessage} (hm : WellFormed m)
include hm

/-- The bytes of a message: the lines, an empty one, and the body. -/
theorem getBytes_eq (charset : Charset) :
    ∃ t, NoBlankBytes (t ++ [13, 10]) ∧ toBytes m.getMessageHeader = t ++ [13, 10] ++ [13, 10] ∧
      getBytes charset m = t ++ [13, 10] ++ [13, 10] ++ m.body.getD [] := by
  obtain ⟨s, hs⟩ := hm.ends
  have hascii := hm.ascii
  have hcrlf : toBytes ['\r', '\n'] = [13, 10] := rfl
  have hbytes : toBytes m.getMessageHeader = toBytes s ++ [13, 10] ++ [13, 10] := by
    rw [getMessageHeader_eq, hs, toBytes_append, toBytes_append, hcrlf]
  have hblank := noBlank_toBytes hm.noBlank fun c hc => hascii c (List.mem_append_left _ hc)
  rw [hs, toBytes_append, hcrlf] at hblank
  refine ⟨toBytes s, hblank, hbytes, ?_⟩
  unfold getBytes
  rw [charset.encode_ascii _ hascii]
  exact congrArg (· ++ m.body.getD []) hbytes

/-- The header section of a message, whatever follows it. -/
theorem parseHeaders_getBytes {t : List UInt8} (ht : NoBlankBytes (t ++ [13, 10]))
    (hbytes : toBytes m.getMessageHeader = t ++ [13, 10] ++ [13, 10]) (more : List UInt8) :
    parseHeaders charset (t ++ [13, 10] ++ [13, 10] ++ more) =
      some (t.length + 4, { startLine := m.startLine, headers := m.headers }) := by
  obtain ⟨rest, hline, hheaders⟩ := hm.read_section
  have hlen : (t ++ [13, 10] ++ [13, 10]).length = t.length + 4 := by simp
  have htake : (t ++ [13, 10] ++ [13, 10] ++ more).take (t.length + 4) = t ++ [13, 10] ++ [13, 10] := by
    rw [← hlen, List.take_left]
  have hdecode : charset.decode (t ++ [13, 10] ++ [13, 10]) = m.getMessageHeader := by
    rw [← hbytes]
    exact decode_toBytes hm.ascii
  unfold parseHeaders
  simp only [Option.bind_eq_bind, headerLength_section ht, Option.bind_some, htake, hdecode, hline,
    hheaders]

/-- The length of the body is the Content-Length. -/
theorem bodyLength_wellFormed (left : ℕ) :
    bodyLength { startLine := m.startLine, headers := m.headers } left =
      some ((m.body.getD []).length : ℤ) := by
  obtain ⟨clh, hclh, hlength⟩ := hm.contentLength
  have hget : getHeader SipHeaders.contentLength
      { startLine := m.startLine, headers := m.headers } = some clh := hclh
  unfold bodyLength
  rw [hget]
  exact hlength

/-- **A message that begins the bytes is read**, whatever follows it. -/
theorem setMessage_getBytes (more : List UInt8) :
    setMessage charset (getBytes charset m ++ more) = some (m, ((getBytes charset m).length : ℤ)) := by
  obtain ⟨t, ht, hbytes, hmessage⟩ := getBytes_eq hm charset
  have hlen : (t ++ [13, 10] ++ [13, 10]).length = t.length + 4 := by simp
  have hdrop : (t ++ [13, 10] ++ [13, 10] ++ (m.body.getD [] ++ more)).drop (t.length + 4) =
      m.body.getD [] ++ more := by
    rw [← hlen, List.drop_left]
  have hbody : copyBody (m.body.getD [] ++ more) ((m.body.getD []).length : ℤ) = some m.body := by
    unfold copyBody
    cases hbody : m.body with
    | none => rfl
    | some body =>
      have hne : body ≠ [] := by
        rintro rfl
        exact hm.body hbody
      have hpos := List.length_pos_iff.mpr hne
      rw [Option.getD_some, if_pos (by omega), if_pos (by rw [List.length_append]; omega),
        Int.toNat_natCast, List.take_left]
  have hmore : getBytes charset m ++ more =
      t ++ [13, 10] ++ [13, 10] ++ (m.body.getD [] ++ more) := by
    rw [hmessage, List.append_assoc]
  have hused : ((t.length + 4 : ℕ) : ℤ) + ((m.body.getD []).length : ℤ) =
      ((getBytes charset m).length : ℤ) := by
    rw [hmessage, List.length_append, hlen]
    omega
  unfold setMessage
  rw [hmore]
  simp only [Option.bind_eq_bind, parseHeaders_getBytes hm ht hbytes, Option.bind_some,
    bodyLength_wellFormed hm, hdrop, hbody, hused]

/-- **As long as a message is not complete, nothing is read.** -/
theorem setMessage_incomplete {data : List UInt8} (hdata : data <+: getBytes charset m)
    (hlt : data.length < (getBytes charset m).length) : setMessage charset data = none := by
  obtain ⟨t, ht, hbytes, hmessage⟩ := getBytes_eq hm charset
  have hlen : (t ++ [13, 10] ++ [13, 10]).length = t.length + 4 := by simp
  rw [hmessage] at hdata hlt
  by_cases hsection : data.length < t.length + 4
  · have hpre : data <+: t ++ [13, 10] ++ [13, 10] :=
      List.prefix_of_prefix_length_le hdata (List.prefix_append _ _) (by omega)
    unfold setMessage parseHeaders
    rw [headerLength_incomplete ht hpre hsection]
    rfl
  · -- the header section is complete, and the body is too short
    obtain ⟨body, rfl⟩ : ∃ body, data = t ++ [13, 10] ++ [13, 10] ++ body := by
      obtain ⟨body, hbody⟩ := List.prefix_of_prefix_length_le
        (List.prefix_append (t ++ [13, 10] ++ [13, 10]) (m.body.getD [])) hdata (by omega)
      exact ⟨body, hbody.symm⟩
    have hshorter : body.length < (m.body.getD []).length := by
      simp only [List.length_append] at hlt
      omega
    have hdrop : (t ++ [13, 10] ++ [13, 10] ++ body).drop (t.length + 4) = body := by
      rw [← hlen, List.drop_left]
    have hshort : copyBody body ((m.body.getD []).length : ℤ) = none := by
      unfold copyBody
      rw [if_pos (by omega), if_neg (by omega)]
    unfold setMessage
    simp only [Option.bind_eq_bind, parseHeaders_getBytes hm ht hbytes, Option.bind_some,
      bodyLength_wellFormed hm, hdrop, hshort, Option.bind_none]

end Message

/-! ## The stream -/

open SipMessageBuffer TcpTransportConnection

/-- The bytes of some messages, one after another, with CR and LF before each and at the end. -/
inductive IsStream (charset : Charset) : List BasicSipMessage → List UInt8 → Prop
  | keepAlive {gap : List UInt8} : (∀ b ∈ gap, isCRLFByte b = true) → IsStream charset [] gap
  | message {g data : List UInt8} {m : BasicSipMessage} {ms : List BasicSipMessage} :
      (∀ b ∈ g, isCRLFByte b = true) → WellFormed m → IsStream charset ms data →
        IsStream charset (m :: ms) (g ++ (getBytes charset m ++ data))

/-- A message does not begin with CR or LF. -/
theorem head_getBytes (charset : Charset) {m : BasicSipMessage} (hm : WellFormed m) :
    ∃ b rest, getBytes charset m = b :: rest ∧ isCRLFByte b = false := by
  obtain ⟨c, s, htext, hcrlf⟩ := hm.head
  have hascii := hm.ascii
  unfold getBytes
  rw [charset.encode_ascii _ hascii, htext]
  refine ⟨UInt8.ofNat c.toNat, _, rfl, ?_⟩
  have hc := hascii c (by rw [htext]; exact List.mem_cons_self ..)
  by_contra hbyte
  unfold isCRLFByte at hbyte
  rw [Bool.not_eq_false, Bool.or_eq_true, beq_iff_eq, beq_iff_eq] at hbyte
  rcases hbyte with h | h
  · rw [toByte_eq (d := '\r') hc (by decide) h] at hcrlf
    exact absurd hcrlf (by decide)
  · rw [toByte_eq (d := '\n') hc (by decide) h] at hcrlf
    exact absurd hcrlf (by decide)

section Stream

variable {charset : Charset} {ms : List BasicSipMessage}

/-- Leading CR and LF belong to no message. -/
theorem IsStream.skip {gap data : List UInt8} (hgap : ∀ b ∈ gap, isCRLFByte b = true)
    (h : IsStream charset ms (gap ++ data)) : IsStream charset ms data := by
  generalize hall : gap ++ data = all at h
  cases h with
  | keepAlive hbytes =>
    rw [← hall] at hbytes
    exact .keepAlive fun b hb => hbytes b (List.mem_append_right _ hb)
  | @message gap' data' m ms hgap' hm hstream =>
    rcases List.append_eq_append_iff.mp hall with ⟨a, rfl, rfl⟩ | ⟨a, rfl, hdata⟩
    · exact .message (fun b hb => hgap' b (List.mem_append_right _ hb)) hm hstream
    · cases a with
      | nil =>
        rw [List.nil_append] at hdata
        rw [← hdata]
        exact .message (g := []) (fun b hb => absurd hb List.not_mem_nil) hm hstream
      | cons b a =>
        -- the message would begin with CR or LF
        obtain ⟨c, rest, hmessage, hc⟩ := head_getBytes charset hm
        rw [hmessage] at hdata
        obtain rfl : c = b := (List.cons.inj hdata).1
        rw [hgap c (List.mem_append_right _ (List.mem_cons_self ..))] at hc
        exact absurd hc (by decide)

/-- A stream that does not begin with CR or LF begins with a message. -/
theorem IsStream.first {b : UInt8} {data : List UInt8} (hb : isCRLFByte b = false)
    (h : IsStream charset ms (b :: data)) :
    ∃ m ms' data', ms = m :: ms' ∧ WellFormed m ∧ IsStream charset ms' data' ∧
      b :: data = getBytes charset m ++ data' := by
  generalize hall : b :: data = all at h
  cases h with
  | keepAlive hbytes =>
    rw [← hall] at hbytes
    rw [hbytes b (List.mem_cons_self ..)] at hb
    exact absurd hb (by decide)
  | @message gap data' m ms hgap hm hstream =>
    cases gap with
    | nil => exact ⟨m, ms, data', rfl, hm, hstream, rfl⟩
    | cons c gap =>
      obtain rfl : b = c := (List.cons.inj hall).1
      rw [hgap b (List.mem_cons_self ..)] at hb
      exact absurd hb (by decide)

theorem IsStream.nil (h : IsStream charset ms []) : ms = [] := by
  generalize hall : ([] : List UInt8) = all at h
  cases h with
  | keepAlive => rfl
  | @message gap data m ms _ hm _ =>
    obtain ⟨b, rest, hmessage, -⟩ := head_getBytes charset hm
    rw [hmessage] at hall
    exact absurd hall (by simp)

end Stream

/-- What has been done with the bytes of a stream: some messages were delivered, and the others are
in what is left and in what is still to come. -/
structure Delivers (charset : Charset) (ms : List BasicSipMessage) (length : ℕ)
    (more : List UInt8) (r : Received) : Prop where
  ended : r.state = .ended
  valid : r.buffer.Valid
  length_le : r.buffer.content.length ≤ length
  rest : ∃ ms', ms = r.parses.map Parse.message ++ ms' ∧
    IsStream charset ms' (r.buffer.content ++ more) ∧ (more = [] → ms' = [])

/-- **The loop delivers the messages that are complete**, in their order. -/
theorem receiveLoop_stream {charset : Charset} {ms : List BasicSipMessage} {n : ℕ}
    {b : SipMessageBuffer} {more : List UInt8} (hb : b.Valid) (hn : b.content.length < n)
    (hstream : IsStream charset ms (b.content ++ more)) :
    Delivers charset ms b.content.length more (receiveLoop charset n b) := by
  induction n generalizing b ms with
  | zero => exact absurd hn (Nat.not_lt_zero _)
  | succ n ih =>
    obtain ⟨b', hb', hcontent, hloop⟩ := receiveLoop_succ charset n hb
    have hle : b'.content.length ≤ b.content.length := by
      rw [hcontent]
      exact List.length_dropWhile_le _ _
    have hstream' : IsStream charset ms (b'.content ++ more) := by
      rw [hcontent]
      rw [← List.takeWhile_append_dropWhile (p := isCRLFByte) (l := b.content), List.append_assoc]
        at hstream
      exact hstream.skip fun x hx => List.mem_takeWhile_imp hx
    have hhead : ∀ x ∈ b'.content.head?, isCRLFByte x = false := by
      rw [hcontent]
      intro x hx
      have hnot := List.head?_dropWhile_not isCRLFByte b.content
      rw [Option.mem_def.mp hx] at hnot
      exact hnot
    -- where nothing is read, all the bytes are left
    have hwaits (hnone : setMessage charset b'.content = none) (hmore : more = [] → ms = []) :
        Delivers charset ms b.content.length more (receiveLoop charset (n + 1) b) := by
      rw [hloop, hb'.parseSipMessage, hnone]
      exact ⟨rfl, hb', hle, ms, rfl, hstream', hmore⟩
    -- where a message is read, the loop goes on with the rest
    have hreads {m : BasicSipMessage} {ms' : List BasicSipMessage} {rest : List UInt8}
        (hm : WellFormed m) (hbytes : b'.content = getBytes charset m ++ rest)
        (hrest : IsStream charset ms' (rest ++ more)) :
        Delivers charset (m :: ms') b.content.length more (receiveLoop charset (n + 1) b) := by
      obtain ⟨x, y, hmessage, -⟩ := head_getBytes charset hm
      have hpos : 0 < (getBytes charset m).length := by
        rw [hmessage, List.length_cons]
        omega
      have hlength := congrArg List.length hbytes
      rw [List.length_append] at hlength
      obtain ⟨hvalid, hafter⟩ := hb'.advance (n := (getBytes charset m).length) (by omega)
      rw [hbytes, List.drop_left] at hafter
      rw [hloop, hb'.parseSipMessage, hbytes, setMessage_getBytes hm]
      dsimp only [Option.map_some]
      generalize ({ b' with offset := b'.offset + (getBytes charset m).length } : SipMessageBuffer) =
        after at hvalid hafter
      have hdelivers := ih hvalid (by rw [hafter]; omega) (by rw [hafter]; exact hrest)
      obtain ⟨ms'', hms, hleft, hmore⟩ := hdelivers.rest
      have hleft' := hdelivers.length_le
      rw [hafter] at hleft'
      refine ⟨hdelivers.ended, hdelivers.valid, ?_, ms'', ?_, hleft, hmore⟩
      · show (receiveLoop charset n after).buffer.content.length ≤ b.content.length
        omega
      · rw [List.map_cons, List.cons_append, ← hms]
    cases hbytes : b'.content with
    | nil =>
      refine hwaits (by rw [hbytes]; rfl) fun hmore => ?_
      rw [hbytes, hmore] at hstream'
      exact hstream'.nil
    | cons x rest =>
      rw [hbytes] at hstream'
      obtain ⟨m, ms', data, rfl, hm, hnext, hall⟩ :=
        hstream'.first (hhead x (by rw [hbytes]; rfl))
      replace hall : b'.content ++ more = getBytes charset m ++ data := by
        rw [hbytes]
        exact hall
      rcases List.append_eq_append_iff.mp hall with ⟨a, hmessage, hmore⟩ | ⟨a, hcomplete, rfl⟩
      · cases a with
        | nil =>
          rw [List.append_nil] at hmessage
          have hwhole : b'.content = getBytes charset m ++ [] := by rw [List.append_nil, hmessage]
          refine hreads hm hwhole ?_
          rw [List.nil_append, hmore]
          exact hnext
        | cons c a =>
          have hpre : b'.content <+: getBytes charset m := ⟨c :: a, hmessage.symm⟩
          have hlength := congrArg List.length hmessage
          rw [List.length_append, List.length_cons] at hlength
          refine hwaits (setMessage_incomplete hm hpre (by omega)) fun hnil => ?_
          rw [hnil] at hmore
          exact absurd hmore.symm (by simp)
      · exact hreads hm hcomplete hnext

/-- **The messages are delivered, in their order, none is lost and none is read twice**, however
the bytes are cut into chunks. -/
theorem receiveAll_stream {charset : Charset} {ms : List BasicSipMessage}
    {chunks : List (List UInt8)} {n : ℕ} (hstream : IsStream charset ms chunks.flatten)
    (hn : chunks.flatten.length < n) :
    (receiveAll charset n chunks {}).state = .ended ∧
      (receiveAll charset n chunks {}).parses.map Parse.message = ms := by
  suffices hall : ∀ (ms : List BasicSipMessage) (b : SipMessageBuffer), b.Valid →
      b.content.length + chunks.flatten.length < n →
        IsStream charset ms (b.content ++ chunks.flatten) → (chunks = [] → ms = []) →
          (receiveAll charset n chunks b).state = .ended ∧
            (receiveAll charset n chunks b).parses.map Parse.message = ms by
    have hnone : content {} = [] := rfl
    refine hall ms {} valid_new (by rw [hnone]; simpa using hn) (by rw [hnone]; exact hstream) ?_
    rintro rfl
    exact hstream.nil
  clear hn hstream
  induction chunks with
  | nil => exact fun ms b _ _ _ hnil => ⟨rfl, (hnil rfl).symm⟩
  | cons chunk chunks ih =>
    intro ms b hb hn hstream _
    rw [List.flatten_cons, List.length_append] at hn
    rw [List.flatten_cons, ← List.append_assoc] at hstream
    obtain ⟨b', hb', hcontent, hall⟩ := receiveAll_cons charset n chunk chunks hb
    have hlength : b'.content.length = b.content.length + chunk.length := by
      rw [hcontent, List.length_append]
    rw [← hcontent] at hstream
    have hdelivers : Delivers charset ms b'.content.length chunks.flatten
        (receiveLoop charset n b') := receiveLoop_stream hb' (by omega) hstream
    obtain ⟨ms', hms, hleft, hmore⟩ := hdelivers.rest
    have hle := hdelivers.length_le
    obtain ⟨hended, hmap⟩ := ih ms' (receiveLoop charset n b').buffer hdelivers.valid (by omega) hleft
      (by rintro rfl; exact hmore rfl)
    rw [hall, hdelivers.ended]
    refine ⟨hended, ?_⟩
    rw [List.map_append, hmap, hms]

/-- An INFO with a folded header and a body. -/
def sampleInfo : BasicSipMessage where
  startLine := some (.request "INFO".toList (some "sip:bob@h".toList))
  headers := [⟨"Subject".toList, "a\r\n b".toList⟩, ⟨SipHeaders.contentLength, "2".toList⟩]
  body := some [13, 10]

/-- A response without body. -/
def sampleOk : BasicSipMessage where
  startLine := some (.status 200 "OK".toList)
  headers := [⟨SipHeaders.contentLength, "0".toList⟩]

theorem wellFormed_sampleInfo : WellFormed sampleInfo where
  startLine := ⟨by decide, by decide, ⟨"sip:".toList, by decide, by decide⟩, by decide⟩
  headers := by
    have hfolded : Folded "a\r\n b".toList := by
      have hall : ∀ y ∈ "a\r\n b".toList.tails, ∀ c ∈ y.head?, isCRLF c = true → folds y = true := by
        decide
      exact fun y hy => hall y ((List.mem_tails _ _).mpr hy)
    refine List.forall_mem_cons.mpr ⟨?_, List.forall_mem_singleton.mpr ?_⟩
    · exact ⟨by decide, by decide, by unfold Trimmed; decide, hfolded, by unfold Trimmed; decide,
        by decide⟩
    · exact ⟨by decide, by decide, by unfold Trimmed; decide, folded_of_plain (by decide),
        by unfold Trimmed; decide, by decide⟩
  contentLength := ⟨⟨SipHeaders.contentLength, "2".toList⟩, by decide, by decide⟩
  body := by decide

theorem wellFormed_sampleOk : WellFormed sampleOk where
  startLine := ⟨by decide, by unfold Trimmed; decide, by decide⟩
  headers := List.forall_mem_singleton.mpr ⟨by decide, by decide, by unfold Trimmed; decide,
    folded_of_plain (by decide), by unfold Trimmed; decide, by decide⟩
  contentLength := ⟨⟨SipHeaders.contentLength, "0".toList⟩, by decide, by decide⟩
  body := by decide

/-- Two messages with keep-alives between them, byte by byte. -/
theorem receiveAll_stream_bytes :
    let data := [13, 10] ++ (getBytes .latin1 sampleInfo ++
      ([13, 10, 13, 10] ++ (getBytes .latin1 sampleOk ++ [10])))
    (receiveAll .latin1 200 (data.map fun b => [b]) {}).parses.map Parse.message =
      [sampleInfo, sampleOk] := by
  intro data
  have hflatten : (data.map fun b => [b]).flatten = data := by
    rw [← List.flatMap_def, List.flatMap_singleton']
  have hstream : IsStream .latin1 [sampleInfo, sampleOk] data :=
    .message (g := [13, 10]) (List.all_eq_true.mp rfl) wellFormed_sampleInfo
      (.message (g := [13, 10, 13, 10]) (List.all_eq_true.mp rfl) wellFormed_sampleOk
        (.keepAlive (List.all_eq_true.mp rfl)))
  exact (receiveAll_stream (hflatten.symm ▸ hstream) (by rw [hflatten]; decide +kernel)).2

end SoftPhone
