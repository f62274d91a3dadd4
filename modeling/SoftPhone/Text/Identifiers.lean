import SoftPhone.Text.Via

/-!
# Classes `TransactionId`, `DialogId` and `MethodId`

The provider looks its listeners up by strings.  An identifier is put together from its
components with a `-` between them, and a missing component is the word `null`.

`SipIdParts` keeps the components.  Two identifiers may be the same string although their
parts differ (`id_collisions`): a `-` may belong to a tag, a tag may be the word `null`, and
a dialog identifier may look like one of a transaction.  When no component but the Call-ID has
a `-` and the words that the source puts in are not used otherwise, the string determines the
parts (`id_injective`).
-/

namespace SoftPhone

open SipParser

/-! ## The strings -/

/-- A string that is concatenated; null is the word `null`. -/
def nullable (s : Option Text) : Text := s.getD "null".toList

/-- `TransactionId.getTransactionId(uac,call_id,seqn,method,sent_by,branch)`. -/
def getTransactionId (uac : Bool) (callId : Text) (seqn : ℤ) (method : Text)
    (sentBy branch : Option Text) : Text :=
  let method := if method = "ACK".toList then "INVITE".toList else method
  let type := if uac then "client".toList else "server".toList
  callId ++ '-' :: valueOf seqn ++ '-' :: method ++ '-' :: type ++ '-' ::
    nullable (branch <|> sentBy)

/-- `DialogId.getDialodId(call_id,local_tag,remote_tag)`. -/
def getDialogId (callId : Text) (localTag remoteTag : Option Text) : Text :=
  callId ++ '-' :: nullable localTag ++ '-' :: nullable remoteTag

/-- `MethodId.getMethodId(method)`, and the identifier of a listening transaction server. -/
def getMethodId (method : Text) : Text := method

/-! ## The parts -/

/-- What an identifier is made from. -/
inductive SipIdParts where
  | transaction (uac : Bool) (callId : Text) (seqn : ℤ) (method : Text)
      (sentBy branch : Option Text)
  | dialog (callId : Text) (localTag remoteTag : Option Text)
  | ofMethod (m : Text)
  deriving DecidableEq, Repr

namespace SipIdParts

/-- The identifier. -/
def id : SipIdParts → Text
  | transaction uac callId seqn method sentBy branch =>
    getTransactionId uac callId seqn method sentBy branch
  | dialog callId localTag remoteTag => getDialogId callId localTag remoteTag
  | ofMethod m => getMethodId m

/-- The components that are used: an ACK belongs to the INVITE, and the sent-by stands in for
a missing branch. -/
def used : SipIdParts → SipIdParts
  | transaction uac callId seqn method sentBy branch =>
    transaction uac callId seqn (if method = "ACK".toList then "INVITE".toList else method) none
      (branch <|> sentBy)
  | dialog callId localTag remoteTag => dialog callId localTag remoteTag
  | ofMethod m => ofMethod m

/-- An optional component without a `-` that is not the word `null`. -/
def PlainTag (tag : Option Text) : Prop := ∀ t ∈ tag, '-' ∉ t ∧ t ≠ "null".toList

instance : DecidablePred PlainTag := fun tag => inferInstanceAs (Decidable (∀ t ∈ tag, _))

/-- No component but the Call-ID has a `-`, and no word that the source puts in is used
otherwise. -/
def Plain : SipIdParts → Prop
  | transaction _ _ seqn method sentBy branch =>
    0 ≤ seqn ∧ '-' ∉ method ∧ PlainTag (branch <|> sentBy)
  | dialog _ localTag remoteTag =>
    PlainTag localTag ∧ PlainTag remoteTag ∧
      ∀ t ∈ localTag, t ≠ "client".toList ∧ t ≠ "server".toList
  | ofMethod m => '-' ∉ m

instance : DecidablePred Plain := fun p => by
  cases p <;> unfold Plain <;> infer_instance

/-! ## Taking an identifier apart -/

/-- What stands behind the last `-`. -/
theorem append_dash_inj {a b a' b' : Text} (hb : '-' ∉ b) (hb' : '-' ∉ b')
    (h : a ++ '-' :: b = a' ++ '-' :: b') : a = a' ∧ b = b' := by
  induction a generalizing a' with
  | nil =>
    obtain _ | ⟨c, a'⟩ := a'
    · exact ⟨rfl, (List.cons.inj h).2⟩
    · rw [List.nil_append, List.cons_append] at h
      refine absurd ?_ hb
      rw [(List.cons.inj h).2]
      exact List.mem_append_right _ (List.mem_cons_self ..)
  | cons c a ih =>
    obtain _ | ⟨c', a'⟩ := a'
    · rw [List.nil_append, List.cons_append] at h
      refine absurd ?_ hb'
      rw [← (List.cons.inj h).2]
      exact List.mem_append_right _ (List.mem_cons_self ..)
    · rw [List.cons_append, List.cons_append] at h
      obtain ⟨hc, htail⟩ := List.cons.inj h
      obtain ⟨ha, hb⟩ := ih htail
      exact ⟨by rw [hc, ha], hb⟩

theorem not_dash_nullable {tag : Option Text} (h : PlainTag tag) : '-' ∉ nullable tag := by
  cases tag with
  | none => decide
  | some t => exact (h t rfl).1

theorem nullable_inj {tag tag' : Option Text} (h : PlainTag tag) (h' : PlainTag tag')
    (heq : nullable tag = nullable tag') : tag = tag' := by
  cases tag with
  | none =>
    cases tag' with
    | none => rfl
    | some t' => exact absurd heq.symm (h' t' rfl).2
  | some t =>
    cases tag' with
    | none => exact absurd heq (h t rfl).2
    | some t' => exact congrArg some heq

theorem not_dash_valueOf {n : ℤ} (hn : 0 ≤ n) : '-' ∉ valueOf n :=
  fun h => absurd (isDigit_valueOf hn h) (by decide)

/-- The method that stands in the identifier. -/
theorem not_dash_method {method : Text} (h : '-' ∉ method) :
    '-' ∉ if method = "ACK".toList then "INVITE".toList else method := by
  split
  · decide
  · exact h

theorem not_dash_type (uac : Bool) :
    '-' ∉ if uac = true then "client".toList else "server".toList := by
  cases uac <;> decide

theorem getTransactionId_inj {uac uac' : Bool} {callId callId' : Text} {seqn seqn' : ℤ}
    {method method' : Text} {sentBy sentBy' branch branch' : Option Text}
    (hp : (transaction uac callId seqn method sentBy branch).Plain)
    (hp' : (transaction uac' callId' seqn' method' sentBy' branch').Plain)
    (h : getTransactionId uac callId seqn method sentBy branch =
      getTransactionId uac' callId' seqn' method' sentBy' branch') :
    (transaction uac callId seqn method sentBy branch).used =
      (transaction uac' callId' seqn' method' sentBy' branch').used := by
  obtain ⟨hseqn, hmethod, hbranch⟩ := hp
  obtain ⟨hseqn', hmethod', hbranch'⟩ := hp'
  unfold getTransactionId at h
  obtain ⟨h, hb⟩ := append_dash_inj (not_dash_nullable hbranch) (not_dash_nullable hbranch') h
  obtain ⟨h, ht⟩ := append_dash_inj (not_dash_type uac) (not_dash_type uac') h
  obtain ⟨h, hm⟩ := append_dash_inj (not_dash_method hmethod) (not_dash_method hmethod') h
  obtain ⟨hc, hs⟩ := append_dash_inj (not_dash_valueOf hseqn) (not_dash_valueOf hseqn') h
  have huac : uac = uac' := by
    cases uac <;> cases uac' <;> first | rfl | exact absurd ht (by decide)
  show transaction _ _ _ _ none _ = transaction _ _ _ _ none _
  rw [huac, hc, valueOf_injective hs, hm, nullable_inj hbranch hbranch' hb]

theorem getDialogId_inj {callId callId' : Text}
    {localTag localTag' remoteTag remoteTag' : Option Text}
    (hp : (dialog callId localTag remoteTag).Plain)
    (hp' : (dialog callId' localTag' remoteTag').Plain)
    (h : getDialogId callId localTag remoteTag = getDialogId callId' localTag' remoteTag') :
    dialog callId localTag remoteTag = dialog callId' localTag' remoteTag' := by
  obtain ⟨hlocal, hremote, -⟩ := hp
  obtain ⟨hlocal', hremote', -⟩ := hp'
  unfold getDialogId at h
  obtain ⟨h, hr⟩ := append_dash_inj (not_dash_nullable hremote) (not_dash_nullable hremote') h
  obtain ⟨hc, hl⟩ := append_dash_inj (not_dash_nullable hlocal) (not_dash_nullable hlocal') h
  rw [hc, nullable_inj hlocal hlocal' hl, nullable_inj hremote hremote' hr]

/-- The local tag of a dialog stands where a transaction names its side. -/
theorem transaction_ne_dialog {uac : Bool} {callId callId' : Text} {seqn : ℤ} {method : Text}
    {sentBy branch localTag remoteTag : Option Text}
    (hp : (transaction uac callId seqn method sentBy branch).Plain)
    (hp' : (dialog callId' localTag remoteTag).Plain) :
    getTransactionId uac callId seqn method sentBy branch ≠
      getDialogId callId' localTag remoteTag := by
  obtain ⟨-, -, hbranch⟩ := hp
  obtain ⟨hlocal, hremote, hside⟩ := hp'
  intro h
  unfold getTransactionId getDialogId at h
  obtain ⟨h, -⟩ := append_dash_inj (not_dash_nullable hbranch) (not_dash_nullable hremote) h
  obtain ⟨-, ht⟩ := append_dash_inj (not_dash_type uac) (not_dash_nullable hlocal) h
  cases localTag with
  | none => cases uac <;> exact absurd ht (by decide)
  | some t =>
    cases uac
    · exact (hside t rfl).2 ht.symm
    · exact (hside t rfl).1 ht.symm

/-- The identifiers of transactions and dialogs have a `-`. -/
theorem dash_mem (a b : Text) : '-' ∈ a ++ '-' :: b :=
  List.mem_append_right _ (List.mem_cons_self ..)

theorem ofMethod_ne {m a b : Text} (hm : '-' ∉ m) : getMethodId m ≠ a ++ '-' :: b := by
  intro h
  unfold getMethodId at h
  rw [h] at hm
  exact hm (dash_mem a b)

/-- A component that is not used leaves no trace. -/
theorem id_used (p : SipIdParts) : p.used.id = p.id := by
  cases p with
  | transaction uac callId seqn method sentBy branch =>
    show getTransactionId _ _ _ _ _ _ = getTransactionId _ _ _ _ _ _
    unfold getTransactionId
    by_cases hm : method = "ACK".toList
    · rw [if_pos hm, if_neg (by decide), Option.orElse_eq_orElse, Option.orElse_eq_or,
        Option.or_none]
    · rw [if_neg hm, if_neg hm, Option.orElse_eq_orElse, Option.orElse_eq_or, Option.or_none]
  | dialog callId localTag remoteTag => rfl
  | ofMethod m => rfl

end SipIdParts

/-! ## Collisions -/

open SipIdParts

/-- **Keys of different things collide**: the `-` belongs to one tag or to the other, a tag is
missing or is the word `null`, a dialog looks like a client transaction, the CSeq number is
negative, a method or a branch has a `-`, and an ACK is an INVITE. -/
theorem id_collisions :
    getDialogId "call".toList (some "a-b".toList) (some "c".toList) =
      getDialogId "call".toList (some "a".toList) (some "b-c".toList) ∧
    getDialogId "call".toList (some "a".toList) none =
      getDialogId "call".toList (some "a".toList) (some "null".toList) ∧
    getDialogId "call-1-INVITE".toList (some "client".toList) (some "z9hG4bK1".toList) =
      getTransactionId true "call".toList 1 "INVITE".toList none (some "z9hG4bK1".toList) ∧
    getTransactionId true "call".toList (-1) "INVITE".toList none (some "z9hG4bK1".toList) =
      getTransactionId true "call-".toList 1 "INVITE".toList none (some "z9hG4bK1".toList) ∧
    getTransactionId true "call".toList 1 "2-INFO".toList none (some "z9hG4bK1".toList) =
      getTransactionId true "call-1".toList 2 "INFO".toList none (some "z9hG4bK1".toList) ∧
    getTransactionId true "call".toList 1 "INVITE".toList none
        (some "x-2-INVITE-client-y".toList) =
      getTransactionId true "call-1-INVITE-client-x".toList 2 "INVITE".toList none
        (some "y".toList) ∧
    getTransactionId true "call".toList 1 "ACK".toList none (some "z9hG4bK1".toList) =
      getTransactionId true "call".toList 1 "INVITE".toList none (some "z9hG4bK1".toList) := by
  decide +kernel

/-- **An identifier determines its parts**, when no component but the Call-ID has a `-` and the
words that the source puts in are not used otherwise. -/
theorem id_injective {p q : SipIdParts} (hp : p.Plain) (hq : q.Plain) :
    p.id = q.id ↔ p.used = q.used := by
  constructor
  · intro h
    cases p with
    | transaction uac callId seqn method sentBy branch =>
      cases q with
      | transaction _ _ _ _ _ _ => exact getTransactionId_inj hp hq h
      | dialog _ _ _ => exact absurd h (transaction_ne_dialog hp hq)
      | ofMethod m => exact absurd h.symm (ofMethod_ne hq)
    | dialog callId localTag remoteTag =>
      cases q with
      | transaction _ _ _ _ _ _ => exact absurd h.symm (transaction_ne_dialog hq hp)
      | dialog _ _ _ => exact getDialogId_inj hp hq h
      | ofMethod m => exact absurd h.symm (ofMethod_ne hq)
    | ofMethod m =>
      cases q with
      | transaction _ _ _ _ _ _ => exact absurd h (ofMethod_ne hp)
      | dialog _ _ _ => exact absurd h (ofMethod_ne hp)
      | ofMethod m' => exact congrArg ofMethod h
  · intro h
    rw [← id_used p, ← id_used q, h]

/-- An ACK and its INVITE have one identifier, and it is used for nothing else. -/
theorem id_injective_invite :
    let ack := transaction true "a-1@b".toList 1 "ACK".toList none (some "z9hG4bK1".toList)
    let invite := transaction true "a-1@b".toList 1 "INVITE".toList (some "10.0.0.1:5060".toList)
      (some "z9hG4bK1".toList)
    (ack.Plain ∧ invite.Plain) ∧ (ack.id = invite.id ↔ ack.used = invite.used) :=
  ⟨by decide, id_injective (by decide) (by decide)⟩

end SoftPhone
