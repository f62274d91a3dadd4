import SoftPhone.Dialog.LocalCSeq
import SoftPhone.Machine.InOrder

/-!
# The reliable responses of an INVITE

Reliable provisional responses have numbers, and each INVITE has a stream of them.  The
listener should get each stream in order.  The dialog keeps one number, the last one that
it has delivered for any INVITE, and it delivers what has a higher one.

That is the same thing as long as the comparison with this number comes out as the order
of the stream asks for (`InTurn`): the first response of an INVITE is above it, and a later
one is above it exactly when it is the next one of its INVITE.
-/

namespace SoftPhone

open Machine

/-- What a PRACK for the response says. -/
def SipMessage.confirmation (m : SipMessage) : Option RAck :=
  m.rseq.map fun n => ⟨n, m.cseq, m.cseqMethod⟩

/-- What concerns the transaction `a`, in order. -/
def ofAgent {α : Type} (a : Agent) (l : List (Agent × α)) : List α :=
  l.filterMap fun p => if p.1 = a then some p.2 else none

theorem ofAgent_append {α : Type} (a : Agent) (l l' : List (Agent × α)) :
    ofAgent a (l ++ l') = ofAgent a l ++ ofAgent a l' :=
  List.filterMap_append

namespace World

variable {S : SipStack}

/-- The reliable response for an INVITE that the event passes to the dialog, and its client
transaction. -/
def reliable (S : SipStack) (w : World) (e : Event) : List (Agent × SipMessage) :=
  match w.clientCallback S e with
  | some (a, req, .onTransProvisionalResponse m) =>
    if req.getTransactionMethod = .invite ∧ m.requires otag100rel = true ∧ m.rseq.isSome then
      [(a, m)]
    else []
  | _ => []

/-- The reliable responses that the event passes to the listener, and the client transaction
that they come from. -/
def delivered (S : SipStack) (w : World) (e : Event) : List (Agent × SipMessage) :=
  (((deliveries (w.step S e).log).take
    ((deliveries (w.step S e).log).length - (deliveries w.log).length)).reverse).map fun m =>
      (((w.clientCallback S e).map (·.1)).getD .dialog, m)

/-- What the PRACKs say that the dialog sends by itself for a provisional response, and the
client transaction that the response comes from. -/
def pracked (S : SipStack) (w : World) (e : Event) : List (Agent × Option RAck) :=
  match w.clientCallback S e with
  | some (a, _, .onTransProvisionalResponse _) =>
    ((w.started S e).filter (·.is .prack)).map fun m => (a, m.rack)
  | _ => []

/-- The dialog finds a reliable response fresh exactly when it is the next one of its
INVITE; with automatic PRACK it must be able to make one. -/
def InTurn (S : SipStack) (p : World × List (Agent × SipMessage)) (e : Event) : Prop :=
  ∀ q ∈ p.1.reliable S e,
    (p.1.FreshReliable q.2 ∧ (S.autoPrack = true → (p.1.early S q.2).Named)) ↔
      IsNext SipMessage.rseq (lastFrom SipMessage.rseq none (ofAgent q.1 p.2)) q.2

instance (p : World × List (Agent × SipMessage)) (e : Event) : Decidable (InTurn S p e) :=
  inferInstanceAs (Decidable (∀ q ∈ p.1.reliable S e, _))

theorem delivered_of_eq {w : World} {e : Event}
    (h : deliveries (w.step S e).log = deliveries w.log) : w.delivered S e = [] := by
  unfold delivered
  rw [h, Nat.sub_self]
  rfl

theorem delivered_of_cons {w : World} {e : Event} {m : SipMessage}
    (h : deliveries (w.step S e).log = m :: deliveries w.log) :
    w.delivered S e = [(((w.clientCallback S e).map (·.1)).getD .dialog, m)] := by
  unfold delivered
  rw [h, List.length_cons, Nat.add_sub_cancel_left]
  rfl

/-- An event delivers the reliable response that it brings, if the dialog takes it. -/
theorem delivered_step (w : World) (e : Event) :
    w.delivered S e = (w.reliable S e).filter fun q => w.Delivers S .invite q.2 := by
  cases hc : w.clientCallback S e with
  | none =>
    rw [delivered_of_eq (calm_step hc).deliveries, reliable, hc]
    rfl
  | some p =>
    obtain ⟨a, req, c⟩ := p
    have hother (h : w.delivered S e = []) (hr : w.reliable S e = []) :
        w.delivered S e = (w.reliable S e).filter fun q => w.Delivers S .invite q.2 := by
      rw [h, hr]
      rfl
    cases c with
    | onTransProvisionalResponse m =>
      have hspec := step_provisional hc
      have hreliable : w.reliable S e = if req.getTransactionMethod = .invite ∧
          m.requires otag100rel = true ∧ m.rseq.isSome then [(a, m)] else [] := by
        simp only [reliable, hc]
      split at hspec
      · next hdelivers =>
        obtain ⟨hmethod, hfresh, hnamed⟩ := hdelivers
        have hrel : req.getTransactionMethod = .invite ∧ m.requires otag100rel = true ∧
            m.rseq.isSome := by
          obtain ⟨hreq, n, hn, -⟩ := hfresh
          exact ⟨hmethod, hreq, by rw [Option.mem_def.mp hn]; rfl⟩
        have htakes : w.Delivers S .invite m := ⟨rfl, hfresh, hnamed⟩
        rw [delivered_of_cons hspec.deliveries, hreliable, if_pos hrel, hc,
          List.filter_cons_of_pos (by simpa using htakes)]
        rfl
      · next hnot =>
        rw [delivered_of_eq hspec.toCalm.deliveries, hreliable]
        split
        · next hrel =>
          have hleaves : ¬ w.Delivers S .invite m := fun h => hnot ⟨hrel.1, h.2⟩
          rw [List.filter_cons_of_neg (by simpa using hleaves)]
          rfl
        · rfl
    | onTransSuccessResponse m =>
      exact hother (delivered_of_eq (step_success hc).deliveries) (by simp only [reliable, hc])
    | onTransFailureResponse m =>
      have hspec := step_failure hc
      refine hother (delivered_of_eq ?_) (by simp only [reliable, hc])
      split at hspec
      · exact hspec.deliveries
      · exact hspec.toCalm.deliveries
    | onTransTimeout =>
      exact hother (delivered_of_eq (step_timeout hc).toCalm.deliveries)
        (by simp only [reliable, hc])

/-- With automatic PRACK, an event sends a PRACK for what it delivers. -/
theorem pracked_step (hauto : S.autoPrack = true) (w : World) (e : Event) :
    w.pracked S e = (w.delivered S e).map fun q => (q.1, q.2.confirmation) := by
  rw [delivered_step]
  cases hc : w.clientCallback S e with
  | none => simp only [pracked, reliable, hc, List.filter_nil, List.map_nil]
  | some p =>
    obtain ⟨a, req, c⟩ := p
    cases c with
    | onTransProvisionalResponse m =>
      have hspec := step_provisional hc
      have hpracked : w.pracked S e =
          ((w.started S e).filter (·.is .prack)).map fun m => (a, m.rack) := by
        simp only [pracked, hc]
      rw [hpracked, ← delivered_step]
      split at hspec
      · obtain ⟨prack, n, hn, hprack, hrack, hstarts⟩ := hspec.pracks hauto
        have honly : [prack].filter (fun m => m.is .prack) = [prack] :=
          List.filter_cons_of_pos hprack
        rw [started_of_launches hstarts.toLaunches, honly, delivered_of_cons hspec.deliveries, hc]
        show [(a, prack.rack)] = [(a, m.confirmation)]
        rw [hrack, SipMessage.confirmation, hn]
        rfl
      · rw [started_of_still hspec.toStill, delivered_of_eq hspec.toCalm.deliveries]
        rfl
    | onTransSuccessResponse m => simp only [pracked, reliable, hc, List.filter_nil, List.map_nil]
    | onTransFailureResponse m => simp only [pracked, reliable, hc, List.filter_nil, List.map_nil]
    | onTransTimeout => simp only [pracked, reliable, hc, List.filter_nil, List.map_nil]

/-- An event brings at most one reliable response, and it has a number. -/
theorem reliable_step (w : World) (e : Event) :
    w.reliable S e = [] ∨ ∃ a m, w.reliable S e = [(a, m)] ∧ m.rseq.isSome = true := by
  unfold reliable
  split
  · split
    · next h => exact .inr ⟨_, _, rfl, h.2.2⟩
    · exact .inl rfl
  · exact .inl rfl

/-! ## A run -/

/-- When the comparisons come out right, an event delivers what is next. -/
theorem delivered_inTurn {w : World} {l : List (Agent × SipMessage)} {e : Event}
    (h : InTurn S (w, l) e) (a : Agent) :
    ofAgent a (w.delivered S e) =
      inOrderFrom SipMessage.rseq (lastFrom SipMessage.rseq none (ofAgent a l))
        (ofAgent a (w.reliable S e)) := by
  rw [delivered_step]
  rcases reliable_step (S := S) w e with hnone | ⟨b, m, hone, -⟩
  · rw [hnone]
    rfl
  · have hturn : w.Delivers S .invite m ↔
        IsNext SipMessage.rseq (lastFrom SipMessage.rseq none (ofAgent b l)) m := by
      rw [← h (b, m) (by rw [hone]; exact List.mem_singleton_self _)]
      exact and_iff_right rfl
    rw [hone]
    by_cases hb : b = a
    · subst hb
      have hsame : ofAgent b [(b, m)] = [m] := by simp [ofAgent]
      rw [hsame, inOrderFrom]
      by_cases hnext : IsNext SipMessage.rseq (lastFrom SipMessage.rseq none (ofAgent b l)) m
      · rw [if_pos hnext, List.filter_cons_of_pos (by simpa using hturn.mpr hnext)]
        exact hsame
      · rw [if_neg hnext, List.filter_cons_of_neg (by simpa using fun h => hnext (hturn.mp h))]
        rfl
    · have hother : ofAgent a [(b, m)] = [] := by simp [ofAgent, hb]
      rw [hother, List.filter_singleton]
      cases decide (w.Delivers S .invite m) with
      | true => exact hother
      | false => rfl

theorem ofAgent_delivered {w : World} {l : List (Agent × SipMessage)} {es : List Event}
    (hes : Meets (recording (step S) (reliable S)) (InTurn S) (w, l) es) (a : Agent) :
    ofAgent a (outputs (step S) (delivered S) w es) =
      inOrderFrom SipMessage.rseq (lastFrom SipMessage.rseq none (ofAgent a l))
        (ofAgent a (outputs (step S) (reliable S) w es)) := by
  induction es generalizing w l with
  | nil => rfl
  | cons e es ih =>
    rw [outputs_cons, outputs_cons, ofAgent_append, ofAgent_append, inOrderFrom_append,
      delivered_inTurn hes.1 a, ih hes.2, ofAgent_append, lastFrom_append]

theorem ofAgent_pracked (hauto : S.autoPrack = true) (w : World) (es : List Event) (a : Agent) :
    ofAgent a (outputs (step S) (pracked S) w es) =
      (ofAgent a (outputs (step S) (delivered S) w es)).map SipMessage.confirmation := by
  induction es generalizing w with
  | nil => rfl
  | cons e es ih =>
    rw [outputs_cons, outputs_cons, ofAgent_append, ofAgent_append, List.map_append, ih,
      pracked_step hauto]
    congr 1
    unfold ofAgent
    rw [List.filterMap_map, List.map_filterMap]
    congr 1
    funext q
    dsimp only [Function.comp]
    split <;> rfl

theorem reliable_isSome (w : World) (es : List Event) (a : Agent) :
    ∀ m ∈ ofAgent a (outputs (step S) (reliable S) w es), m.rseq.isSome = true := by
  induction es generalizing w with
  | nil => exact fun m hm => nomatch hm
  | cons e es ih =>
    intro m hm
    rw [outputs_cons, ofAgent_append] at hm
    rcases List.mem_append.mp hm with hm | hm
    · rcases reliable_step (S := S) w e with hnone | ⟨b, m', hone, hm'⟩
      · rw [hnone] at hm
        cases hm
      · rw [hone] at hm
        by_cases hb : b = a
        · simp only [ofAgent, hb, List.filterMap_cons, if_true, List.filterMap_nil,
            List.mem_singleton] at hm
          rw [hm]
          exact hm'
        · simp [ofAgent, hb] at hm
    · exact ih _ m hm

/-- A reliable response for the INVITE. -/
def sampleReliable (invite : SipMessage) (rseq : ℤ) : SipMessage :=
  { sampleResponse invite 183 with requireTags := some [otag100rel], rseq := some rseq }

/-- Alice's INVITE gets a reliable response, the same one again, and the next one. -/
def sampleProgress : List Event :=
  [.api (.inviteMessage sampleInvite), .recv (sampleReliable sampleInvite 5), .ret,
    .recv (sampleReliable sampleInvite 5), .ret, .recv (sampleReliable sampleInvite 6), .ret]

/-- The number after the first one is missing. -/
def sampleGap : List Event :=
  [.api (.inviteMessage sampleInvite), .recv (sampleReliable sampleInvite 5), .ret,
    .recv (sampleReliable sampleInvite 7), .ret]

/-- After the call is established, alice invites again, and bob starts to count from one. -/
def sampleRestart : List Event :=
  sampleProgress ++ [.recv (sampleResponse sampleInvite 200), .ret, .ret, .ret, .ret, .ret, .ret,
    .api (.reInvite none "sdp"), .recv (sampleReliable (sampleRequest .invite 4 (some "tag") "3") 1),
    .ret]

end World
end SoftPhone
