import SoftPhone.Dialog.Phase

/-!
# A call stands only when it was answered

A dialog is in D_CALL, or has reported the call, only if some INVITE was answered
with a 2xx: its INVITE client received one, or it passed one to an INVITE itself.

The code does not give this for every run.  `onReceivedInvite` verifies that the
dialog is in D_INIT or D_CALL, and then goes on in any state: an INVITE that comes
while the first one is still unanswered moves the dialog to D_ReINVITED, and from
there a refusal and its ACK lead to D_CALL (`call_of_refusal`).  `InviteInTurn`
excludes such an INVITE, and `answered_of_call` needs nothing else.

The invariant is that every state from D_ACCEPTED on but the last is the result of an
answer, and so is a report of the call that is made or still owed.
-/

namespace SoftPhone

open Machine

/-- The states from D_ACCEPTED on, but for D_CLOSE. -/
def Status.IsAnswered : Status → Prop
  | .accepted | .call | .byeing | .byed => True
  | .reWaiting | .reInviting | .reInvited | .reRefused | .reAccepted => True
  | _ => False

instance : DecidablePred Status.IsAnswered := fun s => by
  unfold Status.IsAnswered
  split <;> infer_instance

namespace World

variable {S : SipStack}

/-- An INVITE is let in only by a dialog that is new or whose first INVITE was
answered. -/
def InviteInTurn (S : SipStack) (w : World) (e : Event) : Prop :=
  LetsIn S w e → w.status = .init ∨ w.status.IsAnswered

instance (S : SipStack) (w : World) (e : Event) : Decidable (InviteInTurn S w e) :=
  inferInstanceAs (Decidable (_ → _))

end World

/-- What needs an answer: an answered state, and a report of the call that is made or
owed. -/
def Phase.NeedsAnswer (p : Phase) : Prop :=
  p.status.IsAnswered ∨ .fireDlgCall ∈ p.pending ∨ .onDlgCall ∈ p.reported

/-- A move from what needs no answer to what needs one is an answer, or an INVITE let
in out of turn. -/
theorem PhaseStep.needsAnswer {p p' : Phase} {t : Turn} (h : PhaseStep p t p')
    (hn : p'.NeedsAnswer) :
    p.NeedsAnswer ∨ (t = .accepts ∨ t = .succeeds) ∨
      t = .invited ∧ ¬ (p.status = .init ∨ p.status.IsAnswered) := by
  have hstatus {s : Status} (hs : p.status = s) (ha : s.IsAnswered) : p.NeedsAnswer :=
    .inl (hs ▸ ha)
  have hrest (h : .fireDlgCall ∈ p.pending ∨ .onDlgCall ∈ p.reported) : p.NeedsAnswer := .inr h
  cases h with
  | stays => exact .inl hn
  | listens => exact .inl (hrest (hn.resolve_left id))
  | invites => exact .inl (hrest (hn.resolve_left id))
  | reInvites h => exact .inl (hstatus h trivial)
  | invited s _ _ hfirst =>
    by_cases hinit : p.status = .init
    · refine .inl (hrest (hn.resolve_left ?_))
      rcases hfirst hinit with rfl | rfl <;> exact id
    · by_cases ha : p.status.IsAnswered
      · exact .inl (.inl ha)
      · exact .inr (.inr ⟨rfl, by simp [hinit, ha]⟩)
  | awaited s _ hs =>
    refine .inl (hrest (hn.resolve_left ?_))
    rcases hs with rfl | rfl <;> exact id
  | accepts => exact .inr (.inl (.inl rfl))
  | refuses h =>
    rcases h with h | h
    · refine .inl (hrest (hn.resolve_left ?_))
      rw [if_pos h]
      exact id
    · exact .inl (hstatus h trivial)
  | acked h => exact .inl (h.elim (hstatus · trivial) (hstatus · trivial))
  | succeeds => exact .inr (.inl (.inr rfl))
  | reSucceeds h => exact .inl (hstatus h trivial)
  | reFails h => exact .inl (hstatus h trivial)
  | byes h => exact .inl (hstatus h trivial)
  | byeFails h => exact .inl (hstatus h trivial)
  | byed h => exact .inl (h.elim (hstatus · trivial) (hstatus · trivial))
  | closes =>
    refine .inl (hrest ((hn.resolve_left id).imp (fun h => ?_) id))
    exact (List.mem_cons.mp h).resolve_left (by decide)
  | byeTimeout h => exact .inl (hstatus h trivial)
  | refusalAcked h => exact .inl (hstatus h trivial)
  | lost =>
    refine .inl (hrest ((hn.resolve_left id).imp id (fun h => ?_)))
    exact (List.mem_cons.mp h).resolve_left (by decide)
  | terminates =>
    refine .inl (hrest ((hn.resolve_left id).imp id (fun h => ?_)))
    exact (List.mem_cons.mp h).resolve_left (by decide)
  | reportsCall ps h => exact .inl (hrest (.inl (h ▸ List.mem_cons_self ..)))
  | reportsClosed ps h =>
    refine .inl (hn.elim .inl fun h' => hrest (h'.imp (fun h' => ?_) fun h' => ?_))
    · exact h ▸ List.mem_cons_of_mem _ h'
    · exact (List.mem_cons.mp h').resolve_left (by decide)
  | closesAfterBye ps h =>
    refine .inl (hrest ((hn.resolve_left id).imp (fun h' => ?_) fun h' => ?_))
    · exact h ▸ List.mem_cons_of_mem _ h'
    · exact (List.mem_cons.mp h').resolve_left (by decide)

namespace World

variable {S : SipStack}

/-- Whatever needs an answer has one. -/
def CallAnswered (w : World) : Prop :=
  w.phase.NeedsAnswer → Answered w.log

theorem callAnswered_step {w w' : World} {e : Event} {t : Turn} (ht : Turns S w e t w')
    (hturn : InviteInTurn S w e) (h : CallAnswered w) : CallAnswered w' := by
  intro hn
  rcases ht.phase.needsAnswer hn with hn | hanswer | ⟨hinvited, hout⟩
  · exact (h hn).mono ht.log
  · exact ht.answer hanswer
  · exact absurd (hturn (ht.invited hinvited)) hout

theorem Start.callAnswered (hS : S.extended = false) {w : World} (h : Start S w) :
    CallAnswered w := by
  obtain ⟨s, hs, hphase⟩ := h.phase_eq hS
  intro hn
  rw [hphase] at hn
  rcases hs with rfl | rfl | rfl <;> simp [Phase.NeedsAnswer, Status.IsAnswered] at hn

end World
end SoftPhone
