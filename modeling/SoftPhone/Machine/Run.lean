import Mathlib.Data.List.Basic
import Mathlib.Data.List.Induction
import Mathlib.Data.Nat.Notation

/-!
# Runs of an event-driven machine

A machine is a function `step : σ → ε → σ`: one state, one event, the next
state.  An event that is not enabled leaves the state as it is, so a run is a
list of events and nothing has to be said about which of them fire.

Two forms of the same induction are needed.  `run_invariant` is the plain one.
`run_invariant_of_meets` is for a property that holds only while the events
avoid some situation: `Meets step G s es` says that every event of `es` meets
the condition `G` in the state it finds, and the invariant has to survive only
those events.
-/

namespace SoftPhone
namespace Machine

variable {σ ε : Type*}

/-- The state after the events `es`, taken in order. -/
def run (step : σ → ε → σ) (s : σ) (es : List ε) : σ :=
  es.foldl step s

@[simp] theorem run_nil (step : σ → ε → σ) (s : σ) : run step s [] = s := rfl

@[simp] theorem run_cons (step : σ → ε → σ) (s : σ) (e : ε) (es : List ε) :
    run step s (e :: es) = run step (step s e) es := rfl

theorem run_append (step : σ → ε → σ) (s : σ) (es fs : List ε) :
    run step s (es ++ fs) = run step (run step s es) fs :=
  List.foldl_append

/-- Every event of the list meets `G` in the state it finds. -/
def Meets (step : σ → ε → σ) (G : σ → ε → Prop) : σ → List ε → Prop
  | _, [] => True
  | s, e :: es => G s e ∧ Meets step G (step s e) es

@[simp] theorem meets_nil (step : σ → ε → σ) (G : σ → ε → Prop) (s : σ) :
    Meets step G s [] := trivial

@[simp] theorem meets_cons (step : σ → ε → σ) (G : σ → ε → Prop) (s : σ) (e : ε)
    (es : List ε) :
    Meets step G s (e :: es) ↔ G s e ∧ Meets step G (step s e) es := Iff.rfl

instance decidableMeets {step : σ → ε → σ} {G : σ → ε → Prop} [∀ s e, Decidable (G s e)] :
    ∀ (s : σ) (es : List ε), Decidable (Meets step G s es)
  | _, [] => isTrue trivial
  | s, e :: es =>
    have : Decidable (Meets step G (step s e) es) := decidableMeets (step s e) es
    inferInstanceAs (Decidable (G s e ∧ Meets step G (step s e) es))

/-- A stronger condition is met by fewer runs. -/
theorem Meets.mono {step : σ → ε → σ} {G H : σ → ε → Prop} (hGH : ∀ s e, G s e → H s e) :
    ∀ {s : σ} {es : List ε}, Meets step G s es → Meets step H s es
  | _, [], _ => trivial
  | _, _ :: _, h => ⟨hGH _ _ h.1, Meets.mono hGH h.2⟩

/-- An invariant kept by every event that meets `G` holds after every run whose
events do. -/
theorem run_invariant_of_meets {step : σ → ε → σ} {G : σ → ε → Prop} {I : σ → Prop}
    (hstep : ∀ s e, G s e → I s → I (step s e)) {s : σ} {es : List ε}
    (h : Meets step G s es) (hs : I s) : I (run step s es) := by
  induction es generalizing s with
  | nil => exact hs
  | cons e es ih => exact ih h.2 (hstep s e h.1 hs)

/-- An invariant kept by every event holds after every run. -/
theorem run_invariant {step : σ → ε → σ} {I : σ → Prop}
    (hstep : ∀ s e, I s → I (step s e)) {s : σ} (es : List ε) (hs : I s) :
    I (run step s es) := by
  induction es generalizing s with
  | nil => exact hs
  | cons e es ih => exact ih (hstep s e hs)

/-- When every event that meets `G` keeps an invariant, and an event that does not meet `G`
ends in a state without the property `P` of the invariant, the runs that have the property
throughout are the ones whose events meet `G`. -/
theorem meets_iff_forall_prefix_of_invariant {step : σ → ε → σ} {G : σ → ε → Prop}
    {I P : σ → Prop} (hprop : ∀ s, I s → P s) (hstep : ∀ s e, G s e → I s → I (step s e))
    (hmeets : ∀ s e, I s → P (step s e) → G s e) {s : σ} (hs : I s) (es : List ε) :
    Meets step G s es ↔ ∀ fs, fs <+: es → P (run step s fs) := by
  induction es generalizing s with
  | nil =>
    refine iff_of_true trivial fun fs hfs => ?_
    rw [List.prefix_nil.mp hfs]
    exact hprop s hs
  | cons e es ih =>
    rw [meets_cons]
    constructor
    · rintro ⟨he, hes⟩ fs hfs
      cases fs with
      | nil => exact hprop s hs
      | cons f fs =>
        obtain ⟨rfl, hrest⟩ := List.cons_prefix_cons.mp hfs
        exact (ih (hstep s f he hs)).mp hes fs hrest
    · intro h
      have he : G s e :=
        hmeets s e hs (h [e] (List.cons_prefix_cons.mpr ⟨rfl, List.nil_prefix⟩))
      refine ⟨he, (ih (hstep s e he hs)).mpr fun fs hfs => ?_⟩
      exact h (e :: fs) (List.cons_prefix_cons.mpr ⟨rfl, hfs⟩)

/-- When every event keeps an invariant exactly under `G`, the runs that keep it throughout are
the ones whose events meet `G`. -/
theorem meets_iff_forall_prefix {step : σ → ε → σ} {G : σ → ε → Prop} {I : σ → Prop}
    (hstep : ∀ s e, I s → (I (step s e) ↔ G s e)) {s : σ} (hs : I s) (es : List ε) :
    Meets step G s es ↔ ∀ fs, fs <+: es → I (run step s fs) :=
  meets_iff_forall_prefix_of_invariant (fun _ h => h) (fun s e he h => (hstep s e h).mpr he)
    (fun s e h => (hstep s e h).mp) hs es

/-! ## Outputs -/

variable {ω : Type*}

/-- What a run puts out, in order, when one event puts out `out s e`. -/
def outputs (step : σ → ε → σ) (out : σ → ε → List ω) : σ → List ε → List ω
  | _, [] => []
  | s, e :: es => out s e ++ outputs step out (step s e) es

@[simp] theorem outputs_nil (step : σ → ε → σ) (out : σ → ε → List ω) (s : σ) :
    outputs step out s [] = [] := rfl

@[simp] theorem outputs_cons (step : σ → ε → σ) (out : σ → ε → List ω) (s : σ) (e : ε)
    (es : List ε) :
    outputs step out s (e :: es) = out s e ++ outputs step out (step s e) es := rfl

theorem outputs_append (step : σ → ε → σ) (out : σ → ε → List ω) (s : σ) (es fs : List ε) :
    outputs step out s (es ++ fs) =
      outputs step out s es ++ outputs step out (run step s es) fs := by
  induction es generalizing s with
  | nil => rfl
  | cons e es ih => rw [List.cons_append, outputs_cons, ih, outputs_cons, run_cons, List.append_assoc]

/-- A relation between the events of a run, what it puts out and the state it reaches
holds after every run, if one more event keeps it. -/
theorem outputs_invariant {step : σ → ε → σ} {out : σ → ε → List ω}
    {I : List ε → List ω → σ → Prop} {s : σ} (hs : I [] [] s)
    (hstep : ∀ es os s e, I es os s → I (es ++ [e]) (os ++ out s e) (step s e))
    (es : List ε) : I es (outputs step out s es) (run step s es) := by
  induction es using List.reverseRecOn with
  | nil => exact hs
  | append_singleton es e ih =>
    rw [outputs_append, run_append, outputs_cons, outputs_nil, List.append_nil]
    exact hstep es _ _ e ih

/-- The machine that remembers what it has put out. -/
def recording (step : σ → ε → σ) (out : σ → ε → List ω) (p : σ × List ω) (e : ε) : σ × List ω :=
  (step p.1 e, p.2 ++ out p.1 e)

theorem run_recording (step : σ → ε → σ) (out : σ → ε → List ω) (s : σ) (os : List ω)
    (es : List ε) :
    run (recording step out) (s, os) es = (run step s es, os ++ outputs step out s es) := by
  induction es generalizing s os with
  | nil => rw [outputs_nil, List.append_nil, run_nil, run_nil]
  | cons e es ih =>
    rw [run_cons, run_cons, outputs_cons, ← List.append_assoc]
    exact ih (step s e) (os ++ out s e)

/-- What holds of the remembered outputs after every run whose events meet a condition on
the state and on what was put out before. -/
theorem outputs_of_meets {step : σ → ε → σ} {out : σ → ε → List ω} {G : σ × List ω → ε → Prop}
    {I : σ × List ω → Prop} (hstep : ∀ p e, G p e → I p → I (recording step out p e)) {s : σ}
    {es : List ε} (h : Meets (recording step out) G (s, []) es) (hs : I (s, [])) :
    I (run step s es, outputs step out s es) := by
  have hrun := run_invariant_of_meets hstep h hs
  rwa [run_recording, List.nil_append] at hrun

/-- A machine that has gone silent stays silent. -/
theorem outputs_eq_nil {step : σ → ε → σ} {out : σ → ε → List ω} {E : ε → Prop} {I : σ → Prop}
    (hstep : ∀ s e, E e → I s → out s e = [] ∧ I (step s e)) {s : σ} {es : List ε}
    (hes : ∀ e ∈ es, E e) (hs : I s) : outputs step out s es = [] := by
  induction es generalizing s with
  | nil => rfl
  | cons e es ih =>
    obtain ⟨hout, hnext⟩ := hstep s e (hes e (List.mem_cons_self ..)) hs
    rw [outputs_cons, hout, List.nil_append]
    exact ih (fun e' he' => hes e' (List.mem_cons_of_mem e he')) hnext

/-- **One last output.**  An open machine puts out early outputs, or one that is not
early and closes it; a closed machine is silent.  So a run puts out early outputs and
at most one other, which is the last. -/
theorem outputs_early_append {step : σ → ε → σ} {out : σ → ε → List ω} {E : ε → Prop}
    {I O : σ → Prop} {P : ω → Prop} (hstep : ∀ s e, E e → I s → I (step s e))
    (hclosed : ∀ s e, E e → I s → ¬ O s → out s e = [] ∧ ¬ O (step s e))
    (hopen : ∀ s e, E e → I s → (∀ o ∈ out s e, P o) ∨
      ∃ o, out s e = [o] ∧ ¬ P o ∧ ¬ O (step s e)) {s : σ} {es : List ε}
    (hes : ∀ e ∈ es, E e) (hs : I s) :
    ∃ early last, outputs step out s es = early ++ Option.toList last ∧
      (∀ o ∈ early, P o) ∧ ∀ o ∈ last, ¬ P o := by
  induction es generalizing s with
  | nil => exact ⟨[], none, rfl, by simp, by simp⟩
  | cons e es ih =>
    have he : E e := hes e (List.mem_cons_self ..)
    have hes' : ∀ e' ∈ es, E e' := fun e' he' => hes e' (List.mem_cons_of_mem e he')
    rw [outputs_cons]
    rcases hopen s e he hs with hearly | ⟨o, ho, hlast, hnot⟩
    · obtain ⟨early, last, heq, hP, hnP⟩ := ih hes' (hstep s e he hs)
      refine ⟨out s e ++ early, last, by rw [heq, List.append_assoc], ?_, hnP⟩
      intro o ho
      rcases List.mem_append.mp ho with ho | ho
      · exact hearly o ho
      · exact hP o ho
    · have hsilent : outputs step out (step s e) es = [] :=
        outputs_eq_nil (I := fun s => I s ∧ ¬ O s)
          (fun s e he h => ⟨(hclosed s e he h.1 h.2).1, hstep s e he h.1, (hclosed s e he h.1 h.2).2⟩)
          hes' ⟨hstep s e he hs, hnot⟩
      exact ⟨[], some o, by rw [ho, hsilent]; rfl, by simp, by simpa using hlast⟩

/-! ## Two machines in lockstep

Two machines on the same events that stay in a relation `R` and put out the same in each step put
out the same in every run. -/

section Lockstep

variable {τ : Type*} {step : σ → ε → σ} {step' : τ → ε → τ} {out : σ → ε → List ω}
  {out' : τ → ε → List ω} {E : ε → Prop} {R : σ → τ → Prop}

/-- The states that two machines in lockstep reach are in the relation. -/
theorem run_of_lockstep (hstep : ∀ s t e, E e → R s t → R (step s e) (step' t e)) {s : σ} {t : τ}
    {es : List ε} (hes : ∀ e ∈ es, E e) (hst : R s t) : R (run step s es) (run step' t es) := by
  induction es generalizing s t with
  | nil => exact hst
  | cons e es ih =>
    exact ih (fun e' he' => hes e' (List.mem_cons_of_mem e he'))
      (hstep s t e (hes e (List.mem_cons_self ..)) hst)

/-- Two machines in lockstep put out the same. -/
theorem outputs_of_lockstep (hstep : ∀ s t e, E e → R s t → R (step s e) (step' t e))
    (hout : ∀ s t e, E e → R s t → out s e = out' t e) {s : σ} {t : τ} {es : List ε}
    (hes : ∀ e ∈ es, E e) (hst : R s t) : outputs step out s es = outputs step' out' t es := by
  induction es generalizing s t with
  | nil => rfl
  | cons e es ih =>
    have he := hes e (List.mem_cons_self ..)
    rw [outputs_cons, outputs_cons, hout s t e he hst,
      ih (fun e' he' => hes e' (List.mem_cons_of_mem e he')) (hstep s t e he hst)]

end Lockstep

end Machine
end SoftPhone
