import SoftPhone.Text.Segments

/-!
# The loops over the parameters

`getParameter` passes the segments of other names (`findParameter_pass`), and what it has read it
reads still when a parameter is added (`findParameter_append`).  `removeParameter` stops at the first
semicolon that is followed by the name, be this one in quotes or not (`cutFrom_stop`).
-/

namespace SoftPhone

open SipParser

namespace ParametricHeader

/-! ## The segments and their words -/

/-- The name of a segment is the word behind a semicolon. -/
theorem exists_word_of_mem {a : Segment} {x : Text} (ha : a ∈ segments x) :
    ∃ z, ';' :: z <:+ ';' :: x ∧ (SipParser.getWord z).1 = a.name := by
  induction hk : x.length using Nat.strong_induction_on generalizing x with
  | _ k ih =>
    rcases exists_first x with hs | ⟨gap, name, tail, rest, rfl, h⟩
    · rw [segments_of_separators hs] at ha
      exact absurd ha List.not_mem_nil
    · rw [segments_first h] at ha
      rcases List.mem_cons.mp ha with rfl | ha
      · exact ⟨_, List.suffix_rfl, by rw [h.getWord]⟩
      · have hlt := h.length_lt
        obtain ⟨z, hz, hword⟩ := ih _ (by omega) ha rfl
        obtain hnil | ⟨-, u, hu⟩ := h.next
        · rw [hnil] at ha
          exact absurd ha (by simp [segments, segmentsFuel])
        · rw [hu] at hz ⊢
          refine ⟨z, hz.trans ?_, hword⟩
          exact ⟨';' :: (gap ++ (name ++ tail)), by simp⟩

theorem mem_getWord {c : Char} {z : Text} (h : c ∈ (SipParser.getWord z).1) : c ∈ z :=
  (List.dropWhile_suffix _).subset ((List.takeWhile_prefix _).subset h)

/-- A text without quotes has names without quotes. -/
theorem unquoted_of_not_mem {x : Text} (hx : '"' ∉ x) : Unquoted (segments x) := by
  intro a ha hmem
  obtain ⟨z, hz, hword⟩ := exists_word_of_mem ha
  rw [← hword] at hmem
  rcases List.mem_cons.mp (hz.subset (List.mem_cons_of_mem _ (mem_getWord hmem))) with h | h
  · exact absurd h (by decide)
  · exact hx h

/-- Where the name stands behind no semicolon, no segment has it. -/
theorem find_eq_none {pname x t : Text} (hclear : clearTail pname t = true)
    (hsuffix : ';' :: x <:+ t) : find pname (segments x) = none := by
  refine List.find?_eq_none.mpr fun a ha hname => ?_
  obtain ⟨z, hz, hword⟩ := exists_word_of_mem ha
  refine clearTail_iff.mp hclear z (hz.trans hsuffix) ?_
  rw [hword]
  exact eq_of_beq hname

/-! ## Passing what has another name -/

theorem findParameter_nil (pname : Text) (n : ℕ) : findParameter pname n [] = some none := by
  cases n with
  | zero => rfl
  | succ n => simp only [findParameter, if_true]

theorem findParameter_of_separators {pname : Text} (hp : pname ≠ []) {s : Text}
    (hs : ∀ c ∈ s, isParamSeparator c = true) (n : ℕ) : findParameter pname n s = some none := by
  cases n with
  | zero => rfl
  | succ n =>
    have hnil : (goToSkippingQuoted ';' []).tail = [] := rfl
    simp only [findParameter, getWord_of_separators hs, Ne.symm hp, if_false, hnil,
      findParameter_nil, ite_self]

theorem First.findParameter_of_ne {pname gap name tail rest : Text} (h : First gap name tail rest)
    (hne : name ≠ pname) (n : ℕ) :
    findParameter pname (n + 1) (gap ++ (name ++ (tail ++ rest))) =
      findParameter pname n rest.tail := by
  have hrest : goToSkippingQuoted ';' (tail ++ rest) = rest := congrArg Prod.snd h.span
  simp only [findParameter, h.ne_nil_text, if_false, h.getWord, hne, hrest]

/-- More fuel does not matter. -/
theorem findParameter_fuel {pname : Text} (hp : pname ≠ []) {n m : ℕ} {s : Text}
    (hn : s.length ≤ n) (hm : s.length ≤ m) : findParameter pname n s = findParameter pname m s := by
  induction hk : s.length using Nat.strong_induction_on generalizing s n m with
  | _ k ih =>
    rcases exists_first s with hs | ⟨gap, name, tail, rest, rfl, h⟩
    · rw [findParameter_of_separators hp hs, findParameter_of_separators hp hs]
    · have hlt := h.length_lt
      obtain ⟨n, rfl⟩ : ∃ l, n = l + 1 := ⟨n - 1, by omega⟩
      obtain ⟨m, rfl⟩ : ∃ l, m = l + 1 := ⟨m - 1, by omega⟩
      by_cases hname : name = pname
      · subst hname
        simp only [findParameter, h.ne_nil_text, if_false, h.getWord, if_true]
      · rw [h.findParameter_of_ne hname, h.findParameter_of_ne hname]
        exact ih _ (by omega) (by omega) (by omega) rfl

theorem findParameter_append_separators {pname gap : Text} (hp : pname ≠ [])
    (hgap : ∀ c ∈ gap, isParamSeparator c = true) {n m : ℕ} {s : Text}
    (hn : (gap ++ s).length ≤ n) (hm : s.length ≤ m) :
    findParameter pname n (gap ++ s) = findParameter pname m s := by
  rw [List.length_append] at hn
  rw [findParameter_fuel hp hm (m := n) (by omega)]
  rcases exists_first s with hs | ⟨g, name, tail, rest, rfl, h⟩
  · have hall : ∀ c ∈ gap ++ s, isParamSeparator c = true := by
      intro c hc
      rcases List.mem_append.mp hc with hc | hc
      · exact hgap c hc
      · exact hs c hc
    rw [findParameter_of_separators hp hs, findParameter_of_separators hp hall]
  · have hne := h.ne_nil_text
    have hne' : gap ++ (g ++ (name ++ (tail ++ rest))) ≠ [] := by simp [h.ne_nil]
    cases n with
    | zero => rfl
    | succ n => simp only [findParameter, hne, hne', if_false, getWord_append_separators hgap]

/-- No quote is open at the end of a parameter. -/
def ClosedTails (s : Text) : Prop := ∀ a ∈ segments s, endsInside false a.tail = false

instance (s : Text) : Decidable (ClosedTails s) :=
  inferInstanceAs (Decidable (∀ a ∈ segments s, endsInside false a.tail = false))

theorem find_eq_none_iff {pname : Text} {l : List Segment} :
    find pname l = none ↔ l.any (·.name == pname) = false := by
  rw [find, List.find?_eq_none, List.any_eq_false]

theorem closedTails_first {gap name tail rest : Text} (h : First gap name tail rest) :
    ClosedTails (gap ++ (name ++ (tail ++ rest))) ↔
      endsInside false tail = false ∧ ClosedTails rest.tail := by
  unfold ClosedTails
  rw [segments_first h, List.forall_mem_cons]

/-- In a text without quotes all parameters are closed. -/
theorem closedTails_of_not_mem {s : Text} (hs : '"' ∉ s) : ClosedTails s := by
  induction hk : s.length using Nat.strong_induction_on generalizing s with
  | _ k ih =>
    rcases exists_first s with hsep | ⟨gap, name, tail, rest, rfl, h⟩
    · intro a ha
      rw [segments_of_separators hsep] at ha
      exact absurd ha List.not_mem_nil
    · have hlt := h.length_lt
      simp only [List.mem_append, not_or] at hs
      exact (closedTails_first h).mpr ⟨endsInside_of_not_mem hs.2.2.1 false,
        ih _ (by omega) (fun hmem => hs.2.2.2 (List.mem_of_mem_tail hmem)) rfl⟩

/-- The last parameter is closed, and another one follows. -/
theorem First.followed {gap name tail : Text} (h : First gap name tail [])
    (hclosed : SipParser.endsInside false tail = false) (u : Text) :
    First gap name tail (';' :: u) := by
  refine ⟨h.separators, h.word, h.ne_nil, ?_, h.skips, .inr ⟨hclosed, u, rfl⟩⟩
  intro c hc
  cases tail with
  | nil =>
    rw [← Option.some.inj hc]
    exact isParamSeparator_semi
  | cons a tail => exact h.stop c hc

/-- **Closed parameters of other names are passed.** -/
theorem findParameter_pass {pname s r : Text} (hp : pname ≠ [])
    (hfind : find pname (segments s) = none) (hclosed : ClosedTails s)
    (hr : r = [] ∨ ∃ u, r = ';' :: u) {n m : ℕ} (hn : (s ++ r).length ≤ n)
    (hm : r.tail.length ≤ m) :
    findParameter pname n (s ++ r) = findParameter pname m r.tail := by
  induction hk : s.length using Nat.strong_induction_on generalizing s n with
  | _ k ih =>
    rcases exists_first s with hs | ⟨gap, name, tail, rest, rfl, h⟩
    · obtain rfl | ⟨u, rfl⟩ := hr
      · rw [List.append_nil, findParameter_of_separators hp hs]
        exact (findParameter_nil pname m).symm
      · have hall : ∀ c ∈ s ++ [';'], isParamSeparator c = true := by
          rw [List.forall_mem_append]
          exact ⟨hs, by decide⟩
        rw [List.append_cons] at hn ⊢
        exact findParameter_append_separators hp hall hn hm
    · rw [segments_first h] at hfind
      have hlt := h.length_lt
      have hne : name ≠ pname := by
        rintro rfl
        simp [find] at hfind
      obtain ⟨htail, hclosed⟩ := (closedTails_first h).mp hclosed
      rw [List.length_append] at hn
      obtain ⟨n, rfl⟩ : ∃ l, n = l + 1 := ⟨n - 1, by omega⟩
      obtain hnil | ⟨-, v, hv⟩ := h.next
      · subst hnil
        have hnext : First gap name tail r := by
          obtain rfl | ⟨u, rfl⟩ := hr
          · exact h
          · exact h.followed htail u
        have hassoc : gap ++ (name ++ (tail ++ [])) ++ r = gap ++ (name ++ (tail ++ r)) := by simp
        rw [hassoc, hnext.findParameter_of_ne hne]
        exact findParameter_fuel hp (by rw [List.length_tail]; omega) hm
      · subst hv
        rw [List.tail_cons] at hfind hclosed hlt
        have hassoc : gap ++ (name ++ (tail ++ ';' :: v)) ++ r =
            gap ++ (name ++ (tail ++ ';' :: (v ++ r))) := by simp
        have hnext : First gap name tail (';' :: (v ++ r)) := h.replace (by simp)
        rw [hassoc, hnext.findParameter_of_ne hne, List.tail_cons]
        refine ih v.length (by omega) ?_ hclosed (by rw [List.length_append]; omega) rfl
        unfold find at hfind ⊢
        rwa [List.find?_cons_of_neg (by simpa using hne)] at hfind

/-! ## The name that is found first -/

/-- Behind the semicolons up to a word stands this word. -/
theorem clearTail_word {pname a gap w y : Text} (ha : ';' ∉ a)
    (hgap : ∀ c ∈ gap, isParamSeparator c = true) (hw : ∀ c ∈ w, isParamSeparator c = false)
    (hne : w ≠ []) (hstop : ∀ c ∈ y.head?, isParamSeparator c = true) (hother : w ≠ pname)
    (hclear : clearTail pname y = true) :
    clearTail pname (a ++ ';' :: (gap ++ (w ++ y))) = true := by
  rw [clearTail_iff] at hclear ⊢
  intro z hz
  have hassoc : a ++ ';' :: (gap ++ (w ++ y)) = ((a ++ ';' :: gap) ++ w) ++ y := by simp
  rw [hassoc] at hz
  rcases List.suffix_or_suffix_of_suffix hz (List.suffix_append _ y) with hz' | ⟨c, hc⟩
  · exact hclear z hz'
  -- the semicolon stands in front of the word
  have hcut {b x u : Text} (hx : x ++ u <:+ b ++ u) : x <:+ b := by
    obtain ⟨d, hd⟩ := hx
    rw [← List.append_assoc] at hd
    exact ⟨d, List.append_cancel_right hd⟩
  rw [← hc] at hz
  have hcw := hcut hz
  rcases List.suffix_or_suffix_of_suffix hcw (List.suffix_append _ w) with hw' | ⟨d, hd⟩
  · cases c with
    | nil =>
      rw [List.nil_append] at hc
      exact hclear z (hc ▸ List.suffix_rfl)
    | cons e c =>
      obtain rfl : e = ';' := (List.cons.inj hc).1
      exact absurd (hw ';' (hw'.subset (List.mem_cons_self ..))) (by decide)
  · rw [← hd] at hcw hc
    have hda := hcut hcw
    cases d with
    | nil =>
      obtain ⟨e, w, rfl⟩ := List.exists_cons_of_ne_nil hne
      obtain rfl : e = ';' := (List.cons.inj hc).1
      exact absurd (hw ';' (List.mem_cons_self ..)) (by decide)
    | cons e d =>
      obtain ⟨rfl, hz'⟩ := List.cons.inj hc
      have hseps : ∀ c ∈ d, isParamSeparator c = true := by
        rcases List.suffix_or_suffix_of_suffix hda (List.suffix_append a (';' :: gap)) with h | ⟨b, hb⟩
        · obtain ⟨b, hb⟩ := h
          intro c hcd
          rcases List.suffix_cons_iff.mp ⟨b, hb⟩ with heq | hsuf
          · rw [(List.cons.inj heq).2] at hcd
            exact hgap c hcd
          · exact hgap c (hsuf.subset (List.mem_cons_of_mem _ hcd))
        · cases b with
          | nil =>
            intro c hcd
            rw [← (List.cons.inj hb).2] at hcd
            exact hgap c hcd
          | cons e b =>
            obtain rfl : e = ';' := (List.cons.inj hb).1
            rw [← hb] at hda
            exact absurd ((hcut hda).subset (List.mem_cons_self ..)) ha
      rw [← hz']
      show (SipParser.getWord ((d ++ w) ++ y)).1 ≠ pname
      rw [List.append_assoc, getWord_append hseps hw hne hstop]
      exact hother

/-- **A word of the name in a text is where the parameter is cut.** -/
theorem cutFrom_stop {pname t rest : Text} (hclear : clearTail pname t = false)
    (hrest : rest = [] ∨ ∃ u, rest = ';' :: u)
    (hz : ∀ z, ';' :: z <:+ t → ∃ c ∈ z, isParamSeparator c = false) {n : ℕ}
    (hn : (t ++ rest).length ≤ n) (top : Text) :
    ∃ a z r, t = a ++ ';' :: z ∧ r <:+ z ++ rest ∧
      cutFrom pname n top (t ++ rest) = top ++ a ++ r := by
  induction hk : t.length using Nat.strong_induction_on generalizing t n top with
  | _ k ih =>
    have hsemi : ';' ∈ t := by
      by_contra hnot
      refine absurd (clearTail_iff.mpr fun z hz => ?_) (Bool.eq_false_iff.mp hclear)
      exact absurd (hz.subset (List.mem_cons_self ..)) hnot
    obtain ⟨a, z, rfl, ha⟩ := List.eq_append_cons_of_mem hsemi
    have hrun : ∀ c ∈ a, (c != ';') = true := bne_of_not_mem ha
    have hassoc : a ++ ';' :: z ++ rest = a ++ ';' :: (z ++ rest) := by simp
    obtain ⟨htake, hdrop⟩ := takeWhile_run (b := ';' :: (z ++ rest)) hrun (by simp)
    have hcut : cutFrom pname n top (a ++ ';' :: z ++ rest) =
        cutParameter pname n (top ++ a) (';' :: (z ++ rest)) := by
      unfold cutFrom
      rw [hassoc, htake]
      show cutParameter _ _ _ (List.dropWhile _ _) = _
      rw [hdrop]
    rw [hcut]
    obtain ⟨c, hc, hsep⟩ := hz z (List.suffix_append _ _)
    rcases getWord_eq z with ⟨hall, -⟩ | ⟨gap, w, y, hzy, hgap, hw, hwne, hstop, -⟩
    · rw [hall c hc] at hsep
      exact Bool.noConfusion hsep
    subst hzy
    have hstop' : ∀ c ∈ (y ++ rest).head?, isParamSeparator c = true := by
      intro c hc
      cases y with
      | nil =>
        obtain rfl | ⟨u, rfl⟩ := hrest
        · exact absurd hc (by simp)
        · rw [← Option.some.inj hc]
          exact isParamSeparator_semi
      | cons b y => exact hstop c hc
    rw [hassoc, List.length_append, List.length_cons, List.length_append, List.length_append,
      List.length_append] at hn
    rw [List.length_append, List.length_cons, List.length_append, List.length_append] at hk
    obtain ⟨n, rfl⟩ : ∃ l, n = l + 1 := ⟨n - 1, by omega⟩
    by_cases hname : w = pname
    · subst hname
      refine ⟨a, gap ++ (w ++ y), goToSkippingQuoted ';' (y ++ rest), rfl, ?_, ?_⟩
      · obtain ⟨happend, -⟩ := span_eq ';' false (y ++ rest)
        exact ⟨gap ++ (w ++ (spanSkippingQuoted ';' false (y ++ rest)).1), by
          rw [List.append_assoc, List.append_assoc, goToSkippingQuoted, happend]
          simp⟩
      · refine cutParameter_of_eq ?_ (top ++ a)
        rw [List.append_assoc, List.append_assoc]
        exact getWord_append hgap hw hwne hstop'
    · have hword : SipParser.getWord (gap ++ w ++ (y ++ rest)) = (w, y ++ rest) := by
        rw [List.append_assoc]
        exact getWord_append hgap hw hwne hstop'
      have hpre : gap ++ (w ++ y) ++ rest = gap ++ w ++ (y ++ rest) := by simp
      have hfalse : clearTail pname y = false := by
        by_contra htrue
        rw [Bool.not_eq_false] at htrue
        rw [clearTail_word ha hgap hw hwne hstop hname htrue] at hclear
        exact Bool.noConfusion hclear
      have hsuffix : y <:+ a ++ ';' :: (gap ++ (w ++ y)) := ⟨a ++ ';' :: (gap ++ w), by simp⟩
      obtain ⟨b, z, r, rfl, hr, hres⟩ := ih y.length (by omega) hfalse
        (fun z hz' => hz z (hz'.trans hsuffix)) (n := n) (by rw [List.length_append]; omega)
        (top ++ a ++ ';' :: (gap ++ w)) rfl
      refine ⟨a ++ ';' :: (gap ++ w) ++ b, z, r, by simp, hr, ?_⟩
      rw [hpre, cutParameter_of_ne hword hname, hres]
      simp

/-! ## A parameter behind a text -/

/-- A value that is there is read whatever stands behind its text. -/
theorem getWordSkippingQuoted_append_semi {y : Text} (hquote : '"' ∉ y)
    (hy : ∃ c ∈ y, isParamSeparator c = false) (e : Text) :
    SipParser.getWordSkippingQuoted (y ++ ';' :: e) = SipParser.getWordSkippingQuoted y := by
  have hmem {d : Text} : ∀ c ∈ wordSkippingQuoted false d, c ∈ d := by
    have hgen (inside : Bool) : ∀ c ∈ wordSkippingQuoted inside d, c ∈ d := by
      induction d generalizing inside with
      | nil => exact fun c hc => hc
      | cons a d ih =>
        intro c hc
        rw [wordSkippingQuoted] at hc
        split at hc
        · exact absurd hc List.not_mem_nil
        · rcases List.mem_cons.mp hc with rfl | hc
          · exact List.mem_cons_self ..
          · exact List.mem_cons_of_mem _ (ih _ c hc)
    exact hgen false
  refine getWordSkippingQuoted_append ?_ ?_ (by simp [isParamSeparator])
  · unfold SipParser.getWordSkippingQuoted
    cases hd : y.dropWhile isParamSeparator with
    | nil =>
      obtain ⟨c, hc, hsep⟩ := hy
      rw [List.dropWhile_eq_nil_iff.mp hd c hc] at hsep
      exact Bool.noConfusion hsep
    | cons a d =>
      have ha := head_dropWhile (p := isParamSeparator) (s := y) a (by rw [hd]; rfl)
      rw [wordSkippingQuoted, if_neg (by simp [ha])]
      exact List.cons_ne_nil _ _
  · exact fun h => hquote ((List.dropWhile_suffix _).subset (hmem _ h))

/-- The last character of a text is the last one of what it ends with. -/
theorem getLast_suffix {P : Char → Prop} {s b : Text} (hlast : ∀ c ∈ s.getLast?, P c) (hb : b <:+ s) :
    ∀ c ∈ b.getLast?, P c := by
  obtain ⟨a, rfl⟩ := hb
  intro c hc
  refine hlast c ?_
  rw [List.getLast?_append_of_ne_nil _ (by rintro rfl; exact absurd hc (by simp))]
  exact hc

/-- A name that is not there is not read. -/
theorem findParameter_added {pname name added : Text} (hadded : Added name added)
    (hne : name ≠ pname) {k : ℕ} (hk : (name ++ added).length ≤ k) :
    findParameter pname k (name ++ added) = some none := by
  have hnone : ∀ c ∈ ([] : Text), isParamSeparator c = true := by simp
  have hpos : 0 < name.length := List.length_pos_iff.mpr hadded.ne_nil
  rw [List.length_append] at hk
  obtain ⟨k, rfl⟩ : ∃ l, k = l + 1 := ⟨k - 1, by omega⟩
  have hstep := (hadded.first hnone).findParameter_of_ne hne k
  rw [List.nil_append, List.append_nil] at hstep
  rw [hstep]
  exact findParameter_nil pname k

/-- The name is read with another parameter behind. -/
theorem First.getWord_append_semi {gap w t rest : Text} (h : First gap w t rest) (u : Text) :
    SipParser.getWord (gap ++ (w ++ (t ++ rest ++ ';' :: u))) = (w, t ++ rest ++ ';' :: u) := by
  refine getWord_append h.separators h.word h.ne_nil fun c hc => ?_
  cases htail : t ++ rest with
  | nil =>
    rw [htail] at hc
    rw [← Option.some.inj hc]
    exact isParamSeparator_semi
  | cons a l =>
    rw [htail] at hc
    exact h.stop c (htail ▸ hc)

/-- The first parameter is read with any text behind the last one. -/
theorem First.findParameter_append {gap w t rest : Text} (hfirst : First gap w t rest)
    (hquote : '"' ∉ gap ++ (w ++ (t ++ rest)))
    (hlast : ∀ c ∈ (gap ++ (w ++ (t ++ rest))).getLast?, isParamSeparator c = false) {v : Option Text}
    {n : ℕ} (h : findParameter w (n + 1) (gap ++ (w ++ (t ++ rest))) = some v) (e : Text) (m : ℕ) :
    findParameter w (m + 1) (gap ++ (w ++ (t ++ rest ++ ';' :: e))) = some v := by
  simp only [findParameter, hfirst.ne_nil_text, if_false, hfirst.getWord, if_true] at h
  cases hskip : skipWSP (t ++ rest) with
  | nil =>
    rw [hskip] at h
    exact absurd h (by simp)
  | cons c y =>
    have hword := hfirst.getWord_append_semi e
    have hne : gap ++ (w ++ (t ++ rest ++ ';' :: e)) ≠ [] := by simp
    rw [hskip] at h
    simp only [findParameter, hne, if_false, hword, if_true, skipWSP_append hskip]
    by_cases hc : c = '='
    · subst hc
      simp only [if_true] at h ⊢
      have hysuffix : '=' :: y <:+ gap ++ (w ++ (t ++ rest)) := by
        rw [← hskip]
        refine (List.dropWhile_suffix _).trans ?_
        exact (List.suffix_append w _).trans (List.suffix_append gap _)
      have hy : ∃ c ∈ y, isParamSeparator c = false := by
        have hynil : y ≠ [] := by
          rintro rfl
          exact absurd (getLast_suffix hlast hysuffix '=' rfl) (by decide)
        refine ⟨y.getLast hynil, List.getLast_mem hynil, ?_⟩
        exact getLast_suffix hlast ((List.suffix_cons _ _).trans hysuffix) _
          (List.getLast?_eq_some_getLast hynil)
      have hyquote : '"' ∉ y := fun hmem =>
        hquote (hysuffix.subset (List.mem_cons_of_mem _ hmem))
      rw [getWordSkippingQuoted_append_semi hyquote hy]
      exact h
    · simpa only [hc, if_false] using h

/-- **What is read in a text is read with another parameter behind it.** -/
theorem findParameter_append {pname name added s : Text} {v : Option Text} (hp : pname ≠ [])
    (hadded : Added name added) (hne : name ≠ pname) (hquote : '"' ∉ s)
    (hlast : ∀ c ∈ s.getLast?, isParamSeparator c = false) {n m : ℕ}
    (h : findParameter pname n s = some v) (hn : s.length ≤ n)
    (hm : (s ++ ';' :: (name ++ added)).length ≤ m) :
    findParameter pname m (s ++ ';' :: (name ++ added)) = some v := by
  induction hk : s.length using Nat.strong_induction_on generalizing s n m with
  | _ k ih =>
    rcases exists_first s with hs | ⟨gap, w, t, rest, rfl, hfirst⟩
    · obtain rfl : s = [] := by
        by_contra hnil
        have hc := hlast _ (List.getLast?_eq_some_getLast hnil)
        rw [hs _ (List.getLast_mem hnil)] at hc
        exact Bool.noConfusion hc
      rw [findParameter_nil] at h
      have hsemi : ∀ c ∈ [';'], isParamSeparator c = true := by decide
      have hle : (name ++ added).length ≤ m := by
        rw [List.nil_append, List.length_cons] at hm
        omega
      rw [← h]
      exact (findParameter_append_separators hp hsemi hm hle).trans
        (findParameter_added hadded hne hle)
    · have hlt := hfirst.length_lt
      obtain ⟨n, rfl⟩ : ∃ l, n = l + 1 := ⟨n - 1, by omega⟩
      have hassoc : gap ++ (w ++ (t ++ rest)) ++ ';' :: (name ++ added) =
          gap ++ (w ++ (t ++ rest ++ ';' :: (name ++ added))) := by simp
      rw [List.length_append, List.length_cons] at hm
      obtain ⟨m, rfl⟩ : ∃ l, m = l + 1 := ⟨m - 1, by omega⟩
      rw [hassoc]
      by_cases hname : w = pname
      · -- the parameter that is read
        subst hname
        exact hfirst.findParameter_append hquote hlast h _ m
      · rw [hfirst.findParameter_of_ne hname] at h
        have hrest : rest <:+ gap ++ (w ++ (t ++ rest)) :=
          (List.suffix_append t _).trans
            ((List.suffix_append w _).trans (List.suffix_append gap _))
        obtain hnil | ⟨-, u, hu⟩ := hfirst.next
        · subst hnil
          have hclosed : SipParser.endsInside false t = false :=
            endsInside_of_not_mem (fun hmem => hquote (by simp [hmem])) false
          have hnext : First gap w t (';' :: (name ++ added)) := by
            refine ⟨hfirst.separators, hfirst.word, hfirst.ne_nil, ?_, hfirst.skips,
              .inr ⟨hclosed, _, rfl⟩⟩
            intro c hc
            cases t with
            | nil =>
              rw [← Option.some.inj hc]
              exact isParamSeparator_semi
            | cons a t => exact hfirst.stop c hc
          rw [List.append_nil, hnext.findParameter_of_ne hname, List.tail_cons]
          rw [List.tail_nil, findParameter_nil] at h
          rw [← h]
          exact findParameter_added hadded hne (by omega)
        · subst hu
          have hnext : First gap w t (';' :: (u ++ ';' :: (name ++ added))) :=
            hfirst.replace (by simp)
          have husuffix : u <:+ gap ++ (w ++ (t ++ ';' :: u)) := (List.suffix_cons _ _).trans hrest
          have hassoc' : t ++ ';' :: u ++ ';' :: (name ++ added) =
              t ++ ';' :: (u ++ ';' :: (name ++ added)) := by simp
          rw [hassoc', hnext.findParameter_of_ne hname, List.tail_cons]
          rw [List.tail_cons] at h hlt
          refine ih u.length (by omega) (fun hmem => hquote (husuffix.subset hmem))
            (getLast_suffix hlast husuffix) h (by omega) ?_ rfl
          rw [List.length_append, List.length_cons]
          omega

end ParametricHeader
end SoftPhone
