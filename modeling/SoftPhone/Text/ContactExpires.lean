import SoftPhone.Text.DateFormat
import SoftPhone.Text.ParameterEdits
import SoftPhone.Text.ParameterMap

/-!
# The expires parameter of a Contact header

`setExpires(date)` writes a date in quotes, and `getExpiresDate` finds it behind the other parameters
and reads it.  What is found is what was written, if and only if no quote of the value is open where
the parameter is added (`getParameter_added`, `getParameter_lost`), and `removeParameter` has left no
other expires parameter: it takes out the first one, and it looks for it in quotes, too.  One that is
left is read instead (`getParameter_left`).

The date that is read is the one that was written, to the second, if and only if moreover the zones of
the writer and the reader agree at this date, and the current time has no milliseconds
(`survives_iff`): the text says GMT, but the fields are those of the default zone on either side, and
the milliseconds are never set.
-/

namespace SoftPhone

open SipParser

namespace SipParser

/-- A text in quotes is read with its quotes. -/
theorem getWordSkippingQuoted_quoted {s : Text} (hs : '"' ∉ s) :
    getWordSkippingQuoted ('"' :: (s ++ ['"'])) = '"' :: (s ++ ['"']) := by
  have hinside : wordSkippingQuoted true (s ++ ['"']) = s ++ ['"'] := by
    induction s with
    | nil => rfl
    | cons c s ih =>
      rw [List.mem_cons, not_or] at hs
      rw [List.cons_append, wordSkippingQuoted, if_neg (by simp), if_neg (Ne.symm hs.1), ih hs.2]
  rw [getWordSkippingQuoted, List.dropWhile_cons_of_neg (by decide), wordSkippingQuoted,
    if_neg (by decide), if_pos rfl]
  exact congrArg ('"' :: ·) hinside

end SipParser

/-! ## A parameter behind the others -/

namespace ParametricHeader

/-- **What is read in front of a quoted text of several words** depends on its first word only, which
may be read too where a quote is open. -/
theorem getWordSkippingQuoted_semi {name q : Text} (hname : ∀ c ∈ name, isParamSeparator c = false)
    (hne : name ≠ []) (hopen : '"' ∉ name) (hclosed : endsInside true (name ++ '=' :: q) = false)
    (t z : Text) :
    getWordSkippingQuoted (t ++ ';' :: (name ++ '=' :: (q ++ ',' :: z))) =
      getWordSkippingQuoted (t ++ ';' :: (name ++ '=' :: q)) := by
  have hstop {a : Char} (ha : isParamSeparator a = true) (r : Text) :
      ∀ c ∈ (a :: r).head?, isParamSeparator c = true := fun c hc => Option.some.inj hc ▸ ha
  have hsemi := hstop isParamSeparator_semi
  have hequal := hstop (a := '=') (by decide)
  have hcomma := hstop (a := ',') (by decide)
  have hword (d : Text) : wordSkippingQuoted false (d ++ ';' :: (name ++ '=' :: (q ++ ',' :: z))) =
      wordSkippingQuoted false (d ++ ';' :: (name ++ '=' :: q)) := by
    cases hd : endsInside false d with
    | false => rw [wordSkippingQuoted_closed hd (hsemi _), wordSkippingQuoted_closed hd (hsemi _)]
    | true =>
      -- the added quote closes the open one
      have hends : endsInside false (d ++ ';' :: (name ++ '=' :: q)) = false := by
        rw [endsInside_append, hd]
        exact hclosed
      have hassoc : d ++ ';' :: (name ++ '=' :: (q ++ ',' :: z)) =
          (d ++ ';' :: (name ++ '=' :: q)) ++ ',' :: z := by simp
      rw [hassoc, wordSkippingQuoted_closed hends (hcomma z)]
  have hdrop (r : Text) : (';' :: (name ++ r)).dropWhile isParamSeparator = name ++ r := by
    rw [List.dropWhile_cons_of_pos (by decide)]
    cases name with
    | nil => exact absurd rfl hne
    | cons a name => exact List.dropWhile_cons_of_neg (by simp [hname a List.mem_cons_self])
  have hends : endsInside false name = false := endsInside_of_not_mem hopen false
  unfold getWordSkippingQuoted
  rw [List.dropWhile_append, List.dropWhile_append, hdrop, hdrop]
  split
  · rw [wordSkippingQuoted_closed hends (hequal _), wordSkippingQuoted_closed hends (hequal _)]
  · exact hword _

section Behind

variable {pname s u : Text}

/-- The last parameter is open, and what is added stands in its quotes. -/
theorem First.swallows {gap name tail : Text} (h : First gap name tail [])
    (hopen : SipParser.endsInside false tail = true) (hskips : Skips ';' true u) :
    First gap name (tail ++ u) [] := by
  refine ⟨h.separators, h.word, h.ne_nil, ?_, ?_, .inl rfl⟩
  · intro c hc
    cases tail with
    | nil => exact absurd hopen (by decide)
    | cons a tail => exact h.stop c hc
  · rw [skips_append, hopen]
    exact ⟨h.skips, hskips⟩

/-- **Where a quote is open the parameter is lost.** -/
theorem findParameter_lost (hnone : (segments s).any (·.name == pname) = false)
    (hopen : ¬ClosedTails s) (hskips : Skips ';' true (';' :: u)) (n : ℕ) :
    findParameter pname n (s ++ ';' :: u) = some none := by
  induction hk : s.length using Nat.strong_induction_on generalizing s n with
  | _ k ih =>
    cases n with
    | zero => rfl
    | succ n =>
      rcases exists_first s with hs | ⟨gap, name, tail, rest, rfl, h⟩
      · refine absurd (fun a ha => ?_) hopen
        rw [segments_of_separators hs] at ha
        exact absurd ha List.not_mem_nil
      · rw [segments_first h, List.any_cons, Bool.or_eq_false_iff] at hnone
        have hne : name ≠ pname := by simpa using hnone.1
        rw [closedTails_first h, not_and] at hopen
        have hlt := h.length_lt
        obtain hnil | ⟨htail, v, hv⟩ := h.next
        · subst hnil
          have htail : endsInside false tail = true := by
            by_contra hclosed
            exact hopen (Bool.eq_false_iff.mpr hclosed) (fun a ha => absurd ha List.not_mem_nil)
          have hassoc : gap ++ (name ++ (tail ++ [])) ++ ';' :: u =
              gap ++ (name ++ ((tail ++ ';' :: u) ++ [])) := by simp
          rw [hassoc, (h.swallows htail hskips).findParameter_of_ne hne]
          exact findParameter_nil pname n
        · subst hv
          rw [List.tail_cons] at hnone hopen hlt
          have hassoc : gap ++ (name ++ (tail ++ ';' :: v)) ++ ';' :: u =
              gap ++ (name ++ (tail ++ ';' :: (v ++ ';' :: u))) := by simp
          have hnext : First gap name tail (';' :: (v ++ ';' :: u)) := h.replace (by simp)
          rw [hassoc, hnext.findParameter_of_ne hne, List.tail_cons]
          exact ih v.length (by omega) hnone.2 (hopen htail) n rfl

/-- The first parameter is the one that is looked for. -/
theorem First.findParameter_left {gap name tail rest x y : Text} (h : First gap name tail rest)
    (hword : ∀ t, SipParser.getWordSkippingQuoted (t ++ ';' :: x) =
      SipParser.getWordSkippingQuoted (t ++ ';' :: y)) (n m : ℕ) :
    findParameter name (n + 1) (gap ++ (name ++ (tail ++ rest ++ ';' :: x))) =
      findParameter name (m + 1) (gap ++ (name ++ (tail ++ rest ++ ';' :: y))) := by
  have hne (u : Text) : gap ++ (name ++ (tail ++ rest ++ ';' :: u)) ≠ [] := by simp
  simp only [findParameter, hne, if_false, h.getWord_append_semi, if_true]
  cases hskip : skipWSP (tail ++ rest) with
  | nil =>
    have hsemi (u : Text) : skipWSP (tail ++ rest ++ ';' :: u) = ';' :: u := by
      unfold skipWSP at hskip ⊢
      rw [List.dropWhile_append, hskip]
      rfl
    rw [hsemi, hsemi]
    rfl
  | cons c t =>
    rw [skipWSP_append hskip, skipWSP_append hskip]
    dsimp only
    rw [hword]

/-- **A parameter that is there is read**, and of what follows behind a semicolon only what a value may
reach. -/
theorem findParameter_left {x y : Text}
    (hword : ∀ t, getWordSkippingQuoted (t ++ ';' :: x) = getWordSkippingQuoted (t ++ ';' :: y))
    (hany : (segments s).any (·.name == pname) = true) {n m : ℕ}
    (hn : (s ++ ';' :: x).length ≤ n) (hm : (s ++ ';' :: y).length ≤ m) :
    findParameter pname n (s ++ ';' :: x) = findParameter pname m (s ++ ';' :: y) := by
  induction hk : s.length using Nat.strong_induction_on generalizing s n m with
  | _ k ih =>
    rcases exists_first s with hs | ⟨gap, name, tail, rest, rfl, h⟩
    · rw [segments_of_separators hs] at hany
      cases hany
    · have hlt := h.length_lt
      rw [List.length_append, List.length_cons] at hn hm
      obtain ⟨n, rfl⟩ : ∃ l, n = l + 1 := ⟨n - 1, by omega⟩
      obtain ⟨m, rfl⟩ : ∃ l, m = l + 1 := ⟨m - 1, by omega⟩
      by_cases hname : name = pname
      · subst hname
        have hassoc (u : Text) : gap ++ (name ++ (tail ++ rest)) ++ ';' :: u =
            gap ++ (name ++ (tail ++ rest ++ ';' :: u)) := by simp
        rw [hassoc, hassoc]
        exact h.findParameter_left hword n m
      · rw [segments_first h, List.any_cons] at hany
        have hany : (segments rest.tail).any (·.name == pname) = true := by simpa [hname] using hany
        obtain hnil | ⟨-, v, hv⟩ := h.next
        · rw [hnil] at hany
          cases hany
        · subst hv
          rw [List.tail_cons] at hany hlt
          have hassoc (u : Text) : gap ++ (name ++ (tail ++ ';' :: v)) ++ ';' :: u =
              gap ++ (name ++ (tail ++ ';' :: (v ++ ';' :: u))) := by simp
          have hnext (u : Text) : First gap name tail (';' :: (v ++ ';' :: u)) :=
            h.replace (by simp)
          rw [hassoc, hassoc, (hnext x).findParameter_of_ne hname,
            (hnext y).findParameter_of_ne hname, List.tail_cons, List.tail_cons]
          exact ih v.length (by omega) hany (by rw [List.length_append, List.length_cons]; omega)
            (by rw [List.length_append, List.length_cons]; omega) rfl

end Behind

end ParametricHeader

open ParametricHeader

namespace NameAddressHeader

/-- Where `indexOfFirstSemi` begins to look: behind a closed part of the value, also when another text
without `>` follows. -/
theorem firstSemi_begins (v : Text) : ∃ a b, v = a ++ b ∧ endsInside false a = false ∧
    ∀ t, '>' ∉ t → firstSemi (v ++ t) =
      (a ++ (spanSkippingQuoted ';' false (b ++ t)).1, (spanSkippingQuoted ';' false (b ++ t)).2) := by
  obtain ⟨happend, hskips, hrest⟩ := span_eq '>' false v
  set a := (spanSkippingQuoted '>' false v).1
  set b := (spanSkippingQuoted '>' false v).2
  rcases hrest with hnil | ⟨hends, w, hw⟩
  · refine ⟨[], v, rfl, rfl, fun t ht => ?_⟩
    have hv : a = v := by rw [← happend, hnil, List.append_nil]
    have hall : Skips '>' false (v ++ t) :=
      skips_append.mpr ⟨hv ▸ hskips, skips_of_not_mem ht _⟩
    unfold firstSemi
    dsimp only
    rw [if_pos (show (spanSkippingQuoted '>' false (v ++ t)).2 = [] from hall)]
    rfl
  · refine ⟨a, b, happend.symm, hends, fun t _ => ?_⟩
    have hspan : spanSkippingQuoted '>' false (v ++ t) = (a, b ++ t) := by
      rw [← happend, List.append_assoc]
      exact span_append hskips (.inr ⟨hends, w ++ t, by rw [hw, List.cons_append]⟩)
    unfold firstSemi
    rw [hspan]
    exact if_neg (by simp [hw])

/-- No quote is open where a parameter is added to the value. -/
structure Closes (v : Text) : Prop where
  /-- There are no parameters yet. -/
  head : (firstSemi v).2 = [] → endsInside false v = false
  tails : ClosedTails (firstSemi v).2.tail

instance (v : Text) : Decidable (Closes v) :=
  decidable_of_iff
    (((firstSemi v).2 = [] → endsInside false v = false) ∧ ClosedTails (firstSemi v).2.tail)
    ⟨fun h => ⟨h.1, h.2⟩, fun h => ⟨h.head, h.tails⟩⟩

/-- The parameters, when one is added. -/
theorem firstSemi_added (v : Text) {u : Text} (hu : '>' ∉ u) (hskips : Skips ';' true (';' :: u)) :
    (firstSemi (v ++ ';' :: u)).2 =
      if (firstSemi v).2 = [] ∧ endsInside false v = true then []
      else (firstSemi v).2 ++ ';' :: u := by
  obtain ⟨a, b, rfl, hends, hfirst⟩ := firstSemi_begins v
  have hself := hfirst [] (by simp)
  rw [List.append_nil, List.append_nil] at hself
  rw [hself, hfirst (';' :: u) (by simpa using hu), endsInside_append, hends]
  obtain ⟨happend, hskip, hrest⟩ := span_eq ';' false b
  set c := (spanSkippingQuoted ';' false b).1
  set d := (spanSkippingQuoted ';' false b).2
  dsimp only
  rcases hrest with hnil | ⟨hclosed, w, hw⟩
  · have hb : c = b := by rw [← happend, hnil, List.append_nil]
    rw [hb] at hskip
    rw [span_append_of_skips hskip, hnil]
    cases hopen : endsInside false b with
    | true => exact hskips
    | false =>
      rw [if_neg (by simp), spanSkippingQuoted_self]
      rfl
  · have hb : b ++ ';' :: u = c ++ (d ++ ';' :: u) := by rw [← List.append_assoc, happend]
    rw [hb, span_append hskip (.inr ⟨hclosed, w ++ ';' :: u, congrArg (· ++ ';' :: u) hw⟩),
      if_neg (by simp [hw])]

section Added

variable {pname v u : Text} (hp : pname ≠ []) (hnone : hasParameter firstSemi pname v = false)
  (hu : '>' ∉ u) (hskips : Skips ';' true (';' :: u))

include hp hnone hu hskips

/-- **A parameter that is added behind closed ones is read**, if it is the first one of its name. -/
theorem getParameter_added (hclosed : Closes v) :
    getParameter firstSemi pname (v ++ ';' :: u) = findParameter pname u.length u := by
  have hnot : ¬((firstSemi v).2 = [] ∧ endsInside false v = true) := fun h =>
    absurd (h.2.symm.trans (hclosed.head h.1)) (by decide)
  rw [ParametricValue.hasParameter_eq hp (Prod.eta (firstSemi v)).symm] at hnone
  rw [ParametricValue.getParameter_eq hp (Prod.eta (firstSemi (v ++ ';' :: u))).symm,
    firstSemi_added v hu hskips, if_neg hnot]
  rcases (divides_firstSemi v).2 with hnil | ⟨w, hw⟩
  · rw [hnil]
    rfl
  · have hclosed := hclosed.tails
    rw [hw, List.tail_cons] at hnone hclosed
    rw [hw]
    exact findParameter_pass hp (find_eq_none_iff.mpr hnone) hclosed (.inr ⟨u, rfl⟩) le_rfl le_rfl

/-- **Where a quote is open it is lost.** -/
theorem getParameter_lost (hopen : ¬Closes v) :
    getParameter firstSemi pname (v ++ ';' :: u) = some none := by
  rw [ParametricValue.hasParameter_eq hp (Prod.eta (firstSemi v)).symm] at hnone
  rw [ParametricValue.getParameter_eq hp (Prod.eta (firstSemi (v ++ ';' :: u))).symm,
    firstSemi_added v hu hskips]
  split
  · rfl
  · next hnot =>
    have htails : ¬ClosedTails (firstSemi v).2.tail := fun h =>
      hopen ⟨fun hnil => Bool.eq_false_iff.mpr fun hends => hnot ⟨hnil, hends⟩, h⟩
    rcases (divides_firstSemi v).2 with hnil | ⟨w, hw⟩
    · rw [hnil] at htails
      exact absurd (fun a ha => absurd ha List.not_mem_nil) htails
    · rw [hw, List.tail_cons] at hnone htails
      rw [hw]
      exact findParameter_lost hnone htails hskips _

end Added

/-- **A parameter that is there already is read**, and not the one that is added. -/
theorem getParameter_left {pname v x y : Text} (hp : pname ≠ [])
    (hany : hasParameter firstSemi pname v = true) (hx : '>' ∉ x) (hy : '>' ∉ y)
    (hskips : Skips ';' true (';' :: x)) (hskips' : Skips ';' true (';' :: y))
    (hword : ∀ t, getWordSkippingQuoted (t ++ ';' :: x) = getWordSkippingQuoted (t ++ ';' :: y)) :
    getParameter firstSemi pname (v ++ ';' :: x) = getParameter firstSemi pname (v ++ ';' :: y) := by
  rw [ParametricValue.hasParameter_eq hp (Prod.eta (firstSemi v)).symm] at hany
  rw [ParametricValue.getParameter_eq hp (Prod.eta (firstSemi (v ++ ';' :: x))).symm,
    ParametricValue.getParameter_eq hp (Prod.eta (firstSemi (v ++ ';' :: y))).symm,
    firstSemi_added v hx hskips, firstSemi_added v hy hskips']
  rcases (divides_firstSemi v).2 with hnil | ⟨w, hw⟩
  · rw [hnil] at hany
    cases hany
  · rw [hw, List.tail_cons] at hany
    rw [hw, if_neg (by simp), if_neg (by simp)]
    exact findParameter_left hword hany le_rfl le_rfl

end NameAddressHeader

/-! ## Class `ContactHeader` -/

namespace SipParser

/-- `getDate`, of the text and the current time. -/
def getDate {IsDate : ℤ → Fin 12 → ℤ → Prop} (c : Calendar IsDate) (now : ℤ) (s : Text) : Option ℤ :=
  DateFormat.parseEEEddMMMyyyyhhmmss c now s

end SipParser

namespace ContactHeader

open EndPointHeader

variable {IsDate : ℤ → Fin 12 → ℤ → Prop} (c : Calendar IsDate)

/-- `setExpires(expire)`, of a date. -/
def setExpires (expire : ℤ) (value : Text) : Text :=
  setParameter NameAddressHeader.firstSemi expiresParam
    (some ('"' :: (DateFormat.formatEEEddMMMyyyyhhmmss c expire ++ ['"']))) value

/-- `exp_param.indexOf("GMT")>=0`. -/
def hasGMT (param : Text) : Bool := param.tails.any ("GMT".toList.isPrefixOf ·)

/-- A text that ends with GMT, in quotes. -/
theorem hasGMT_quoted {s : Text} (hs : "GMT".toList <:+ s) :
    hasGMT ('"' :: (s ++ ['"'])) = true := by
  obtain ⟨a, rfl⟩ := hs
  refine List.any_eq_true.mpr ⟨"GMT\"".toList, (List.mem_tails _ _).mpr ⟨'"' :: a, ?_⟩, by decide⟩
  simp

/-- `getExpires`, at the current time.  The result is `none` for an exception. -/
def getExpires (now : ℤ) (value : Text) : Option ℤ := do
  match ← getParameter NameAddressHeader.firstSemi expiresParam value with
  | none => some (-1)
  | some param =>
    if hasGMT param then
      let date ← getDate c now (getStringUnquoted param)
      some (max 0 (Int.bmod ((date - now).tdiv 1000) (2 ^ 32)))
    else getInt param

/-- `getExpiresDate`, at the current time.  The outer `none` is an exception, the inner one null. -/
def getExpiresDate (now : ℤ) (value : Text) : Option (Option ℤ) := do
  match ← getParameter NameAddressHeader.firstSemi expiresParam value with
  | none => some none
  | some param =>
    if hasGMT param then some (getDate c now (getStringUnquoted param))
    else
      let secs ← getInt param
      some (if 0 ≤ secs then some (now + secs * 1000) else none)

/-- What `setExpires` adds the parameter to. -/
def withoutExpires (value : Text) : Text :=
  if hasParameter NameAddressHeader.firstSemi expiresParam value then
    removeParameter NameAddressHeader.firstSemi expiresParam value
  else value

/-- The first expires parameter is the only one: when it is taken out, none is left. -/
def Once (value : Text) : Prop :=
  hasParameter NameAddressHeader.firstSemi expiresParam (withoutExpires value) = false

instance (value : Text) : Decidable (Once value) := inferInstanceAs (Decidable (_ = false))

/-- The date, without its milliseconds. -/
def truncated (d : ℤ) : ℤ := d - d % 1000

variable {IsDate : ℤ → Fin 12 → ℤ → Prop} (writer reader : Calendar IsDate)

/-- The date that the writer puts into the header is the one that the reader gets, to the second. -/
def Survives (now d : ℤ) (value : Text) : Prop :=
  getExpiresDate reader now (setExpires writer d value) = some (some (truncated d))

/-- At the second of the date, the calendar of the reader shows the date and time of day that the one
of the writer shows, and the milliseconds of the current time. -/
structure ZonesAgree (now d : ℤ) : Prop where
  year : (writer.fields d).year = (reader.fields (truncated d)).year
  month : (writer.fields d).month = (reader.fields (truncated d)).month
  dayOfMonth : (writer.fields d).dayOfMonth = (reader.fields (truncated d)).dayOfMonth
  hourOfDay : (writer.fields d).hourOfDay = (reader.fields (truncated d)).hourOfDay
  minute : (writer.fields d).minute = (reader.fields (truncated d)).minute
  second : (writer.fields d).second = (reader.fields (truncated d)).second
  millisecond : (reader.fields now).millisecond = (reader.fields (truncated d)).millisecond

/-- The zones agree if and only if the reader gets the date from the fields that it sets. -/
theorem zonesAgree_iff (now d : ℤ) : ZonesAgree writer reader now d ↔
    reader.time { writer.fields d with millisecond := (reader.fields now).millisecond } =
      truncated d := by
  have hvalid : ({ writer.fields d with millisecond := (reader.fields now).millisecond } :
      CalendarFields).Valid IsDate := by
    obtain ⟨hdate, hday, hhour, hminute, hsecond, -⟩ := writer.valid_fields d
    exact ⟨hdate, hday, hhour, hminute, hsecond, (reader.valid_fields now).millisecond⟩
  rw [reader.time_eq_iff hvalid, CalendarFields.mk.injEq]
  exact ⟨fun ⟨h₁, h₂, h₃, h₄, h₅, h₆, h₇⟩ => ⟨h₁, h₂, h₃, h₄, h₅, h₆, h₇⟩,
    fun ⟨h₁, h₂, h₃, h₄, h₅, h₆, h₇⟩ => ⟨h₁, h₂, h₃, h₄, h₅, h₆, h₇⟩⟩

/-- **Zones with constant offsets**, of whole seconds, agree if and only if they are the same and the
current time is a whole second. -/
theorem zonesAgree_ofOffset_iff {a b : ℤ} (ha : a % 1000 = 0) (hb : b % 1000 = 0) (now d : ℤ) :
    ZonesAgree (.ofOffset a) (.ofOffset b) now d ↔ a = b ∧ now % 1000 = 0 := by
  rw [zonesAgree_iff]
  show Calendar.gregorianTime { Calendar.gregorianFields (d + a) with
    millisecond := (now + b) % 1000 } - b = truncated d ↔ _
  rw [Calendar.gregorianTime_millisecond, truncated]
  omega

section Set

variable (value : Text)

theorem setExpires_eq (d : ℤ) : setExpires writer d value =
    withoutExpires value ++ ';' :: (expiresParam ++
      '=' :: '"' :: (DateFormat.formatEEEddMMMyyyyhhmmss writer d ++ ['"'])) := by
  unfold setExpires setParameter withoutExpires
  simp

/-- The value, and the beginning of the parameter that is added, with the weekday. -/
def beginning (d : ℤ) : Text :=
  withoutExpires value ++ ';' :: (expiresParam ++
    '=' :: '"' :: DateFormat.weekdays.getD (writer.dayOfWeek d) [])

variable {value}

theorem not_mem_format {d : ℤ} (hyear : 0 ≤ (writer.fields d).year) {a : Char}
    (ha : DateFormat.isDateChar a = false) : a ∉ DateFormat.formatEEEddMMMyyyyhhmmss writer d := by
  intro hmem
  rw [DateFormat.chars_format writer hyear a hmem] at ha
  cases ha

theorem not_mem_added {s : Text} {a : Char} (hname : a ∉ expiresParam ++ ['=', '"']) (ha : a ∉ s) :
    a ∉ expiresParam ++ '=' :: '"' :: s := by
  have happend : expiresParam ++ '=' :: '"' :: s = expiresParam ++ ['=', '"'] ++ s := by simp
  rw [happend, List.mem_append]
  exact not_or.mpr ⟨hname, ha⟩

theorem skips_added {s : Text} (hs : ';' ∉ s) :
    Skips ';' true (';' :: (expiresParam ++ '=' :: '"' :: s)) :=
  skips_cons.mpr ⟨by decide, skips_of_not_mem (not_mem_added (by decide) hs) _⟩

/-- **What is read behind the expires parameter that was set**, if it is the only one. -/
theorem getParameter_setExpires {d : ℤ} (hyear : 0 ≤ (writer.fields d).year) (honce : Once value) :
    getParameter NameAddressHeader.firstSemi expiresParam (setExpires writer d value) =
      some (if NameAddressHeader.Closes (withoutExpires value) then
        some ('"' :: (DateFormat.formatEEEddMMMyyyyhhmmss writer d ++ ['"'])) else none) := by
  set date := DateFormat.formatEEEddMMMyyyyhhmmss writer d with hdate
  have hquote : '"' ∉ date := not_mem_format writer hyear (by decide)
  have hp : expiresParam ≠ [] := by decide
  have hgt : '>' ∉ date ++ ['"'] := by simp [hdate, not_mem_format writer hyear (a := '>') (by decide)]
  have hsemi : ';' ∉ date ++ ['"'] := by
    simp [hdate, not_mem_format writer hyear (a := ';') (by decide)]
  rw [setExpires_eq, ← hdate]
  split
  · next hclosed =>
    rw [NameAddressHeader.getParameter_added hp honce (not_mem_added (by decide) hgt)
        (skips_added hsemi) hclosed,
      findParameter_fuel hp le_rfl (Nat.le_succ _)]
    refine (findParameter_self hp (by decide) (some ('"' :: (date ++ ['"']))) _).trans ?_
    rw [Option.map_some, getWordSkippingQuoted_quoted hquote]
  · next hopen =>
    exact NameAddressHeader.getParameter_lost hp honce (not_mem_added (by decide) hgt)
      (skips_added hsemi) hopen

/-- **If another one is left, that is read.** -/
theorem getParameter_setExpires_left {d : ℤ} (hyear : 0 ≤ (writer.fields d).year)
    (honce : ¬Once value) :
    getParameter NameAddressHeader.firstSemi expiresParam (setExpires writer d value) =
      getParameter NameAddressHeader.firstSemi expiresParam (beginning writer value d) := by
  obtain ⟨z, hz⟩ : ∃ z, DateFormat.formatEEEddMMMyyyyhhmmss writer d =
      DateFormat.weekdays.getD (writer.dayOfWeek d) [] ++ ',' :: z := ⟨_, rfl⟩
  have hquote := not_mem_format writer hyear (a := '"') (by decide)
  have hgt := not_mem_format writer hyear (a := '>') (by decide)
  have hsemi := not_mem_format writer hyear (a := ';') (by decide)
  set day := DateFormat.weekdays.getD (writer.dayOfWeek d) [] with hday
  rw [hz] at hquote hgt hsemi
  have hshort {a : Char} (ha : a ∉ day ++ ',' :: z) : a ∉ day := fun hmem =>
    ha (List.mem_append_left _ hmem)
  have hlong {a : Char} (ha : a ∉ day ++ ',' :: z) (ha' : a ≠ '"') : a ∉ day ++ ',' :: z ++ ['"'] :=
    fun hmem => (List.mem_append.mp hmem).elim ha fun hmem => ha' (List.mem_singleton.mp hmem)
  have hclosed : endsInside true (expiresParam ++ '=' :: '"' :: day) = false := by
    rw [endsInside_append, endsInside_of_not_mem (s := expiresParam) (by decide), endsInside_cons,
      endsInside_cons]
    exact endsInside_of_not_mem (hshort hquote) _
  rw [setExpires_eq, hz, beginning, ← hday]
  refine NameAddressHeader.getParameter_left (by decide) (Bool.eq_true_of_not_eq_false honce)
    (not_mem_added (by decide) (hlong hgt (by decide))) (not_mem_added (by decide) (hshort hgt))
    (skips_added (hlong hsemi (by decide))) (skips_added (hshort hsemi)) fun t => ?_
  have hname : ∀ c ∈ expiresParam, isParamSeparator c = false := by decide
  have h := getWordSkippingQuoted_semi hname (by decide) (by decide) hclosed t (z ++ ['"'])
  simpa using h

end Set

/-- **Expiry dates survive the wire if and only if** the expires parameter is the only one, no quote is
open where it is added, and the zones agree; or another one is left and gives this date. -/
theorem survives_iff (now : ℤ) {d : ℤ} (hyear : 1000 ≤ (writer.fields d).year ∧
    (writer.fields d).year ≤ 9999) (value : Text) :
    Survives writer reader now d value ↔
      Once value ∧ NameAddressHeader.Closes (withoutExpires value) ∧
          ZonesAgree writer reader now d ∨
        ¬Once value ∧
          getExpiresDate reader now (beginning writer value d) = some (some (truncated d)) := by
  have hpos : 0 ≤ (writer.fields d).year := by omega
  by_cases honce : Once value
  · rw [or_iff_left (fun h => h.1 honce), and_iff_right honce]
    unfold Survives getExpiresDate
    rw [getParameter_setExpires writer hpos honce]
    split
    · next hclosed =>
      rw [Option.bind_eq_bind, Option.bind_some]
      dsimp only
      rw [if_pos (hasGMT_quoted (DateFormat.suffix_format writer d)),
        getStringUnquoted_quoted (not_mem_format writer hpos (by decide)), getDate,
        DateFormat.parse_format writer reader now hyear, Option.some.injEq, Option.some.injEq, zonesAgree_iff, and_iff_right hclosed]
    · next hopen => simp [hopen]
  · rw [or_iff_right (fun h => honce h.1), and_iff_right honce]
    unfold Survives getExpiresDate
    rw [getParameter_setExpires_left writer hpos honce]

/-- A Contact header with another parameter. -/
def sampleContact : Text := "<sip:bob@h>;q=0.5".toList

/-- Both sides are one hour ahead, and the current time is a whole second. -/
theorem survives_sampleContact :
    Survives (.ofOffset 3600000) (.ofOffset 3600000) 1700000000000 1704445200500 sampleContact :=
  (survives_iff _ _ _ (by decide +kernel) _).mpr (.inl
    ⟨by decide, by decide, (zonesAgree_ofOffset_iff (by decide) (by decide) _ _).mpr
      ⟨rfl, by decide⟩⟩)

/-- **The date is wrong if the zones differ, and also if only the current time has milliseconds.** -/
theorem not_survives_sampleContact :
    ¬Survives (.ofOffset 0) (.ofOffset 3600000) 1700000000000 1704445200500 sampleContact ∧
      ¬Survives (.ofOffset 0) (.ofOffset 0) 1700000000001 1704445200500 sampleContact :=
  ⟨by unfold Survives; decide +kernel, by unfold Survives; decide +kernel⟩

end ContactHeader

end SoftPhone
