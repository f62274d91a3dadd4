import SoftPhone.Text.RoundTrip

/-!
# Lines

The lines of a text, each with the lines that it is folded into, and the header fields among them.

`getHeader` reads one line after the other, so the headers that are read are those of the lines up
to the first one without a colon (`getHeaders_eq`), and what is left then is what follows this
line (`readHeaders_eq`).  From wherever in the text one goes to the next line, the lines from there
on are the last ones of the text (`lines_nextLine_suffix`).
-/

namespace SoftPhone

open SipParser

namespace SipParser

/-! ## The lines of a text -/

/-- The next line, behind the ones that this line is folded into. -/
def nextLine (s : Text) : Text := goToNextLine (spanEOH s).2

/-- So many lines at most. -/
def takeLines : ℕ → Text → List Text
  | 0, _ => []
  | n + 1, s => if s = [] then [] else (spanEOH s).1 :: takeLines n (nextLine s)

/-- The lines of a text. -/
def lines (s : Text) : List Text := takeLines s.length s

/-- The line has a colon. -/
def hasColon (line : Text) : Bool := line.contains ':'

/-- What stands in front of the colon, and behind it. -/
def headerOf (line : Text) : Header :=
  ⟨trim (line.takeWhile (· != ':')), trim (goTo ':' line).tail⟩

/-- The header field of a line with a name and a colon. -/
def fieldOf (line : Text) : Option Header :=
  if hasColon line ∧ (headerOf line).name ≠ [] then some (headerOf line) else none

/-- The header fields of the lines. -/
def fields (lines : List Text) : List Header := lines.filterMap fieldOf

/-- The loop that reads headers until there is none, and what is left then. -/
def readHeaders : ℕ → Text → List Header × Text
  | 0, s => ([], s)
  | n + 1, s =>
    match getHeader s with
    | (none, s) => ([], s)
    | (some h, s) => (h :: (readHeaders n s).1, (readHeaders n s).2)

/-- What follows the first line without a colon. -/
def skipHeaders : ℕ → Text → Text
  | 0, s => s
  | n + 1, s =>
    if s = [] then []
    else if hasColon (spanEOH s).1 then skipHeaders n (nextLine s) else nextLine s

/-- What follows the first line without a colon, however many lines there are. -/
def unread (s : Text) : Text := skipHeaders s.length s

/-- The headers of the lines up to the first one without a colon. -/
def readable (s : Text) : List Header := ((lines s).takeWhile hasColon).map headerOf

/-! ## One line -/

theorem spanEOH_append_self (s : Text) : (spanEOH s).1 ++ (spanEOH s).2 = s := by
  induction s with
  | nil => rfl
  | cons c s ih =>
    rw [spanEOH]
    split
    · rfl
    · show c :: ((spanEOH s).1 ++ (spanEOH s).2) = c :: s
      rw [ih]

/-- A line ends with CR or LF, or with the text. -/
theorem spanEOH_rest (s : Text) :
    (spanEOH s).2 = [] ∨ ∃ c rest, (spanEOH s).2 = c :: rest ∧ isCRLF c = true ∧
      folds (c :: rest) = false := by
  induction s with
  | nil => exact .inl rfl
  | cons c s ih =>
    rw [spanEOH]
    split
    · rename_i h
      exact .inr ⟨c, s, rfl, h.1, h.2⟩
    · exact ih

theorem length_skipEOL_lt {s : Text} (hs : s ≠ []) : (skipEOL s).length < s.length := by
  unfold skipEOL
  split
  · simp only [List.length_cons]
    omega
  · simp only [List.length_cons]
    omega
  · exact absurd rfl hs

/-- At the end of a line, the end of the line is skipped. -/
theorem goToNextLine_of_isCRLF {c : Char} {s : Text} (h : isCRLF c = true) :
    goToNextLine (c :: s) = skipEOL (c :: s) := by
  unfold goToNextLine
  rw [List.dropWhile_cons_of_neg (by simp [h])]

theorem nextLine_eq (s : Text) : nextLine s = skipEOL (spanEOH s).2 := by
  unfold nextLine
  rcases spanEOH_rest s with h | ⟨c, rest, h, hc, -⟩
  · rw [h]
    rfl
  · rw [h, goToNextLine_of_isCRLF hc]

theorem spanEOH_suffix (s : Text) : (spanEOH s).2 <:+ s := ⟨(spanEOH s).1, spanEOH_append_self s⟩

theorem nextLine_suffix (s : Text) : nextLine s <:+ s := by
  rw [nextLine_eq]
  exact (skipEOL_suffix _).trans (spanEOH_suffix s)

/-- A line is not nothing. -/
theorem length_nextLine_lt {s : Text} (hs : s ≠ []) : (nextLine s).length < s.length := by
  rw [nextLine_eq]
  have hle := (spanEOH_suffix s).length_le
  have hpos := List.length_pos_iff.mpr hs
  by_cases hnil : (spanEOH s).2 = []
  · rw [hnil]
    exact hpos
  · have hlt := length_skipEOL_lt hnil
    omega

@[simp] theorem nextLine_nil : nextLine [] = [] := rfl

/-- The end of a line that does not go on. -/
theorem nextLine_cons_of_end {c : Char} {s : Text} (hc : isCRLF c = true)
    (hfolds : folds (c :: s) = false) : nextLine (c :: s) = skipEOL (c :: s) := by
  rw [nextLine_eq, spanEOH, if_pos ⟨hc, hfolds⟩]

/-- A character within the line. -/
theorem nextLine_cons_of_within {c : Char} {s : Text}
    (h : ¬(isCRLF c = true ∧ folds (c :: s) = false)) : nextLine (c :: s) = nextLine s := by
  rw [nextLine_eq, nextLine_eq, spanEOH, if_neg h]

/-- Characters that do not end a line. -/
theorem spanEOH_plain_append {a : Text} (ha : ∀ c ∈ a, isCRLF c = false) (s : Text) :
    spanEOH (a ++ s) = (a ++ (spanEOH s).1, (spanEOH s).2) := by
  induction a with
  | nil => rfl
  | cons c a ih =>
    obtain ⟨hc, ha⟩ := List.forall_mem_cons.mp ha
    have hnot : ¬(isCRLF c = true ∧ folds (c :: (a ++ s)) = false) := fun h => by
      rw [hc] at h
      exact Bool.noConfusion h.1
    rw [List.cons_append, spanEOH, if_neg hnot, ih ha]
    rfl

/-- Characters within a line. -/
theorem nextLine_append {a s : Text} (ha : ∀ c ∈ a, isCRLF c = false) :
    nextLine (a ++ s) = nextLine s := by
  rw [nextLine_eq, spanEOH_plain_append ha, nextLine_eq]

/-! ## All the lines -/

theorem takeLines_nil (n : ℕ) : takeLines n [] = [] := by
  cases n with
  | zero => rfl
  | succ n => rfl

/-- There are not more lines than characters. -/
theorem takeLines_of_le {n : ℕ} {s : Text} (hn : s.length ≤ n) : takeLines n s = lines s := by
  induction hlen : s.length using Nat.strong_induction_on generalizing n s with
  | _ k ih =>
    by_cases hs : s = []
    · rw [hs, takeLines_nil]
      rfl
    · have hpos := List.length_pos_iff.mpr hs
      have hlt := length_nextLine_lt hs
      obtain ⟨n, rfl⟩ : ∃ n', n = n' + 1 := ⟨n - 1, by omega⟩
      obtain ⟨m, hm⟩ : ∃ m, s.length = m + 1 := ⟨s.length - 1, by omega⟩
      unfold lines
      rw [hm, takeLines, takeLines, if_neg hs, if_neg hs,
        ih _ (by omega) (n := n) (s := nextLine s) (by omega) rfl,
        ih _ (by omega) (n := m) (s := nextLine s) (by omega) rfl]

@[simp] theorem lines_nil : lines [] = [] := rfl

/-- The first line, and the others. -/
theorem lines_eq {s : Text} (hs : s ≠ []) : lines s = (spanEOH s).1 :: lines (nextLine s) := by
  have hpos := List.length_pos_iff.mpr hs
  have hlt := length_nextLine_lt hs
  obtain ⟨m, hm⟩ : ∃ m, s.length = m + 1 := ⟨s.length - 1, by omega⟩
  have htake : takeLines m (nextLine s) = lines (nextLine s) := takeLines_of_le (by omega)
  show takeLines s.length s = _
  rw [hm, takeLines, if_neg hs, htake]

/-- The lines behind the first one. -/
theorem lines_nextLine_suffix_self (s : Text) : lines (nextLine s) <:+ lines s := by
  by_cases hs : s = []
  · rw [hs]
    exact List.suffix_rfl
  · rw [lines_eq hs]
    exact List.suffix_cons _ _

/-- **From wherever one goes to the next line, the lines are the last ones of the text.** -/
theorem lines_nextLine_suffix {x y : Text} (h : y <:+ x) :
    lines (nextLine y) <:+ lines (nextLine x) := by
  induction x with
  | nil =>
    rw [List.suffix_nil.mp h]
  | cons c x ih =>
    rcases List.suffix_cons_iff.mp h with rfl | hy
    · exact List.suffix_rfl
    by_cases hend : isCRLF c = true ∧ folds (c :: x) = false
    · rw [nextLine_cons_of_end hend.1 hend.2]
      by_cases hcrlf : c = '\r' ∧ ∃ s, x = '\n' :: s
      · -- the LF of CR LF ends the same line
        obtain ⟨rfl, s, rfl⟩ := hcrlf
        have hnext : nextLine ('\n' :: s) = s := nextLine_cons_of_end rfl hend.2
        have hih := ih hy
        rw [hnext] at hih
        exact hih
      · rw [skipEOL_cons hcrlf]
        exact (ih hy).trans (lines_nextLine_suffix_self x)
    · rw [nextLine_cons_of_within hend]
      exact ih hy

/-! ## The headers -/

theorem getHeader_eq {s : Text} (hs : s ≠ []) :
    getHeader s = (if hasColon (spanEOH s).1 then some (headerOf (spanEOH s).1) else none,
      nextLine s) := by
  unfold getHeader hasColon
  rw [if_neg hs]
  dsimp only
  by_cases hcolon : ':' ∈ (spanEOH s).1
  · rw [if_pos hcolon, if_pos (List.contains_iff_mem.mpr hcolon)]
    rfl
  · rw [if_neg hcolon, if_neg (fun h => hcolon (List.contains_iff_mem.mp h))]
    rfl

theorem getHeaders_readHeaders (n : ℕ) (s : Text) :
    SipParser.getHeaders n s = (readHeaders n s).1 := by
  induction n generalizing s with
  | zero => rfl
  | succ n ih =>
    rw [SipParser.getHeaders, readHeaders]
    cases SipParser.getHeader s with
    | mk h s =>
      cases h with
      | none => rfl
      | some h =>
        dsimp only
        rw [ih]

theorem skipHeaders_of_le {n : ℕ} {s : Text} (hn : s.length ≤ n) :
    skipHeaders n s = unread s := by
  induction hlen : s.length using Nat.strong_induction_on generalizing n s with
  | _ k ih =>
    by_cases hs : s = []
    · rw [hs]
      cases n with
      | zero => rfl
      | succ n => rfl
    · have hpos := List.length_pos_iff.mpr hs
      have hlt := length_nextLine_lt hs
      obtain ⟨n, rfl⟩ : ∃ n', n = n' + 1 := ⟨n - 1, by omega⟩
      obtain ⟨m, hm⟩ : ∃ m, s.length = m + 1 := ⟨s.length - 1, by omega⟩
      unfold unread
      rw [hm, skipHeaders, skipHeaders, if_neg hs, if_neg hs,
        ih _ (by omega) (n := n) (s := nextLine s) (by omega) rfl,
        ih _ (by omega) (n := m) (s := nextLine s) (by omega) rfl]

theorem unread_eq {s : Text} (hs : s ≠ []) :
    unread s = if hasColon (spanEOH s).1 then unread (nextLine s) else nextLine s := by
  have hpos := List.length_pos_iff.mpr hs
  have hlt := length_nextLine_lt hs
  obtain ⟨m, hm⟩ : ∃ m, s.length = m + 1 := ⟨s.length - 1, by omega⟩
  have hskip : skipHeaders m (nextLine s) = unread (nextLine s) := skipHeaders_of_le (by omega)
  show skipHeaders s.length s = _
  rw [hm, skipHeaders, if_neg hs, hskip]

theorem readable_eq {s : Text} (hs : s ≠ []) :
    readable s = if hasColon (spanEOH s).1 then headerOf (spanEOH s).1 :: readable (nextLine s)
      else [] := by
  unfold readable
  rw [lines_eq hs]
  by_cases hcolon : hasColon (spanEOH s).1 = true
  · rw [if_pos hcolon, List.takeWhile_cons_of_pos hcolon, List.map_cons]
  · rw [if_neg hcolon, List.takeWhile_cons_of_neg hcolon]
    rfl

/-- **What is read and what is left**: the headers up to the first line without a colon, and what
follows this line. -/
theorem readHeaders_eq {n : ℕ} {s : Text} (hn : s.length ≤ n) :
    readHeaders n s = (readable s, unread s) := by
  induction n generalizing s with
  | zero =>
    rw [List.length_eq_zero_iff.mp (Nat.le_zero.mp hn)]
    rfl
  | succ n ih =>
    by_cases hs : s = []
    · rw [hs]
      rfl
    · have hlt := length_nextLine_lt hs
      rw [readHeaders, getHeader_eq hs, readable_eq hs, unread_eq hs]
      by_cases hcolon : hasColon (spanEOH s).1 = true
      · rw [if_pos hcolon, if_pos hcolon, if_pos hcolon]
        dsimp only
        rw [ih (by omega)]
      · rw [if_neg hcolon, if_neg hcolon, if_neg hcolon]

/-- The fields up to the first line without a colon, and behind it. -/
theorem fields_split (ls : List Text) :
    fields ls = fields (ls.takeWhile hasColon) ++ fields (ls.dropWhile hasColon) := by
  show List.filterMap _ _ = List.filterMap _ _ ++ List.filterMap _ _
  rw [← List.filterMap_append, List.takeWhile_append_dropWhile]

/-- The fields are the headers that have a name. -/
theorem filter_headerOf {ls : List Text} (hls : ∀ l ∈ ls, hasColon l = true) :
    (ls.map headerOf).filter (fun h => h.name ≠ []) = fields ls := by
  induction ls with
  | nil => rfl
  | cons l ls ih =>
    obtain ⟨hl, hls⟩ := List.forall_mem_cons.mp hls
    show _ = List.filterMap _ _
    by_cases hname : (headerOf l).name = []
    · have hnone : fieldOf l = none := if_neg fun hand => hand.2 hname
      rw [List.map_cons, List.filter_cons_of_neg (by simpa using hname), ih hls,
        List.filterMap_cons_none hnone]
      rfl
    · have hsome : fieldOf l = some (headerOf l) := if_pos ⟨hl, hname⟩
      rw [List.map_cons, List.filter_cons_of_pos (by simpa using hname), ih hls,
        List.filterMap_cons_some hsome]
      rfl

/-- The headers of the lines up to the first one without a colon have all the fields, if and only
if there is no field before them or behind them. -/
theorem fields_sublist_iff {all ls : List Text} (h : ls <:+ all) :
    List.Sublist (fields all) ((ls.takeWhile hasColon).map headerOf) ↔
      fields ls = fields all ∧ fields (ls.dropWhile hasColon) = [] := by
  have hread (ls : List Text) : List.Sublist (fields (ls.takeWhile hasColon))
      ((ls.takeWhile hasColon).map headerOf) := by
    induction ls with
    | nil => exact List.Sublist.refl _
    | cons l ls ih =>
      by_cases hl : hasColon l = true
      · rw [List.takeWhile_cons_of_pos hl]
        by_cases hname : (headerOf l).name = []
        · have hnone : fieldOf l = none := if_neg fun hand => hand.2 hname
          show List.Sublist (List.filterMap _ _) _
          rw [List.filterMap_cons_none hnone]
          exact ih.trans (List.sublist_cons_self _ _)
        · have hsome : fieldOf l = some (headerOf l) := if_pos ⟨hl, hname⟩
          show List.Sublist (List.filterMap _ _) _
          rw [List.filterMap_cons_some hsome]
          exact ih.cons_cons _
      · rw [List.takeWhile_cons_of_neg hl]
        exact List.Sublist.refl _
  have hsplit := fields_split ls
  obtain ⟨first, hall⟩ := h
  have hfields : fields all = fields first ++ fields ls := by
    rw [← hall]
    exact List.filterMap_append
  constructor
  · intro hsub
    -- the fields all have a name, and so have only the fields among what is read
    have hnamed : (fields all).filter (fun h => h.name ≠ []) = fields all := by
      refine List.filter_eq_self.mpr fun h hh => ?_
      obtain ⟨l, -, hl⟩ := List.mem_filterMap.mp hh
      unfold fieldOf at hl
      split at hl
      · rename_i hand
        obtain rfl := Option.some.inj hl
        simpa using hand.2
      · exact absurd hl (by simp)
    have hlength := (hsub.filter fun h => h.name ≠ []).length_le
    rw [hnamed, filter_headerOf fun l hl => List.mem_takeWhile_imp hl, hfields, hsplit] at hlength
    simp only [List.length_append] at hlength
    have hfirst : fields first = [] := List.length_eq_zero_iff.mp (by omega)
    refine ⟨?_, List.length_eq_zero_iff.mp (by omega)⟩
    rw [hfields, hfirst, List.nil_append]
  · rintro ⟨hsame, hbehind⟩
    rw [← hsame, hsplit, hbehind, List.append_nil]
    exact hread ls

/-- **The headers that are read are those of the lines up to the first one without a colon.** -/
theorem getHeaders_eq (s : Text) : SipParser.getHeaders s.length s = readable s := by
  rw [getHeaders_readHeaders, readHeaders_eq le_rfl]

end SipParser

end SoftPhone
