import SoftPhone.Text.Parser
import SoftPhone.Util.Gregorian

/-!
# Class `DateFormat`

A `Calendar` of a time zone goes between instants, in milliseconds, and calendar fields.  Here it is
any bijection: which days there are is a parameter, the same in all zones, and the fields of every
instant are valid.  A calendar that is set to fields that are not valid gives some instant.

`formatEEEddMMMyyyyhhmmss` writes the fields of the default zone of the writer, and the word GMT behind
them.  `parseEEEddMMMyyyyhhmmss` sets them in a new calendar, so in the default zone of the reader and
with the milliseconds of the current time (`parse_format`).
-/

namespace SoftPhone

open SipParser

/-! ## Class `Calendar` -/

/-- The fields of a `Calendar`.  The year is one of the current era. -/
structure CalendarFields where
  year : ℤ
  month : Fin 12
  dayOfMonth : ℤ
  hourOfDay : ℤ
  minute : ℤ
  second : ℤ
  millisecond : ℤ
  deriving DecidableEq

/-- The fields that an instant may have. -/
structure CalendarFields.Valid (IsDate : ℤ → Fin 12 → ℤ → Prop) (f : CalendarFields) : Prop where
  date : IsDate f.year f.month f.dayOfMonth
  day : 1 ≤ f.dayOfMonth ∧ f.dayOfMonth ≤ 31
  hour : 0 ≤ f.hourOfDay ∧ f.hourOfDay < 24
  minute : 0 ≤ f.minute ∧ f.minute < 60
  second : 0 ≤ f.second ∧ f.second < 60
  millisecond : 0 ≤ f.millisecond ∧ f.millisecond < 1000

/-- Class `Calendar`, for a time zone. -/
structure Calendar (IsDate : ℤ → Fin 12 → ℤ → Prop) where
  /-- `setTime` and `get`. -/
  fields : ℤ → CalendarFields
  /-- `get(Calendar.DAY_OF_WEEK)-1`. -/
  dayOfWeek : ℤ → Fin 7
  /-- `set` and `getTime`. -/
  time : CalendarFields → ℤ
  valid_fields : ∀ t, (fields t).Valid IsDate
  time_fields : ∀ t, time (fields t) = t
  fields_time : ∀ f : CalendarFields, f.Valid IsDate → fields (time f) = f

namespace Calendar

variable {IsDate : ℤ → Fin 12 → ℤ → Prop}

/-- Two valid fields of the same time are the same. -/
theorem time_eq_iff (c : Calendar IsDate) {f : CalendarFields} (hf : f.Valid IsDate) (t : ℤ) :
    c.time f = t ↔ f = c.fields t := by
  constructor
  · intro h
    rw [← h, c.fields_time f hf]
  · intro h
    rw [h, c.time_fields]

end Calendar

/-! ## Class `DateFormat` -/

namespace DateFormat

def months : List Text :=
  ["Jan".toList, "Feb".toList, "Mar".toList, "Apr".toList, "May".toList, "Jun".toList, "Jul".toList,
    "Aug".toList, "Sep".toList, "Oct".toList, "Nov".toList, "Dec".toList]

def weekdays : List Text :=
  ["Sun".toList, "Mon".toList, "Tue".toList, "Wed".toList, "Thu".toList, "Fri".toList, "Sat".toList]

/-- `if (day.length()==1) day="0"+day`. -/
def pad (s : Text) : Text := if s.length = 1 then '0' :: s else s

/-- `delim`. -/
def isDelim (c : Char) : Bool := [' ', ',', ':'].contains c

section Format

variable {IsDate : ℤ → Fin 12 → ℤ → Prop} (c : Calendar IsDate)

/-- `formatEEEddMMMyyyyhhmmss(date)`. -/
def formatEEEddMMMyyyyhhmmss (date : ℤ) : Text :=
  let f := c.fields date
  let weekday := weekdays.getD (c.dayOfWeek date) []
  let month := months.getD f.month []
  weekday ++ ',' :: (' ' :: (pad (valueOf f.dayOfMonth) ++ ' ' :: (month ++ ' ' :: (valueOf f.year ++
    ' ' :: (pad (valueOf f.hourOfDay) ++ ':' :: (pad (valueOf f.minute) ++ ':' ::
      (pad (valueOf f.second) ++ " GMT".toList)))))))

/-- `parseEEEddMMMyyyyhhmmss(str,index)`, of what `str` has from `index` on, with the current time.
The result is null if there is no such month or a number cannot be read: `getDate` catches the
exception. -/
def parseEEEddMMMyyyyhhmmss (now : ℤ) (str : Text) : Option ℤ := do
  let weekday := getString str
  let day := getString weekday.2
  let dayOfMonth ← parseInt day.1
  let mmm := getString day.2
  let month ← (List.finRange 12).find? fun (i : Fin 12) =>
    equalsIgnoreCase mmm.1 (months.getD i [])
  let yyyy := getString mmm.2
  let year ← parseInt yyyy.1
  let hh := getWordOf isDelim yyyy.2
  let hourOfDay ← parseInt hh.1
  let mm := getWordOf isDelim hh.2
  let minute ← parseInt mm.1
  let ss := getWordOf isDelim mm.2
  let second ← parseInt ss.1
  some (c.time ⟨year, month, dayOfMonth, hourOfDay, minute, second, (c.fields now).millisecond⟩)

end Format

/-! ## Numbers -/

theorem isDelim_of_isDigit {c : Char} (h : c.isDigit = true) : isDelim c = false := by
  have hne {d : Char} (hd : d.isDigit = false) : c ≠ d := by
    rintro rfl
    exact absurd (hd.symm.trans h) (by decide)
  simp only [isDelim, List.contains_cons, List.contains_nil, Bool.or_false, Bool.or_eq_false_iff,
    beq_eq_false_iff_ne]
  exact ⟨hne (by decide), hne (by decide), hne (by decide)⟩

section Numbers

variable {n : ℤ}

theorem isDigit_pad (hn : 0 ≤ n) : ∀ c ∈ pad (valueOf n), c.isDigit = true := by
  intro c hc
  unfold pad at hc
  split at hc
  · rcases List.mem_cons.mp hc with rfl | hc
    · decide
    · exact isDigit_valueOf hn hc
  · exact isDigit_valueOf hn hc

theorem pad_ne_nil (n : ℤ) : pad (valueOf n) ≠ [] := by
  unfold pad
  split
  · exact List.cons_ne_nil _ _
  · exact valueOf_ne_nil n

/-- A number is read again, with the zero in front of it. -/
theorem parseInt_pad (hn : 0 ≤ n ∧ n ≤ 2147483647) : parseInt (pad (valueOf n)) = some n := by
  have hread := parseInt_valueOf (n := n) (by omega)
  unfold pad
  split
  · have hdigits : ∀ c ∈ valueOf n, c.isDigit = true := fun c => isDigit_valueOf hn.1
    have hzero : ∀ c ∈ '0' :: valueOf n, c.isDigit = true := by
      rw [List.forall_mem_cons]
      exact ⟨by decide, hdigits⟩
    have hparse : parseDigits ('0' :: valueOf n) = parseDigits (valueOf n) := by
      unfold parseDigits
      rw [if_pos ⟨List.cons_ne_nil _ _, List.all_eq_true.mpr hzero⟩,
        if_pos ⟨valueOf_ne_nil n, List.all_eq_true.mpr hdigits⟩]
      rfl
    unfold parseInt at hread ⊢
    rwa [parseSigned_of_isDigit hzero, hparse, ← parseSigned_of_isDigit hdigits]
  · exact hread

/-- A number of two digits, and a delimiter. -/
theorem getWordOf_pad (hn : 0 ≤ n) {s : Text} (hs : ∀ c ∈ s.head?, isDelim c = true) :
    getWordOf isDelim (pad (valueOf n) ++ s) = (pad (valueOf n), s) :=
  getWordOf_append (pad_ne_nil n) (fun c hc => isDelim_of_isDigit (isDigit_pad hn c hc)) hs

end Numbers

/-! ## What is written is read -/

theorem weekday_chars (i : Fin 7) : ∀ c ∈ weekdays.getD i [] ++ [','], isChar c = true := by
  revert i
  decide

theorem month_chars (i : Fin 12) :
    months.getD i [] ≠ [] ∧ ∀ c ∈ months.getD i [], isChar c = true := by
  revert i
  decide

/-- A month is the only one of its name. -/
theorem find_month (i : Fin 12) : ((List.finRange 12).find? fun (j : Fin 12) =>
    equalsIgnoreCase (months.getD i []) (months.getD j [])) = some i := by
  revert i
  decide

section Written

variable {IsDate : ℤ → Fin 12 → ℤ → Prop} (c : Calendar IsDate)

/-- Letters, digits and the delimiters. -/
def isDateChar (c : Char) : Bool := c.isAlpha || c.isDigit || isDelim c

theorem chars_format {date : ℤ} (hyear : 0 ≤ (c.fields date).year) :
    ∀ a ∈ formatEEEddMMMyyyyhhmmss c date, isDateChar a = true := by
  have hvalid := c.valid_fields date
  have hday := hvalid.day
  have hdigits {s : Text} (hs : ∀ a ∈ s, a.isDigit = true) : ∀ a ∈ s, isDateChar a = true :=
    fun a ha => by simp [isDateChar, hs a ha]
  have hweekday (i : Fin 7) : ∀ a ∈ weekdays.getD i [], isDateChar a = true := by
    revert i
    decide
  have hmonth (i : Fin 12) : ∀ a ∈ months.getD i [], isDateChar a = true := by
    revert i
    decide
  have hspace : isDateChar ' ' = true := by decide
  have hcomma : isDateChar ',' = true := by decide
  have hcolon : isDateChar ':' = true := by decide
  unfold formatEEEddMMMyyyyhhmmss
  simp only [List.forall_mem_append, List.forall_mem_cons, hspace, hcomma, hcolon, true_and]
  exact ⟨hweekday _, hdigits (isDigit_pad (by omega)), hmonth _,
    hdigits fun a => isDigit_valueOf hyear, hdigits (isDigit_pad hvalid.hour.1),
    hdigits (isDigit_pad hvalid.minute.1), hdigits (isDigit_pad hvalid.second.1), by decide⟩

/-- The text ends with GMT. -/
theorem suffix_format (date : ℤ) : "GMT".toList <:+ formatEEEddMMMyyyyhhmmss c date := by
  have happend {s : Text} (h : "GMT".toList <:+ s) (a : Text) : "GMT".toList <:+ a ++ s :=
    h.trans (List.suffix_append a s)
  have hcons {s : Text} (h : "GMT".toList <:+ s) (a : Char) : "GMT".toList <:+ a :: s :=
    h.trans (List.suffix_cons a s)
  have hend : "GMT".toList <:+ " GMT".toList := ⟨[' '], rfl⟩
  unfold formatEEEddMMMyyyyhhmmss
  dsimp only
  refine happend (hcons (hcons (happend (hcons (happend (hcons (happend (hcons ?_ _) _) _) _) _) _)
    _) _) _
  exact happend (hcons (happend (hcons (happend hend _) _) _) _) _

end Written

section Parse

variable {IsDate : ℤ → Fin 12 → ℤ → Prop} (writer reader : Calendar IsDate)

/-- **What the reader makes of a date**: an instant that has the fields of the writer in the zone of
the reader, and the milliseconds of the current time. -/
theorem parse_format (now : ℤ) {d : ℤ}
    (hyear : 1000 ≤ (writer.fields d).year ∧ (writer.fields d).year ≤ 9999) :
    parseEEEddMMMyyyyhhmmss reader now (formatEEEddMMMyyyyhhmmss writer d) =
      some (reader.time { writer.fields d with
        millisecond := (reader.fields now).millisecond }) := by
  have hvalid := writer.valid_fields d
  have hday := hvalid.day
  have hhour := hvalid.hour
  have hminute := hvalid.minute
  have hsecond := hvalid.second
  set f := writer.fields d with hf
  have hchars {n : ℤ} (hn : 0 ≤ n) : ∀ c ∈ pad (valueOf n), isChar c = true :=
    fun c hc => isChar_of_isDigit (isDigit_pad hn c hc)
  have hcolon (s : Text) : ∀ c ∈ (':' :: s).head?, isDelim c = true := by
    intro c hc
    rw [← Option.some.inj hc]
    decide
  have hweekday (s : Text) : getString (weekdays.getD (writer.dayOfWeek d) [] ++ ',' :: (' ' :: s)) =
      (weekdays.getD (writer.dayOfWeek d) [] ++ [','], ' ' :: s) := by
    rw [List.append_cons]
    exact getString_blank (weekday_chars _) (by simp) s
  obtain ⟨hne, hmonth⟩ := month_chars f.month
  unfold parseEEEddMMMyyyyhhmmss formatEEEddMMMyyyyhhmmss
  dsimp only
  rw [← hf, hweekday]
  dsimp only
  rw [getString_space, getString_blank (hchars (by omega)) (pad_ne_nil _)]
  dsimp only
  rw [getString_space, getString_blank hmonth hne]
  dsimp only
  rw [getString_space, getString_blank (fun c => isChar_valueOf) (valueOf_ne_nil _)]
  dsimp only
  rw [getWordOf_cons (by decide), getWordOf_pad hhour.1 (hcolon _)]
  dsimp only
  rw [getWordOf_cons (by decide), getWordOf_pad hminute.1 (hcolon _)]
  dsimp only
  rw [getWordOf_cons (by decide), getWordOf_pad hsecond.1 (by decide), parseInt_pad (by omega),
    find_month, parseInt_valueOf (by omega), parseInt_pad (by omega), parseInt_pad (by omega),
    parseInt_pad (by omega)]
  rfl

end Parse

end DateFormat

/-! ## The Gregorian calendar -/

namespace Calendar

/-- The days of the Gregorian calendar. -/
def IsGregorian (year : ℤ) (month : Fin 12) (day : ℤ) : Prop := Gregorian.IsDate year month day

/-- The day of 1 January 1970. -/
def epochDay : ℤ := 719162

/-- The fields of a time in milliseconds from 1 January 1970, without an offset. -/
def gregorianFields (t : ℤ) : CalendarFields where
  year := Gregorian.yearOf (t / 86400000 + epochDay)
  month := ⟨Gregorian.monthOf (t / 86400000 + epochDay), (Gregorian.isDate_dateOf _).bounds.1⟩
  dayOfMonth := Gregorian.dayOf (t / 86400000 + epochDay)
  hourOfDay := t % 86400000 / 3600000
  minute := t % 3600000 / 60000
  second := t % 60000 / 1000
  millisecond := t % 1000

/-- The time of some fields. -/
def gregorianTime (f : CalendarFields) : ℤ :=
  (Gregorian.dayNumber f.year f.month f.dayOfMonth - epochDay) * 86400000 + f.hourOfDay * 3600000 +
    f.minute * 60000 + f.second * 1000 + f.millisecond

theorem valid_gregorianFields (t : ℤ) : (gregorianFields t).Valid IsGregorian where
  date := Gregorian.isDate_dateOf _
  day := (Gregorian.isDate_dateOf _).bounds.2
  hour := by
    show 0 ≤ t % 86400000 / 3600000 ∧ t % 86400000 / 3600000 < 24
    omega
  minute := by
    show 0 ≤ t % 3600000 / 60000 ∧ t % 3600000 / 60000 < 60
    omega
  second := by
    show 0 ≤ t % 60000 / 1000 ∧ t % 60000 / 1000 < 60
    omega
  millisecond := by
    show 0 ≤ t % 1000 ∧ t % 1000 < 1000
    omega

theorem gregorianTime_gregorianFields (t : ℤ) : gregorianTime (gregorianFields t) = t := by
  unfold gregorianTime gregorianFields
  dsimp only
  rw [Gregorian.dayNumber_dateOf]
  omega

/-- The milliseconds are replaced. -/
theorem gregorianTime_millisecond (t millisecond : ℤ) :
    gregorianTime { gregorianFields t with millisecond := millisecond } =
      t - t % 1000 + millisecond := by
  have h := gregorianTime_gregorianFields t
  unfold gregorianTime gregorianFields at h ⊢
  dsimp only at h ⊢
  omega

theorem gregorianFields_gregorianTime {f : CalendarFields} (hf : f.Valid IsGregorian) :
    gregorianFields (gregorianTime f) = f := by
  obtain ⟨hdate, -, hhour, hminute, hsecond, hmillisecond⟩ := hf
  obtain ⟨hyear, hmonth, hday⟩ := Gregorian.dateOf_dayNumber hdate
  have htime : gregorianTime f = (Gregorian.dayNumber f.year f.month f.dayOfMonth - epochDay) *
      86400000 + f.hourOfDay * 3600000 + f.minute * 60000 + f.second * 1000 + f.millisecond := rfl
  have hnumber : gregorianTime f / 86400000 + epochDay =
      Gregorian.dayNumber f.year f.month f.dayOfMonth := by
    omega
  unfold gregorianFields
  simp only [hnumber, hyear, hmonth, hday]
  obtain ⟨year, month, day, hour, minute, second, millisecond⟩ := f
  simp only [CalendarFields.mk.injEq, Fin.eta, true_and]
  dsimp only at hhour hminute hsecond hmillisecond htime
  omega

/-- The calendar of a zone with a constant offset. -/
def ofOffset (offset : ℤ) : Calendar IsGregorian where
  fields t := gregorianFields (t + offset)
  dayOfWeek t := ⟨(((t + offset) / 86400000 + epochDay + 1) % 7).toNat, by omega⟩
  time f := gregorianTime f - offset
  valid_fields _ := valid_gregorianFields _
  time_fields t := by rw [gregorianTime_gregorianFields, Int.add_sub_cancel]
  fields_time f hf := by rw [Int.sub_add_cancel, gregorianFields_gregorianTime hf]

example : DateFormat.formatEEEddMMMyyyyhhmmss (ofOffset 3600000) 1704445200000 =
    "Fri, 05 Jan 2024 10:00:00 GMT".toList := by decide +kernel

end Calendar
end SoftPhone
