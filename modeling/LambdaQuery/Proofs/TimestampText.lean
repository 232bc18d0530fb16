/-
**Timestamps survive their texts.**  What is written of a moment is its date and its time of day in
digits of fixed widths, so the reader finds each number where the one before it ends, and the three
spellings that it accepts differ in nothing but what follows the digits.  An offset moves the moment
by whole seconds, over the ends of days, months and years alike.

Main definitions:
* `Timestamp.seconds`, `Timestamp.later` — the seconds that a moment counts, and the moment so many
  seconds later;
* `WrittenDate`, `WrittenClock`, `WrittenOffset` — dates, times of day and offsets in canonical
  digits, whether or not there are such.

Main results:
* `Timestamp.ofParts?_eq_some_iff` — the moment of a date and a time of day, in seconds;
* `Timestamp.ofParts?_offset` — an offset is taken away from the moment;
* `WrittenDate.dateText_eq`, `WrittenClock.clockText_eq`, `Timestamp.offsetText_written` — what is
  written is read;
* `Timestamp.parse?_bare`, `Timestamp.parse?_utc`, `Timestamp.parse?_date`,
  `Timestamp.parse?_offset` — the moments that the spellings name;
* `Timestamp.format_eq` — the text of a moment is its date, its time of day and no offset;
* `Timestamp.survives_text` — **a moment is read back from its text, and the spellings agree**.
-/

import LambdaQuery.Proofs.CalendarDays
import LambdaQuery.Proofs.TokenSpelling
import LambdaQuery.Timestamp.Text

namespace LambdaQuery

open Text

/-! ### Moments in seconds -/

namespace Timestamp

/-- The seconds of a moment, from the first day of the year 1 on. -/
def seconds (t : Timestamp) : Int := t.day * 86400 + t.second

theorem day_eq (t : Timestamp) : t.day = t.seconds / 86400 := by
  have hsecond := t.second_lt
  rw [seconds]
  omega

theorem eq_of_seconds {s t : Timestamp} (h : s.seconds = t.seconds) (hn : s.nano = t.nano) :
    s = t := by
  obtain ⟨day, second, nano, hsecond, hnano⟩ := s
  obtain ⟨day', second', nano', hsecond', hnano'⟩ := t
  simp only [seconds] at h
  obtain rfl : nano = nano' := hn
  obtain rfl : day = day' := by omega
  obtain rfl : second = second' := by omega
  rfl

/-- The moment so many seconds later. -/
def later (t : Timestamp) (seconds : Int) : Timestamp where
  day := t.day + (t.second + seconds) / 86400
  second := ((t.second + seconds) % 86400).toNat
  nano := t.nano
  second_lt := by omega
  nano_lt := t.nano_lt

@[simp] theorem seconds_later (t : Timestamp) (n : Int) : (t.later n).seconds = t.seconds + n := by
  simp only [seconds, later]
  omega

@[simp] theorem nano_later (t : Timestamp) (n : Int) : (t.later n).nano = t.nano := rfl

theorem later_later (t : Timestamp) (m n : Int) : (t.later m).later n = t.later (m + n) :=
  eq_of_seconds (by simp [Int.add_assoc]) rfl

@[simp] theorem later_zero (t : Timestamp) : t.later 0 = t := eq_of_seconds (by simp) rfl

namespace Clock

/-- The seconds of the day before the time.  While a leap second lasts the one before it counts. -/
def seconds (c : Clock) : Nat :=
  c.hour * 3600 + c.minute * 60 + if c.second = 60 then 59 else c.second

/-- The nanoseconds past these. -/
def nanos (c : Clock) : Nat := if c.second = 60 then c.nano + 1000000000 else c.nano

theorem isValid_iff {c : Clock} : c.isValid = true ↔ c.hour < 24 ∧ c.minute < 60 ∧ c.second ≤ 60 ∧
    c.nano < 1000000000 ∧ -86400 < c.offset ∧ c.offset < 86400 := by
  simp [isValid, and_assoc]

theorem seconds_lt {c : Clock} (h : c.isValid = true) : c.seconds < 86400 := by
  obtain ⟨hhour, hminute, hsecond, -⟩ := isValid_iff.mp h
  rw [seconds]
  split <;> omega

theorem nanos_lt {c : Clock} (h : c.isValid = true) : c.nanos < 2000000000 := by
  obtain ⟨-, -, -, hnano, -⟩ := isValid_iff.mp h
  rw [nanos]
  split <;> omega

end Clock

/-- **The moment of a date and a time of day** counts the seconds of the days before the date, those
of the day before the time and none for the offset. -/
theorem ofParts?_eq_some_iff {d : Date} {c : Clock} {t : Timestamp} :
    ofParts? d c = some t ↔ (d.IsValid ∧ yearInRange d.year = true ∧ c.isValid = true) ∧
      yearInRange t.year = true ∧ t.seconds = d.toDay * 86400 + c.seconds - c.offset ∧
        t.nano = c.nanos := by
  rw [ofParts?]
  split
  · rename_i hvalid
    have hnanos := Clock.nanos_lt hvalid.2.2
    let second : Int := c.seconds - c.offset
    have hday (t : Timestamp) (ht : t.seconds = d.toDay * 86400 + c.seconds - c.offset) :
        t.day = d.toDay + second / 86400 := by
      rw [day_eq, ht]
      omega
    show (if h : (second % 86400).toNat < 86400 ∧ c.nanos < 2000000000 ∧
      yearInRange (Date.yearOf (d.toDay + second / 86400)) = true then some _ else none) = _ ↔ _
    have hsum : (d.toDay + second / 86400) * 86400 + ((second % 86400).toNat : Int) =
        d.toDay * 86400 + c.seconds - c.offset := by
      have hsecond : second = c.seconds - c.offset := rfl
      omega
    split
    · rename_i h
      rw [Option.some.injEq]
      constructor
      · rintro rfl
        exact ⟨hvalid, h.2.2, hsum, rfl⟩
      · rintro ⟨-, -, ht, hn⟩
        exact eq_of_seconds (hsum.trans ht.symm) hn.symm
    · rename_i h
      refine iff_of_false (fun hnone => by cases hnone) ?_
      rintro ⟨-, hyear, ht, -⟩
      refine h ⟨by omega, hnanos, ?_⟩
      rw [← hday t ht]
      exact hyear
  · rename_i hvalid
    simp [hvalid]

end Timestamp

/-! ### Dates and times in digits -/

/-- A date in four digits for the year and two each for the month and the day. -/
structure WrittenDate where
  year : Fin 10000
  month : Fin 100
  day : Fin 100

/-- A time of day in two digits each, with any digits of a fraction. -/
structure WrittenClock where
  hour : Fin 100
  minute : Fin 100
  second : Fin 100
  fraction : List Char
  fraction_digits : ∀ c ∈ fraction, isDigit c = true

/-- An offset from universal time: a sign, and two digits each for the hours and the minutes. -/
structure WrittenOffset where
  ahead : Bool
  hours : Fin 100
  minutes : Fin 100

open Timestamp

namespace WrittenDate

/-- `YYYY-MM-DD` -/
def text (d : WrittenDate) : String :=
  padded 4 d.year ++ "-" ++ padded 2 d.month ++ "-" ++ padded 2 d.day

def date (d : WrittenDate) : Date := ⟨(d.year : Nat), d.month, d.day⟩

end WrittenDate

namespace WrittenClock

/-- `HH:MM:SS` with a fraction, if there are digits of it. -/
def text (c : WrittenClock) : String :=
  padded 2 c.hour ++ ":" ++ padded 2 c.minute ++ ":" ++ padded 2 c.second ++
    if c.fraction = [] then "" else "." ++ String.ofList c.fraction

/-- The nanoseconds of a fraction.  Digits past the ninth do not count. -/
def nanosOf (fraction : List Char) : Nat :=
  digitsValue (fraction.take 9) * 10 ^ (9 - (fraction.take 9).length)

/-- The time that is written, at no offset. -/
def clock (c : WrittenClock) : Clock := ⟨c.hour, c.minute, c.second, nanosOf c.fraction, 0⟩

end WrittenClock

namespace WrittenOffset

/-- `+HH:MM` or `-HH:MM` -/
def text (o : WrittenOffset) : String :=
  (if o.ahead then "+" else "-") ++ padded 2 o.hours ++ ":" ++ padded 2 o.minutes

def seconds (o : WrittenOffset) : Int :=
  if o.ahead then (o.hours * 3600 + o.minutes * 60 : Nat)
  else -(o.hours * 3600 + o.minutes * 60 : Nat)

/-- Is the offset one of less than a day? -/
def IsValid (o : WrittenOffset) : Prop := (o.hours : Nat) < 24 ∧ (o.minutes : Nat) < 60

instance (o : WrittenOffset) : Decidable o.IsValid := inferInstanceAs (Decidable (_ ∧ _))

theorem isValid_iff {o : WrittenOffset} : o.IsValid ↔
    (o.minutes : Nat) < 60 ∧ -86400 < o.seconds ∧ o.seconds < 86400 := by
  rw [IsValid, seconds]
  split <;> omega

end WrittenOffset

/-! ### Moments of written dates -/

/-- Years of four digits lie far from the first and the last one. -/
theorem WrittenDate.yearInRange {d : WrittenDate} (h : d.date.IsValid) {n : Int}
    (hlow : d.date.toDay - 1 ≤ n) (hhigh : n ≤ d.date.toDay + 1) :
    Timestamp.yearInRange (Date.yearOf n) = true := by
  have hyear : Date.yearOf d.date.toDay = (d.year : Nat) := h.yearOf_toDay
  have hfirst : 0 ≤ Date.yearOf d.date.toDay := by omega
  have hlast : ¬ 10000 ≤ Date.yearOf d.date.toDay := by omega
  rw [Date.le_yearOf_iff] at hfirst hlast
  have hbegin : Date.daysBefore firstYear ≤ Date.daysBefore 0 - 1 := by decide
  have hend : Date.daysBefore 10000 + 1 ≤ Date.daysBefore (lastYear + 1) := by decide
  have hafter : firstYear ≤ Date.yearOf n := Date.le_yearOf_iff.mpr (by omega)
  have hbefore : ¬ lastYear + 1 ≤ Date.yearOf n := by
    rw [Date.le_yearOf_iff]
    omega
  rw [Timestamp.yearInRange, Bool.and_eq_true, decide_eq_true_eq, decide_eq_true_eq]
  omega

theorem Timestamp.ofParts?_written {d : WrittenDate} {c : Clock} {t : Timestamp} :
    ofParts? d.date c = some t ↔ d.date.IsValid ∧ c.isValid = true ∧
      t.seconds = d.date.toDay * 86400 + c.seconds - c.offset ∧ t.nano = c.nanos := by
  rw [ofParts?_eq_some_iff]
  constructor
  · rintro ⟨⟨hdate, -, hclock⟩, -, hseconds, hnano⟩
    exact ⟨hdate, hclock, hseconds, hnano⟩
  · rintro ⟨hdate, hclock, hseconds, hnano⟩
    have hown : yearInRange d.date.year = true := by
      rw [← hdate.yearOf_toDay]
      exact WrittenDate.yearInRange hdate (by omega) (by omega)
    have hlt := Clock.seconds_lt hclock
    obtain ⟨-, -, -, -, hlow, hhigh⟩ := Clock.isValid_iff.mp hclock
    -- time and offset are less than a day each, so the moment is at most a day away
    have hday := t.day_eq
    rw [hseconds] at hday
    exact ⟨⟨hdate, hown, hclock⟩, WrittenDate.yearInRange hdate (by omega) (by omega), hseconds,
      hnano⟩

/-- **An offset is taken away from the moment**, if it is less than a day. -/
theorem Timestamp.ofParts?_offset (d : WrittenDate) {c : Clock} (hc : c.offset = 0) (offset : Int) :
    ofParts? d.date { c with offset } = if -86400 < offset ∧ offset < 86400 then
      (ofParts? d.date c).map fun t => t.later (-offset) else none := by
  have hsame : Clock.seconds { c with offset } = c.seconds := rfl
  have hnanos : Clock.nanos { c with offset } = c.nanos := rfl
  have hvalid : Clock.isValid { c with offset } = true ↔
      c.isValid = true ∧ -86400 < offset ∧ offset < 86400 := by
    rw [Clock.isValid_iff, Clock.isValid_iff, hc]
    dsimp only
    omega
  ext u
  rw [ofParts?_written, hvalid, hsame, hnanos]
  dsimp only
  split
  · rename_i hoffset
    rw [Option.map_eq_some_iff]
    constructor
    · rintro ⟨hdate, ⟨hclock, -⟩, hseconds, hnano⟩
      -- without the offset it would be later by as much
      refine ⟨u.later offset, ofParts?_written.mpr ⟨hdate, hclock, ?_, hnano⟩, ?_⟩
      · rw [seconds_later, hseconds, hc]
        omega
      · rw [later_later, Int.add_right_neg, later_zero]
    · rintro ⟨t, ht, rfl⟩
      obtain ⟨hdate, hclock, hseconds, hnano⟩ := ofParts?_written.mp ht
      refine ⟨hdate, ⟨hclock, hoffset⟩, ?_, hnano⟩
      rw [seconds_later, hseconds, hc]
      omega
  · rename_i hoffset
    exact iff_of_false (fun h => hoffset h.2.1.2) (fun h => by cases h)

/-! ### Numbers in digits -/

theorem digitsValue_append (cs ds : List Char) :
    digitsValue (cs ++ ds) =
      ds.foldl (fun n c => 10 * n + (c.toNat - '0'.toNat)) (digitsValue cs) :=
  List.foldl_append

/-- A number that is filled up with zeros is written in as many digits as asked for. -/
theorem Timestamp.padded_spec {w n : Nat} (hw : 0 < w) (h : n < 10 ^ w) :
    Digits n (padded w n).toList ∧ (padded w n).toList.length = w := by
  have hdigits := Digits.toDigits n
  have hlength : (Nat.toDigits 10 n).length ≤ w := Nat.toDigits_length 10 n w hw h
  have htext : (padded w n).toList =
      List.replicate (w - (Nat.toDigits 10 n).length) '0' ++ Nat.toDigits 10 n := by
    have hrepr : (toString n).toList = Nat.toDigits 10 n := Nat.toList_repr
    simp only [padded]
    rw [String.toList_append, String.toList_ofList, ← String.length_toList, hrepr]
  have hzeros (k : Nat) : digitsValue (List.replicate k '0') = 0 := by
    induction k with
    | zero => rfl
    | succ k ih =>
        rw [List.replicate_succ', digitsValue_append, ih]
        rfl
  rw [htext]
  refine ⟨⟨?_, ?_, ?_⟩, ?_⟩
  · exact List.append_ne_nil_of_right_ne_nil _ hdigits.nonempty
  · intro c hc
    rcases List.mem_append.mp hc with hc | hc
    · rw [List.eq_of_mem_replicate hc]
      decide
    · exact hdigits.digits c hc
  · rw [digitsValue_append, hzeros]
    exact hdigits.value
  · rw [List.length_append, List.length_replicate]
    omega

/-! ### Reading digits -/

namespace Timestamp

variable {w n : Nat} {loose : Bool} {rest : List Char}

/-- A sign that is no blank is read wherever it stands. -/
theorem mark_cons {c : Char} (h : isBlank c = false) : mark c loose (c :: rest) = some rest := by
  cases loose <;> simp [mark, skipBlanks, h]

/-- Digits as many as can be read are read, and there are no blanks before them. -/
theorem number_of_digits {written : List Char} (h : Digits n written) (rest : List Char) :
    skipBlanks (written ++ rest) = written ++ rest ∧
      number written.length (written ++ rest) = some (n, rest) := by
  have hskip : skipBlanks (written ++ rest) = written ++ rest := by
    obtain ⟨c, cs, rfl, hc⟩ := h.exists_cons
    rw [skipBlanks, List.cons_append,
      List.dropWhile_cons_of_neg (by simp [isBlank_of_isDigit hc])]
  have htake : ((written ++ rest).takeWhile isDigit).take written.length = written := by
    rw [List.takeWhile_append_of_pos h.digits, List.take_left']
    rfl
  refine ⟨hskip, ?_⟩
  simp only [number, hskip, htake, List.drop_left', List.isEmpty_iff, h.nonempty, if_false, h.value]

theorem number_padded (hw : 0 < w) (h : n < 10 ^ w) :
    number w ((padded w n).toList ++ rest) = some (n, rest) := by
  obtain ⟨hdigits, hlength⟩ := padded_spec hw h
  have hread := (number_of_digits hdigits rest).2
  rwa [hlength] at hread

/-- A year in four digits has no sign. -/
theorem yearNumber_padded (h : n < 10000) :
    yearNumber ((padded 4 n).toList ++ rest) = some ((n : Int), rest) := by
  obtain ⟨hdigits, -⟩ := padded_spec (w := 4) (by decide) h
  have hskip := (number_of_digits hdigits rest).1
  have hread : number 4 ((padded 4 n).toList ++ rest) = some (n, rest) :=
    number_padded (by decide) h
  obtain ⟨c, cs, hcs, hc⟩ := hdigits.exists_cons
  rw [hcs, List.cons_append] at hskip hread ⊢
  rw [yearNumber, hskip]
  split
  · rename_i hsign
    rw [(List.cons.inj hsign).1] at hc
    cases hc
  · rename_i hsign
    rw [(List.cons.inj hsign).1] at hc
    cases hc
  · rw [hread]
    rfl

end Timestamp

namespace WrittenDate

variable (d : WrittenDate) (loose : Bool) (rest : List Char)

theorem toList_text : d.text.toList = (padded 4 d.year).toList ++
    '-' :: ((padded 2 d.month).toList ++ '-' :: (padded 2 d.day).toList) := by
  simp [text]

/-- **A written date is read.** -/
theorem dateText_eq : dateText loose (d.text.toList ++ rest) = some (d.date, rest) := by
  have hmark (cs : List Char) : mark '-' loose ('-' :: cs) = some cs := mark_cons (by decide)
  rw [toList_text, List.append_assoc, List.cons_append, List.append_assoc, List.cons_append,
    dateText, yearNumber_padded d.year.isLt]
  simp only [Option.bind_eq_bind, Option.bind_some, hmark,
    number_padded (w := 2) (by decide) d.month.isLt, number_padded (w := 2) (by decide) d.day.isLt]
  rfl

end WrittenDate

/-- A text that cannot go on with more of a number or a fraction. -/
def EndsTime (rest : List Char) : Prop := ∀ c ∈ rest.head?, isDigit c = false ∧ c ≠ '.'

namespace WrittenClock

variable (c : WrittenClock) (loose : Bool) {rest : List Char}

/-- A fraction as it is written. -/
def fractionChars (fraction : List Char) : List Char :=
  if fraction = [] then [] else '.' :: fraction

theorem toList_text : c.text.toList = (padded 2 c.hour).toList ++
    ':' :: ((padded 2 c.minute).toList ++
      ':' :: ((padded 2 c.second).toList ++ fractionChars c.fraction)) := by
  rw [text, fractionChars]
  split <;> simp

/-- A fraction is read to its last digit. -/
theorem fractionText_eq {fraction : List Char} (h : ∀ c ∈ fraction, isDigit c = true)
    (hrest : EndsTime rest) :
    fractionText (fractionChars fraction ++ rest) = some (nanosOf fraction, rest) := by
  rw [fractionChars]
  split
  · rename_i hempty
    subst hempty
    rw [List.nil_append]
    unfold fractionText
    split
    · exact absurd rfl (hrest '.' rfl).2
    · rfl
  · rename_i hne
    obtain ⟨htake, hdrop⟩ := takeWhile_append_of_head h fun c hc => (hrest c hc).1
    simp only [List.cons_append, fractionText, htake, hdrop, List.isEmpty_iff, hne, if_false,
      nanosOf]
    rfl

/-- **A written time is read.** -/
theorem clockText_eq (hrest : EndsTime rest) :
    clockText loose (c.text.toList ++ rest) = some (c.clock, rest) := by
  have hmark (cs : List Char) : mark ':' loose (':' :: cs) = some cs := mark_cons (by decide)
  rw [toList_text, List.append_assoc, List.cons_append, List.append_assoc, List.cons_append,
    List.append_assoc, clockText]
  simp only [Option.bind_eq_bind, Option.bind_some, hmark,
    number_padded (w := 2) (by decide) c.hour.isLt,
    number_padded (w := 2) (by decide) c.minute.isLt,
    number_padded (w := 2) (by decide) c.second.isLt, fractionText_eq c.fraction_digits hrest]
  rfl

end WrittenClock

/-! ### The three spellings -/

namespace Timestamp

variable (d : WrittenDate) (c : WrittenClock) {rest : List Char}

theorem withOffset?_written (h : EndsTime rest) :
    withOffset? (d.text.toList ++ 'T' :: (c.text.toList ++ rest)) =
      (offsetText (skipBlanks rest)).bind fun (offset, rest) =>
        if rest.all isBlank then ofParts? d.date { c.clock with offset } else none := by
  rw [withOffset?, d.dateText_eq]
  simp only [Option.bind_eq_bind, Option.bind_some, c.clockText_eq true h]

theorem withoutOffset?_written (h : EndsTime rest) :
    withoutOffset? (d.text.toList ++ 'T' :: (c.text.toList ++ rest)) =
      if rest.isEmpty then ofParts? d.date c.clock else none := by
  have hmark (cs : List Char) : mark 'T' false ('T' :: cs) = some cs := mark_cons (by decide)
  rw [withoutOffset?, d.dateText_eq]
  simp only [Option.bind_eq_bind, Option.bind_some, hmark, c.clockText_eq false h]

theorem dateOnly?_written (rest : List Char) :
    dateOnly? (d.text.toList ++ rest) =
      if rest.isEmpty then ofParts? d.date ⟨0, 0, 0, 0, 0⟩ else none := by
  rw [dateOnly?, d.dateText_eq]
  rfl

/-- What follows a date and a time decides the spelling: without it they are read as they are, and
else it has to be an offset. -/
theorem parse?_written {text : String} (h : EndsTime rest)
    (htext : text.toList = d.text.toList ++ 'T' :: (c.text.toList ++ rest)) : parse? text =
      if rest = [] then ofParts? d.date c.clock
      else (offsetText (skipBlanks rest)).bind fun (offset, rest) =>
        if rest.all isBlank then ofParts? d.date { c.clock with offset } else none := by
  simp only [parse?, htext]
  rw [withOffset?_written d c h, withoutOffset?_written d c h, dateOnly?_written]
  cases rest with
  | nil => simp [skipBlanks, offsetText]
  | cons c cs => simp

/-- A date and a time alone. -/
theorem parse?_bare : parse? (d.text ++ "T" ++ c.text) = ofParts? d.date c.clock := by
  have hends : EndsTime [] := fun _ h => by cases h
  rw [parse?_written d c hends (by simp), if_pos rfl]

/-- `Z` stands for no offset. -/
theorem parse?_utc : parse? (d.text ++ "T" ++ c.text ++ "Z") = ofParts? d.date c.clock := by
  have hends : EndsTime ['Z'] := fun c hc => by
    cases hc
    decide
  rw [parse?_written d c hends (by simp), if_neg (by simp)]
  rfl

/-- A date alone. -/
theorem parse?_date : parse? d.text = ofParts? d.date ⟨0, 0, 0, 0, 0⟩ := by
  have hdate : dateOnly? d.text.toList = ofParts? d.date ⟨0, 0, 0, 0, 0⟩ := by
    have hread := dateOnly?_written d []
    rwa [List.append_nil] at hread
  have hread (loose : Bool) : dateText loose d.text.toList = some (d.date, []) := by
    have hread := d.dateText_eq loose []
    rwa [List.append_nil] at hread
  have hwith : withOffset? d.text.toList = none := by
    rw [withOffset?, hread]
    rfl
  have hwithout : withoutOffset? d.text.toList = none := by
    rw [withoutOffset?, hread]
    rfl
  simp only [parse?, hwith, hwithout, hdate, Option.none_or]

/-! ### Offsets -/

theorem twoDigits_padded {n : Nat} (h : n < 100) :
    twoDigits ((padded 2 n).toList ++ rest) = some (n, rest) := by
  obtain ⟨hdigits, hlength⟩ := padded_spec (w := 2) (by decide) h
  obtain ⟨a, b, hab⟩ := List.length_eq_two.mp hlength
  rw [hab] at hdigits ⊢
  have ha : isDigit a = true := hdigits.digits a (by simp)
  have hb : isDigit b = true := hdigits.digits b (by simp)
  simp [twoDigits, ha, hb, hdigits.value]

/-- The hours and minutes of an offset are read, if there are so many minutes to an hour. -/
theorem offsetMinutes_padded (hours minutes : Fin 100) :
    offsetMinutes ((padded 2 hours).toList ++ ':' :: (padded 2 minutes).toList) =
      if (minutes : Nat) < 60 then some (((hours * 3600 + minutes * 60 : Nat) : Int), [])
      else none := by
  obtain ⟨hdigits, -⟩ := padded_spec (w := 2) (by decide) minutes.isLt
  have hdrop : (':' :: (padded 2 minutes).toList).dropWhile (fun c => c == ':' || isBlank c) =
      (padded 2 minutes).toList := by
    obtain ⟨c, cs, hcs, hc⟩ := hdigits.exists_cons
    have hcolon : c ≠ ':' := by
      rintro rfl
      cases hc
    rw [List.dropWhile_cons_of_pos (by decide), hcs,
      List.dropWhile_cons_of_neg (by simp [hcolon, isBlank_of_isDigit hc])]
  have hminutes : twoDigits (padded 2 minutes).toList = some ((minutes : Nat), []) := by
    have hread : twoDigits ((padded 2 minutes).toList ++ []) = some ((minutes : Nat), []) :=
      twoDigits_padded minutes.isLt
    rwa [List.append_nil] at hread
  rw [offsetMinutes, twoDigits_padded hours.isLt]
  simp only [Option.bind_eq_bind, Option.bind_some, hdrop, hminutes]
  rfl

/-- **A written offset is read.** -/
theorem offsetText_written (o : WrittenOffset) : offsetText (skipBlanks o.text.toList) =
    if (o.minutes : Nat) < 60 then some (o.seconds, []) else none := by
  have hread := offsetMinutes_padded o.hours o.minutes
  obtain ⟨ahead, hours, minutes⟩ := o
  cases ahead with
  | true =>
      have htext : skipBlanks (WrittenOffset.text ⟨true, hours, minutes⟩).toList =
          '+' :: ((padded 2 hours).toList ++ ':' :: (padded 2 minutes).toList) := by
        have hplus : isBlank '+' = false := by decide
        simp [WrittenOffset.text, skipBlanks, hplus]
      have hsign (cs : List Char) : offsetText ('+' :: cs) = offsetMinutes cs := rfl
      rw [htext, hsign, hread]
      rfl
  | false =>
      have htext : skipBlanks (WrittenOffset.text ⟨false, hours, minutes⟩).toList =
          '-' :: ((padded 2 hours).toList ++ ':' :: (padded 2 minutes).toList) := by
        have hminus : isBlank '-' = false := by decide
        simp [WrittenOffset.text, skipBlanks, hminus]
      have hsign (cs : List Char) : offsetText ('-' :: cs) =
          (offsetMinutes cs).map fun (n, cs) => (-n, cs) := rfl
      rw [htext, hsign, hread]
      split <;> rfl

/-- **A date and a time at an offset** are the moment without it, moved back by the offset. -/
theorem parse?_offset (o : WrittenOffset) : parse? (d.text ++ "T" ++ c.text ++ o.text) =
    if o.IsValid then (ofParts? d.date c.clock).map fun t => t.later (-o.seconds) else none := by
  have hends : EndsTime o.text.toList := by
    obtain ⟨ahead, hours, minutes⟩ := o
    intro c hc
    cases ahead <;> simp [WrittenOffset.text] at hc <;> subst hc <;> decide
  have hne : o.text.toList ≠ [] := by
    obtain ⟨ahead, hours, minutes⟩ := o
    cases ahead <;> simp [WrittenOffset.text]
  rw [parse?_written d c hends (by simp), if_neg hne, offsetText_written]
  split
  · rename_i hminutes
    have hoffset := ofParts?_offset d (c := c.clock) rfl o.seconds
    simp only [WrittenOffset.isValid_iff, hminutes, true_and]
    exact hoffset
  · rename_i hminutes
    rw [if_neg fun h : o.IsValid => hminutes h.2]
    rfl

/-! ### Writing -/

/-- Digits of a fraction that is filled up to a width of at most nine. -/
theorem nanosOf_padded {w n : Nat} (hw : 0 < w) (hmax : w ≤ 9) (h : n < 10 ^ w) :
    WrittenClock.nanosOf (padded w n).toList = n * 10 ^ (9 - w) := by
  obtain ⟨hdigits, hlength⟩ := padded_spec hw h
  have htake : (padded w n).toList.take 9 = (padded w n).toList :=
    List.take_of_length_le (by omega)
  rw [WrittenClock.nanosOf, htake, hdigits.value, hlength]

/-- The fraction of a second is written so that it is read back. -/
theorem formatFraction_spec {nano : Nat} (h : nano < 1000000000) :
    ∃ fraction : List Char, (∀ c ∈ fraction, isDigit c = true) ∧
      WrittenClock.nanosOf fraction = nano ∧
        formatFraction nano = if fraction = [] then "" else "." ++ String.ofList fraction := by
  have groups {w n : Nat} (hw : 0 < w) (hmax : w ≤ 9) (hn : n < 10 ^ w)
      (hnano : n * 10 ^ (9 - w) = nano) :
      ∃ fraction : List Char, (∀ c ∈ fraction, isDigit c = true) ∧
        WrittenClock.nanosOf fraction = nano ∧
          "." ++ padded w n = if fraction = [] then "" else "." ++ String.ofList fraction := by
    have hdigits := (padded_spec hw hn).1
    refine ⟨_, hdigits.digits, (nanosOf_padded hw hmax hn).trans hnano, ?_⟩
    rw [if_neg hdigits.nonempty, String.ofList_toList]
  rw [formatFraction]
  split
  · rename_i hzero
    exact ⟨[], by simp, hzero.symm, rfl⟩
  split
  · exact groups (by decide) (by decide) (by omega) (by omega)
  split
  · exact groups (by decide) (by decide) (by omega) (by omega)
  · exact groups (by decide) (by decide) (by omega) (by omega)

/-- **The text of a moment** in a year of four digits and outside of leap seconds is made of its
date and its time, at no offset. -/
theorem format_eq {t : Timestamp} (hlow : 0 ≤ t.year) (hhigh : t.year ≤ 9999)
    (hnano : t.nano < 1000000000) :
    ∃ (d : WrittenDate) (c : WrittenClock) (o : WrittenOffset),
      t.format = d.text ++ "T" ++ c.text ++ o.text ∧ o.IsValid ∧ o.seconds = 0 ∧
        d.date = t.date ∧ c.clock = ⟨t.hour, t.minute, t.secondOfMinute, t.nano, 0⟩ := by
  obtain ⟨fraction, hdigits, hnanos, hfraction⟩ := formatFraction_spec hnano
  have hdate : t.date.IsValid := Date.isValid_ofDay t.day
  have hday := hdate.day_le
  obtain ⟨-, hmonth, -⟩ := hdate
  have hsecond := t.second_lt
  let d : WrittenDate := {
    year := ⟨t.year.toNat, by omega⟩
    month := ⟨t.month, by rw [month]; omega⟩
    day := ⟨t.dayOfMonth, by rw [dayOfMonth]; omega⟩ }
  let c : WrittenClock := {
    hour := ⟨t.hour, by rw [hour]; omega⟩
    minute := ⟨t.minute, by rw [minute]; omega⟩
    second := ⟨t.secondOfMinute, by rw [secondOfMinute]; omega⟩
    fraction := fraction
    fraction_digits := hdigits }
  refine ⟨d, c, ⟨true, 0, 0⟩, ?_, by decide, by decide, ?_, ?_⟩
  · have hoffset : WrittenOffset.text ⟨true, 0, 0⟩ = "+00:00" := by decide
    have hwhole : t.nano / 1000000000 = 0 := by omega
    have hpart : t.nano % 1000000000 = t.nano := by omega
    have hyear : formatYear t.year = padded 4 t.year.toNat := if_pos ⟨hlow, hhigh⟩
    rw [hoffset, format]
    simp only [hwhole, hpart, hyear, hfraction, WrittenDate.text, WrittenClock.text, d, c,
      String.append_assoc, Nat.add_zero]
  · have hyear : ((t.year.toNat : Nat) : Int) = t.year := Int.toNat_of_nonneg hlow
    simp only [WrittenDate.date, d, hyear]
    rfl
  · simp only [WrittenClock.clock, c, hnanos]

/-! ### There and back -/

/-- **A moment is read back from its text.** -/
theorem parse?_format {t : Timestamp} (hlow : 0 ≤ t.year) (hhigh : t.year ≤ 9999)
    (hnano : t.nano < 1000000000) : parse? t.format = some t := by
  obtain ⟨d, c, o, htext, hoffset, hzero, hdate, hclock⟩ := format_eq hlow hhigh hnano
  have hnumber : d.date.toDay = t.day := by
    rw [hdate]
    exact Date.toDay_ofDay t.day
  have hsecond := t.second_lt
  have hmoment : ofParts? d.date c.clock = some t := by
    rw [ofParts?_written, hnumber, hclock, Clock.isValid_iff]
    have hminute : t.secondOfMinute ≠ 60 := by
      rw [secondOfMinute]
      omega
    refine ⟨hdate ▸ Date.isValid_ofDay t.day, ?_, ?_, ?_⟩
    · simp only [hour, minute, secondOfMinute]
      omega
    · simp only [Clock.seconds, if_neg hminute]
      simp only [seconds, hour, minute, secondOfMinute]
      omega
    · simp only [Clock.nanos, if_neg hminute]
  rw [htext, parse?_offset, if_pos hoffset, hmoment, hzero, Int.neg_zero, Option.map_some,
    later_zero]

/-- A date and a time are accepted when there are such. -/
theorem isSome_ofParts?_written : (ofParts? d.date c.clock).isSome = true ↔
    d.date.IsValid ∧ c.clock.isValid = true := by
  rw [Option.isSome_iff_exists]
  constructor
  · rintro ⟨t, ht⟩
    obtain ⟨hdate, hclock, -⟩ := ofParts?_written.mp ht
    exact ⟨hdate, hclock⟩
  · rintro ⟨hdate, hclock⟩
    refine ⟨⟨d.date.toDay, c.clock.seconds, c.clock.nanos, Clock.seconds_lt hclock,
      Clock.nanos_lt hclock⟩, ofParts?_written.mpr ⟨hdate, hclock, ?_, rfl⟩⟩
    exact (Int.sub_zero _).symm

/-- The moment that is read has the date and the time that are written. -/
theorem parts_of_ofParts?_written {t : Timestamp} (h : ofParts? d.date c.clock = some t) :
    t.date = d.date ∧ t.second = c.clock.seconds ∧ t.nano = c.clock.nanos := by
  obtain ⟨hdate, hclock, hseconds, hnano⟩ := ofParts?_written.mp h
  have hlt := Clock.seconds_lt hclock
  have hoffset : c.clock.offset = 0 := rfl
  rw [hoffset] at hseconds
  have hday : t.day = d.date.toDay := by
    rw [day_eq, hseconds]
    omega
  refine ⟨?_, ?_, hnano⟩
  swap
  · rw [seconds, hday] at hseconds
    omega
  rw [date, hday, Date.ofDay_toDay hdate]

/-- **Timestamps survive their texts.**  A moment in a year of four digits, with any fraction of a
second but outside of leap seconds, is read back from its text.  For every date and time in
canonical digits the spellings agree: the text without an offset is accepted exactly when there are
such a date and such a time, and names the moment of these; with `Z` behind it is the same; a date
alone is its midnight; and with an offset it is the moment without it, moved back by the offset, and
nothing if the offset is a day or more or its minutes are none of an hour. -/
theorem survives_text :
    (∀ t : Timestamp, 0 ≤ t.year → t.year ≤ 9999 → t.nano < 1000000000 →
      parse? t.format = some t) ∧
    ∀ (d : WrittenDate) (c : WrittenClock),
      ((parse? (d.text ++ "T" ++ c.text)).isSome = true ↔
        d.date.IsValid ∧ c.clock.isValid = true) ∧
      (∀ t, parse? (d.text ++ "T" ++ c.text) = some t →
        t.date = d.date ∧ t.second = c.clock.seconds ∧ t.nano = c.clock.nanos) ∧
      parse? (d.text ++ "T" ++ c.text ++ "Z") = parse? (d.text ++ "T" ++ c.text) ∧
      parse? (d.text ++ "T00:00:00Z") = parse? d.text ∧
      ∀ o : WrittenOffset, parse? (d.text ++ "T" ++ c.text ++ o.text) =
        if o.IsValid then (parse? (d.text ++ "T" ++ c.text)).map fun t => t.later (-o.seconds)
        else none := by
  refine ⟨fun t => parse?_format, fun d c => ?_⟩
  rw [parse?_bare, parse?_utc]
  refine ⟨isSome_ofParts?_written d c, fun t => parts_of_ofParts?_written d c, rfl, ?_,
    parse?_offset d c⟩
  let midnight : WrittenClock := ⟨0, 0, 0, [], by simp⟩
  have htext : d.text ++ "T00:00:00Z" = d.text ++ "T" ++ midnight.text ++ "Z" := by
    have hmidnight : midnight.text = "00:00:00" := by decide
    rw [hmidnight, String.append_assoc, String.append_assoc]
    rfl
  have hclock : midnight.clock = ⟨0, 0, 0, 0, 0⟩ := by decide
  rw [htext, parse?_utc, parse?_date, hclock]

/-- The last millisecond of a leap day, and an offset over the end of it. -/
theorem survives_text_leap_day :
    let t : Timestamp := ⟨(Date.mk 2024 2 29).toDay, 86399, 999000000, by decide, by decide⟩
    parse? t.format = some t ∧
      parse? "2024-03-01T00:15:00+00:30" =
        (parse? "2024-03-01T00:15:00").map fun t => t.later (-1800) := by
  intro t
  have hyear : t.year = 2024 := by
    have hvalid : (Date.mk 2024 2 29).IsValid := by decide
    exact hvalid.yearOf_toDay
  refine ⟨survives_text.1 t (by omega) (by omega) (by decide), ?_⟩
  let d : WrittenDate := ⟨2024, 3, 1⟩
  let c : WrittenClock := ⟨0, 15, 0, [], fun _ h => absurd h List.not_mem_nil⟩
  let o : WrittenOffset := ⟨true, 0, 30⟩
  have hplain : d.text ++ "T" ++ c.text = "2024-03-01T00:15:00" := by decide
  have hmoved : d.text ++ "T" ++ c.text ++ o.text = "2024-03-01T00:15:00+00:30" := by decide
  have hseconds : -o.seconds = -1800 := by decide
  obtain ⟨-, -, -, -, hoffset⟩ := survives_text.2 d c
  have hread := hoffset o
  rw [hmoved, hplain, if_pos (by decide), hseconds] at hread
  exact hread

end Timestamp

end LambdaQuery
