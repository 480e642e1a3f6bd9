import TecoQuant.BaseDatetime
import TecoQuant.BaseExcept

/-! Reading the text of a datetime. `fromisoformat` reads the extended format, with the whole date and a clock
that may end at the minutes, the seconds or the microseconds; it inverts `isoformat` on the calendar. -/

namespace Datetime

/-! ### Dates -/

/-- The first day of a year from March, counted from the first day of its era. -/
def yearStart (yearOfEra : Int) : Int := 365 * yearOfEra + yearOfEra / 4 - yearOfEra / 100 + yearOfEra / 400

def IsLeap (year : Int) : Prop := year % 4 = 0 ∧ (year % 100 ≠ 0 ∨ year % 400 = 0)

instance (year : Int) : Decidable (IsLeap year) := inferInstanceAs (Decidable (_ ∧ _))

def daysInMonth (year month : Int) : Int :=
  if month = 2 then if IsLeap year then 29 else 28
  else if month = 4 ∨ month = 6 ∨ month = 9 ∨ month = 11 then 30
  else 31

theorem daysInMonth_le (year month : Int) : daysInMonth year month ≤ 31 := by
  unfold daysInMonth
  split
  · split <;> decide
  · split <;> decide

/-- A date of the calendar. -/
def ValidDate (year month day : Int) : Prop :=
  (1 ≤ year ∧ year ≤ 9999) ∧ (1 ≤ month ∧ month ≤ 12) ∧ 1 ≤ day ∧ day ≤ daysInMonth year month

instance (year month day : Int) : Decidable (ValidDate year month day) := inferInstanceAs (Decidable (_ ∧ _))

/-- The day of a date, counted from 1970-01-01. -/
def dayOf (year month day : Int) : Int :=
  let shifted := if month ≤ 2 then year - 1 else year
  let yearOfEra := shifted % 400
  let dayOfYear := (153 * (if month ≤ 2 then month + 9 else month - 3) + 2) / 5 + day - 1
  shifted / 400 * 146097 + (365 * yearOfEra + yearOfEra / 4 - yearOfEra / 100 + dayOfYear) - 719468

section Dates

/-- The year of a day of an era, as `civil` computes it. -/
def yearOf (dayOfEra : Int) : Int := (dayOfEra - dayOfEra / 1460 + dayOfEra / 36524 - dayOfEra / 146096) / 365

/-- The first and the last day of a year are days of that year. -/
theorem yearOf_ends : ∀ year < 400, yearOf (yearStart (year : Nat)) = year ∧
    yearOf (yearStart ((year : Nat) + 1) - 1) = year := by
  decide +kernel

theorem yearOf_mono {d d' : Int} (h : d ≤ d') : yearOf d ≤ yearOf d' := by
  unfold yearOf
  refine Int.ediv_le_ediv (by decide) ?_
  have hcentury : ∀ n : Int, n / 146096 = n / 36524 / 4 := by
    intro n
    rw [Int.ediv_ediv_of_nonneg (by decide)]
    rfl
  rw [hcentury d, hcentury d']
  have hcenturies : d / 36524 ≤ d' / 36524 := Int.ediv_le_ediv (by decide) h
  omega

/-- A day of an era lies in its year. -/
theorem yearOf_spec {d : Int} (h : 0 ≤ d) (h' : d < 146097) : 0 ≤ yearOf d ∧ yearOf d < 400 ∧
    yearStart (yearOf d) ≤ d ∧ d < yearStart (yearOf d + 1) := by
  have hnonneg : 0 ≤ yearOf d := by
    unfold yearOf
    omega
  have hlt : yearOf d < 400 := by
    unfold yearOf
    omega
  obtain ⟨year, hyear⟩ := Int.eq_ofNat_of_zero_le hnonneg
  rw [hyear] at hlt ⊢
  refine ⟨by omega, hlt, ?_, ?_⟩
  · by_contra hearly
    -- the day is no later than the last day of the year before
    rcases Nat.eq_zero_or_pos year with rfl | hpos
    · simp [yearStart] at hearly
      omega
    · have hlast := (yearOf_ends (year - 1) (by omega)).2
      rw [show ((year - 1 : Nat) : Int) + 1 = year by omega] at hlast
      have hmono := yearOf_mono (show d ≤ yearStart year - 1 by omega)
      omega
  · by_contra hlate
    rcases Nat.lt_or_ge (year + 1) 400 with hlt' | hge
    · have hfirst := (yearOf_ends (year + 1) hlt').1
      have hmono := yearOf_mono (show yearStart ((year + 1 : Nat) : Int) ≤ d by push_cast; omega)
      omega
    · obtain rfl : year = 399 := by omega
      simp [yearStart] at hlate
      omega

theorem yearStart_succ {year : Int} (h : ¬IsLeap (year + 1)) : yearStart (year + 1) = yearStart year + 365 := by
  unfold yearStart IsLeap at *
  omega

theorem yearStart_succ_le (year : Int) : yearStart (year + 1) ≤ yearStart year + 366 := by
  unfold yearStart
  omega

/-- The month and the day of the month of a day of a year from March. -/
def monthOf (dayOfYear : Int) : Int × Int :=
  let month := (5 * dayOfYear + 2) / 153
  (if month < 10 then month + 3 else month - 9, dayOfYear - (153 * month + 2) / 5 + 1)

/-- The months of a year from March and their days. -/
theorem monthOf_valid : ∀ dayOfYear < 366, (1 ≤ (monthOf (dayOfYear : Nat)).1 ∧ (monthOf (dayOfYear : Nat)).1 ≤ 12) ∧
    1 ≤ (monthOf (dayOfYear : Nat)).2 ∧ ∀ leap : Bool, (dayOfYear = 365 → leap = true) →
      (monthOf (dayOfYear : Nat)).2 ≤
        if (monthOf (dayOfYear : Nat)).1 = 2 then if leap then 29 else 28
        else if (monthOf (dayOfYear : Nat)).1 = 4 ∨ (monthOf (dayOfYear : Nat)).1 = 6 ∨
          (monthOf (dayOfYear : Nat)).1 = 9 ∨ (monthOf (dayOfYear : Nat)).1 = 11 then 30
        else 31 := by
  decide +kernel

/-- A date of the civil calendar, as its era, its year from March and its day of that year. -/
theorem civil_spec (day : Int) : ∃ era year : Int, ∃ dayOfYear : Nat,
    (0 ≤ year ∧ year < 400) ∧ dayOfYear < 366 ∧ (dayOfYear = 365 → IsLeap (year + 1)) ∧
      day + 719468 = era * 146097 + (365 * year + year / 4 - year / 100 + dayOfYear) ∧
      civil day = (if (monthOf dayOfYear).1 ≤ 2 then year + era * 400 + 1 else year + era * 400, monthOf dayOfYear) := by
  have hera := Int.emod_add_mul_ediv (day + 719468) 146097
  have hnonneg := Int.emod_nonneg (day + 719468) (by decide : (146097 : Int) ≠ 0)
  have hlt := Int.emod_lt_of_pos (day + 719468) (by decide : (0 : Int) < 146097)
  generalize hdoe : (day + 719468) % 146097 = dayOfEra at hera hnonneg hlt
  obtain ⟨hyear, hyear', hstart, hnext⟩ := yearOf_spec hnonneg hlt
  have hlength := yearStart_succ_le (yearOf dayOfEra)
  have hcentury : yearStart (yearOf dayOfEra) =
      365 * yearOf dayOfEra + yearOf dayOfEra / 4 - yearOf dayOfEra / 100 := by
    unfold yearStart
    omega
  obtain ⟨dayOfYear, hday⟩ := Int.eq_ofNat_of_zero_le (show 0 ≤ dayOfEra - yearStart (yearOf dayOfEra) by omega)
  refine ⟨(day + 719468) / 146097, yearOf dayOfEra, dayOfYear, ⟨hyear, hyear'⟩, by omega, fun hlast => ?_, by omega, ?_⟩
  · by_contra hleap
    have hnot := yearStart_succ hleap
    omega
  · have hmonth : dayOfEra - (365 * yearOf dayOfEra + yearOf dayOfEra / 4 - yearOf dayOfEra / 100) = dayOfYear := by omega
    have hlate : (monthOf (dayOfYear : Int)).1 ≤ 2 ↔ ¬(5 * (dayOfYear : Int) + 2) / 153 < 10 := by
      unfold monthOf
      dsimp only
      split <;> omega
    have hyears : (if (5 * (dayOfYear : Int) + 2) / 153 < 10 then
        yearOf dayOfEra + (day + 719468) / 146097 * 400 else yearOf dayOfEra + (day + 719468) / 146097 * 400 + 1) =
        if (monthOf (dayOfYear : Int)).1 ≤ 2 then yearOf dayOfEra + (day + 719468) / 146097 * 400 + 1
        else yearOf dayOfEra + (day + 719468) / 146097 * 400 := by
      by_cases hearly : (5 * (dayOfYear : Int) + 2) / 153 < 10
      · rw [if_pos hearly, if_neg fun h => hlate.mp h hearly]
      · rw [if_neg hearly, if_pos (hlate.mpr hearly)]
    rw [← hyears, civil, hdoe]
    rw [← yearOf, hmonth, monthOf]

/-- A day is the day of its date. -/
theorem dayOf_civil (day : Int) : dayOf (civil day).1 (civil day).2.1 (civil day).2.2 = day := by
  obtain ⟨era, year, dayOfYear, hyear, hdoy, -, hday, hcivil⟩ := civil_spec day
  have hindex : 0 ≤ (5 * (dayOfYear : Int) + 2) / 153 ∧ (5 * (dayOfYear : Int) + 2) / 153 < 12 := by omega
  rw [hcivil]
  dsimp only [dayOf, monthOf]
  by_cases hearly : (5 * (dayOfYear : Int) + 2) / 153 < 10
  · have hmonth : ¬(5 * (dayOfYear : Int) + 2) / 153 + 3 ≤ 2 := by omega
    simp only [if_pos hearly, if_neg hmonth]
    rw [show (year + era * 400) / 400 = era by omega, show (year + era * 400) % 400 = year by omega]
    omega
  · have hmonth : (5 * (dayOfYear : Int) + 2) / 153 - 9 ≤ 2 := by omega
    simp only [if_neg hearly, if_pos hmonth]
    rw [show (year + era * 400 + 1 - 1) / 400 = era by omega, show (year + era * 400 + 1 - 1) % 400 = year by omega]
    omega

/-- The dates from the year 1 to the year 9999 are valid. -/
theorem civil_valid {day : Int} (h : -719162 ≤ day) (h' : day ≤ 2932896) :
    ValidDate (civil day).1 (civil day).2.1 (civil day).2.2 := by
  obtain ⟨era, year, dayOfYear, hyear, hdoy, hleap, hday, hcivil⟩ := civil_spec day
  obtain ⟨hmonth, hfirst, hlast⟩ := monthOf_valid dayOfYear hdoy
  have hindex : (monthOf (dayOfYear : Int)).1 ≤ 2 ↔ 306 ≤ dayOfYear := by
    dsimp only [monthOf]
    split <;> omega
  rw [hcivil]
  refine ⟨?_, hmonth, hfirst, ?_⟩
  · dsimp only
    by_cases hearly : 306 ≤ dayOfYear
    · rw [if_pos (hindex.mpr hearly)]
      omega
    · rw [if_neg fun h => hearly (hindex.mp h)]
      omega
  · refine (hlast (decide (IsLeap (year + 1))) fun h => decide_eq_true (hleap h)).trans (le_of_eq ?_)
    dsimp only [daysInMonth]
    by_cases hfebruary : (monthOf (dayOfYear : Int)).1 = 2
    · have hsame : IsLeap (year + era * 400 + 1) ↔ IsLeap (year + 1) := by
        unfold IsLeap
        omega
      simp only [if_pos hfebruary, if_pos (show (monthOf (dayOfYear : Int)).1 ≤ 2 by omega), hsame, decide_eq_true_eq]
    · simp only [if_neg hfebruary]

end Dates

/-! ### Reading -/

/-- A number of exactly so many digits. -/
def readFixed (width : Nat) (text : List Char) : Option (Int × List Char) :=
  if (text.take width).length = width ∧ (text.take width).all Char.isDigit = true then
    some (Nat.ofDigitChars 10 (text.take width) 0, text.drop width)
  else none

/-- The text behind a mark. -/
def readMark (mark : Char) : List Char → Option (List Char)
  | c :: rest => if c = mark then some rest else none
  | [] => none

/-- `HH:MM`, `HH:MM:SS` or `HH:MM:SS.ffffff`, in microseconds. -/
def readClock (text : List Char) : Option (Int × List Char) := do
  let (hours, rest) ← readFixed 2 text
  let rest ← readMark ':' rest
  let (minutes, rest) ← readFixed 2 rest
  let (seconds, rest) ← match readMark ':' rest with
    | some rest => readFixed 2 rest
    | none => some (0, rest)
  let (fraction, rest) ← match readMark '.' rest with
    | some rest => readFixed 6 rest
    | none => some (0, rest)
  if hours < 24 ∧ minutes < 60 ∧ seconds < 60 then
    some (((hours * 60 + minutes) * 60 + seconds) * 1000000 + fraction, rest)
  else none

/-- The offset at the end of a text. -/
def readOffset : List Char → Option (Option Int)
  | [] => some none
  | ['Z'] => some (some 0)
  | sign :: rest =>
      match readClock rest with
      | some (magnitude, []) =>
          if sign = '+' then some (some magnitude) else if sign = '-' then some (some (-magnitude)) else none
      | _ => none

/-- `datetime.fromisoformat(text)`; none is a `ValueError`. -/
def fromisoformat (text : String) : Option Datetime := do
  let (year, rest) ← readFixed 4 text.toList
  let rest ← readMark '-' rest
  let (month, rest) ← readFixed 2 rest
  let rest ← readMark '-' rest
  let (day, rest) ← readFixed 2 rest
  let (clock, utcoffset) ← match rest with
    | [] => some (0, none)
    | _ :: rest => do
        let (clock, rest) ← readClock rest
        let utcoffset ← readOffset rest
        some (clock, utcoffset)
  if ValidDate year month day then some ⟨dayOf year month day * 86400000000 + clock, utcoffset⟩ else none

section RoundTrip

theorem readFixed_padded {width : Nat} {n : Int} (h : 0 ≤ n) (hlt : n < 10 ^ width) (hwidth : 0 < width)
    (rest : List Char) : readFixed width ((padded width n).toList ++ rest) = some (n, rest) := by
  obtain ⟨m, rfl⟩ := Int.eq_ofNat_of_zero_le h
  have hm : m < 10 ^ width := by exact_mod_cast hlt
  have hlength : (padded width m).toList.length = width := by
    rw [padded, String.toList_ofList, List.length_append, List.length_replicate, Int.natAbs_natCast]
    have hle : (Nat.toDigits 10 m).length ≤ width := (Nat.length_toDigits_le_iff (by decide) hwidth).mpr hm
    omega
  have hvalue : Nat.ofDigitChars 10 (padded width m).toList 0 = m := by
    rw [padded, String.toList_ofList, Int.natAbs_natCast, Nat.ofDigitChars_append]
    have hzeros : ∀ n, Nat.ofDigitChars 10 (List.replicate n '0') 0 = 0 := by
      intro n
      induction n with
      | zero => rfl
      | succ n ih => simp [List.replicate_succ, Nat.ofDigitChars_cons, ih]
    rw [hzeros, Nat.ofDigitChars_ten_toDigits]
  have htake : ((padded width m).toList ++ rest).take width = (padded width m).toList := List.take_left' hlength
  have hdrop : ((padded width m).toList ++ rest).drop width = rest := List.drop_left' hlength
  rw [readFixed, htake, hdrop, if_pos ⟨hlength, List.all_eq_true.mpr fun c hc => mem_padded hc⟩, hvalue]

@[simp] theorem readMark_self (mark : Char) (rest : List Char) : readMark mark (mark :: rest) = some rest :=
  if_pos rfl

/-- A clock is read back when no further fraction follows. -/
theorem readClock_clockText {microseconds : Int} (h : 0 ≤ microseconds) (hlt : microseconds < 86400000000)
    {rest : List Char} (hrest : readMark '.' rest = none) :
    readClock ((clockText microseconds).toList ++ rest) = some (microseconds, rest) := by
  have hours (more : List Char) : readFixed 2 ((padded 2 (microseconds / 1000000 / 3600)).toList ++ more) =
      some (microseconds / 1000000 / 3600, more) := readFixed_padded (by omega) (by omega) (by decide) more
  have minutes (more : List Char) : readFixed 2 ((padded 2 (microseconds / 1000000 / 60 % 60)).toList ++ more) =
      some (microseconds / 1000000 / 60 % 60, more) := readFixed_padded (by omega) (by omega) (by decide) more
  have seconds (more : List Char) : readFixed 2 ((padded 2 (microseconds / 1000000 % 60)).toList ++ more) =
      some (microseconds / 1000000 % 60, more) := readFixed_padded (by omega) (by omega) (by decide) more
  have fraction : readFixed 6 ((padded 6 (microseconds % 1000000)).toList ++ rest) =
      some (microseconds % 1000000, rest) := readFixed_padded (by omega) (by omega) (by decide) rest
  have hbounds : microseconds / 1000000 / 3600 < 24 ∧ microseconds / 1000000 / 60 % 60 < 60 ∧
      microseconds / 1000000 % 60 < 60 := by omega
  have hvalue : ((microseconds / 1000000 / 3600 * 60 + microseconds / 1000000 / 60 % 60) * 60 +
      microseconds / 1000000 % 60) * 1000000 + microseconds % 1000000 = microseconds := by omega
  have hcolon : ":".toList = [':'] := rfl
  have hdot : ".".toList = ['.'] := rfl
  by_cases hwhole : microseconds % 1000000 = 0
  · rw [hwhole] at hvalue
    simp only [clockText, if_pos hwhole, String.toList_append, String.toList_empty, List.append_assoc, hcolon,
      List.cons_append, List.nil_append, readClock, Option.bind_eq_bind, hours, minutes, seconds, Option.bind_some,
      readMark_self, hrest, if_pos hbounds, hvalue]
  · simp only [clockText, if_neg hwhole, String.toList_append, List.append_assoc, hcolon, hdot,
      List.cons_append, List.nil_append, readClock, Option.bind_eq_bind, hours, minutes, seconds, fraction,
      Option.bind_some, readMark_self, if_pos hbounds, hvalue]

/-- An offset of less than a day is read back. -/
theorem readOffset_offsetText {offset : Int} (h : -86400000000 < offset) (hlt : offset < 86400000000) :
    readOffset (offsetText offset).toList = some (some offset) := by
  have hmagnitude : (0 : Int) ≤ offset.natAbs ∧ (offset.natAbs : Int) < 86400000000 := by omega
  have hclock : ∃ text : String, offsetText offset = (if offset < 0 then "-" else "+") ++ text ∧
      readClock text.toList = some ((offset.natAbs : Int), []) := by
    generalize hmag : (offset.natAbs : Int) = magnitude at hmagnitude
    by_cases hminutes : magnitude % 60000000 = 0
    · have hours (more : List Char) : readFixed 2 ((padded 2 (magnitude / 3600000000)).toList ++ more) =
          some (magnitude / 3600000000, more) := readFixed_padded (by omega) (by omega) (by decide) more
      have minutes : readFixed 2 ((padded 2 (magnitude / 60000000 % 60)).toList ++ []) =
          some (magnitude / 60000000 % 60, []) := readFixed_padded (by omega) (by omega) (by decide) []
      have hvalue : ((magnitude / 3600000000 * 60 + magnitude / 60000000 % 60) * 60 + 0) * 1000000 + 0 = magnitude := by
        omega
      rw [List.append_nil] at minutes
      refine ⟨padded 2 (magnitude / 3600000000) ++ ":" ++ padded 2 (magnitude / 60000000 % 60), ?_, ?_⟩
      · simp only [offsetText, hmag, if_pos hminutes]
      · have hbounds : magnitude / 3600000000 < 24 ∧ magnitude / 60000000 % 60 < 60 ∧ (0 : Int) < 60 := by omega
        simp only [String.toList_append, List.append_assoc, show ":".toList = [':'] from rfl, List.cons_append,
          List.nil_append, readClock, Option.bind_eq_bind, hours, minutes, Option.bind_some, readMark_self,
          show ∀ mark, readMark mark [] = none from fun _ => rfl, if_pos hbounds, hvalue]
    · refine ⟨clockText magnitude, by simp only [offsetText, hmag, if_neg hminutes], ?_⟩
      have hread := readClock_clockText hmagnitude.1 hmagnitude.2 (show readMark '.' [] = none from rfl)
      rwa [List.append_nil] at hread
  obtain ⟨text, htext, hread⟩ := hclock
  rw [htext]
  generalize hmag : (offset.natAbs : Int) = magnitude at hread
  by_cases hneg : offset < 0
  · have hvalue : -magnitude = offset := by omega
    rw [if_pos hneg, String.toList_append, show "-".toList = ['-'] from rfl, List.singleton_append]
    simp [readOffset, hread, hvalue]
  · have hvalue : magnitude = offset := by omega
    rw [if_neg hneg, String.toList_append, show "+".toList = ['+'] from rfl, List.singleton_append]
    simp [readOffset, hread, hvalue]

theorem readMark_offsetText (offset : Int) : readMark '.' (offsetText offset).toList = none := by
  rw [offsetText, String.toList_append]
  split <;> rfl

/-- A datetime of the calendar, with an offset of less than a day if it has one. -/
def IsRepresentable (t : Datetime) : Prop :=
  t.InCalendar ∧ ∀ offset ∈ t.utcoffset, -86400000000 < offset ∧ offset < 86400000000

instance (t : Datetime) : Decidable t.IsRepresentable := inferInstanceAs (Decidable (_ ∧ ∀ _ ∈ _, _))

/-- A datetime is read back from its text. -/
theorem fromisoformat_isoformat {t : Datetime} (h : t.IsRepresentable) : fromisoformat t.isoformat = some t := by
  obtain ⟨⟨hmin, hmax⟩, hoffset⟩ := h
  obtain ⟨wall, utcoffset⟩ := t
  have hday : -719162 ≤ wall / 86400000000 ∧ wall / 86400000000 ≤ 2932896 := by
    dsimp only at hmin hmax
    omega
  have hvalid := civil_valid hday.1 hday.2
  have hback := dayOf_civil (wall / 86400000000)
  generalize hcivil : civil (wall / 86400000000) = date at hvalid hback
  obtain ⟨year, month, day⟩ := date
  obtain ⟨⟨hyear, hyear'⟩, ⟨hmonth, hmonth'⟩, hfirst, hlast⟩ := hvalid
  have hthirty := daysInMonth_le year month
  have htail : ∃ tail : String, isoformat ⟨wall, utcoffset⟩ =
        padded 4 year ++ "-" ++ padded 2 month ++ "-" ++ padded 2 day ++ "T" ++ clockText (wall % 86400000000) ++ tail ∧
      readMark '.' tail.toList = none ∧ readOffset tail.toList = some utcoffset := by
    dsimp only [isoformat]
    rw [hcivil]
    cases utcoffset with
    | none => exact ⟨"", rfl, rfl, rfl⟩
    | some offset =>
        obtain ⟨hlow, hhigh⟩ := hoffset offset rfl
        exact ⟨offsetText offset, rfl, readMark_offsetText offset, readOffset_offsetText hlow hhigh⟩
  obtain ⟨tail, htext, hmark, hread⟩ := htail
  dsimp only at hyear hyear' hmonth hmonth' hfirst hlast hback
  have years (more : List Char) : readFixed 4 ((padded 4 year).toList ++ more) = some (year, more) :=
    readFixed_padded (by omega) (by omega) (by decide) more
  have months (more : List Char) : readFixed 2 ((padded 2 month).toList ++ more) = some (month, more) :=
    readFixed_padded (by omega) (by omega) (by decide) more
  have days (more : List Char) : readFixed 2 ((padded 2 day).toList ++ more) = some (day, more) :=
    readFixed_padded (by omega) (by omega) (by decide) more
  have clock := readClock_clockText (Int.emod_nonneg wall (by decide)) (Int.emod_lt_of_pos wall (by decide)) hmark
  have hwall : dayOf year month day * 86400000000 + wall % 86400000000 = wall := by
    rw [hback]
    omega
  rw [htext]
  simp only [fromisoformat, String.toList_append, List.append_assoc, show "-".toList = ['-'] from rfl,
    show "T".toList = ['T'] from rfl, List.cons_append, List.nil_append, Option.bind_eq_bind, years, months, days,
    Option.bind_some, readMark_self, clock, hread, hwall]
  rw [if_pos ⟨⟨hyear, hyear'⟩, ⟨hmonth, hmonth'⟩, hfirst, hlast⟩]

end RoundTrip

end Datetime
