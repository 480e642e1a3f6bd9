import Mathlib.Tactic.IntervalCases
import TecoQuant.BaseDatetimeText

/-! The order of the texts of datetimes. Texts of readings at one offset compare as the readings do: the fields of
the date and the clock stand in the order of their weight and at a fixed width, and the end of a clock without a
fraction is a sign, which comes before the point of a clock with one. -/

namespace Datetime

/-! ### Fields of a fixed width -/

section Fields

variable {left right : List Char}

theorem append_lt_append (rest rest' : List Char) (h : left < right) (hlength : left.length = right.length) :
    left ++ rest < right ++ rest' := by
  induction left generalizing right with
  | nil =>
      cases right with
      | nil => exact absurd h (by decide)
      | cons c right => cases hlength
  | cons c left ih =>
      cases right with
      | nil => cases hlength
      | cons c' right =>
          rw [List.cons_append, List.cons_append, List.cons_lt_cons_iff]
          rcases List.cons_lt_cons_iff.mp h with hhead | ⟨rfl, htail⟩
          · exact .inl hhead
          · exact .inr ⟨rfl, ih htail (Nat.succ.inj hlength)⟩

theorem digitChar_lt : ∀ m < 10, ∀ n < 10, m < n → Nat.digitChar m < Nat.digitChar n := by decide

/-- The last digit of a number with leading zeros. -/
theorem padded_succ {width : Nat} (hwidth : 0 < width) (n : Nat) :
    (padded (width + 1) n).toList = (padded width (n / 10 : Nat)).toList ++ [Nat.digitChar (n % 10)] := by
  simp only [padded, String.toList_ofList, Int.natAbs_natCast]
  by_cases hsmall : n < 10
  · rw [Nat.toDigits_of_lt_base hsmall, Nat.div_eq_of_lt hsmall, Nat.toDigits_zero, Nat.mod_eq_of_lt hsmall]
    have hzeros : List.replicate width '0' = List.replicate (width - 1) '0' ++ ['0'] := by
      rw [← List.replicate_succ', Nat.sub_add_cancel hwidth]
    simp [hzeros]
  · rw [Nat.toDigits_of_base_le (by decide) (Nat.le_of_not_lt hsmall)]
    simp

theorem length_padded {width : Nat} (hwidth : 0 < width) {n : Nat} (h : n < 10 ^ width) :
    (padded width n).toList.length = width := by
  have hle := (Nat.length_toDigits_le_iff (b := 10) (by decide) hwidth).mpr h
  rw [padded, String.toList_ofList, List.length_append, List.length_replicate, Int.natAbs_natCast]
  omega

/-- Numbers of one width compare as their texts. -/
theorem padded_lt {width m n : Nat} (hwidth : 0 < width) (hlt : m < n) (h : n < 10 ^ width) :
    (padded width m).toList < (padded width n).toList := by
  induction width, hwidth using Nat.le_induction generalizing m n with
  | base =>
      have hdigit := digitChar_lt m (by omega) n (by omega) hlt
      simp only [padded, String.toList_ofList, Int.natAbs_natCast]
      rw [Nat.toDigits_of_lt_base (by omega), Nat.toDigits_of_lt_base (by omega)]
      exact List.cons_lt_cons_iff.mpr (.inl hdigit)
  | succ width hwidth ih =>
      have hpow : 10 ^ (width + 1) = 10 ^ width * 10 := pow_succ _ _
      rw [padded_succ hwidth, padded_succ hwidth]
      by_cases hsame : m / 10 = n / 10
      · have hdigit := digitChar_lt (m % 10) (by omega) (n % 10) (by omega) (by omega)
        rw [hsame]
        exact List.append_left_lt (List.cons_lt_cons_iff.mpr (.inl hdigit))
      · refine append_lt_append _ _ (ih (by omega) (by omega)) ?_
        rw [length_padded hwidth (by omega), length_padded hwidth (by omega)]

/-- A field decides, or the rest does. -/
theorem padded_append_lt {width : Nat} {m n : Int} {rest rest' : List Char} (hwidth : 0 < width) (hm : 0 ≤ m)
    (hn : 0 ≤ n) (hm' : m < 10 ^ width) (hn' : n < 10 ^ width) (h : m < n ∨ m = n ∧ rest < rest') :
    (padded width m).toList ++ rest < (padded width n).toList ++ rest' := by
  obtain ⟨m, rfl⟩ := Int.eq_ofNat_of_zero_le hm
  obtain ⟨n, rfl⟩ := Int.eq_ofNat_of_zero_le hn
  have hm' : m < 10 ^ width := by exact_mod_cast hm'
  have hn' : n < 10 ^ width := by exact_mod_cast hn'
  rcases h with hlt | ⟨hsame, hrest⟩
  · refine append_lt_append _ _ (padded_lt hwidth (by exact_mod_cast hlt) hn') ?_
    rw [length_padded hwidth hm', length_padded hwidth hn']
  · rw [hsame]
    exact List.append_left_lt hrest

end Fields

/-! ### Dates -/

section Dates

variable {year month day year' month' day' : Int}

/-- The days before the March of a year. -/
def daysBeforeMarch (year : Int) : Int :=
  year / 400 * 146097 + (365 * (year % 400) + year % 400 / 4 - year % 400 / 100)

theorem daysBeforeMarch_succ (year : Int) :
    daysBeforeMarch (year + 1) = daysBeforeMarch year + if IsLeap (year + 1) then 366 else 365 := by
  unfold daysBeforeMarch
  by_cases hleap : IsLeap (year + 1)
  · rw [if_pos hleap]
    unfold IsLeap at hleap
    omega
  · rw [if_neg hleap]
    unfold IsLeap at hleap
    omega

theorem daysBeforeMarch_mono {year year' : Int} (h : year ≤ year') : daysBeforeMarch year ≤ daysBeforeMarch year' := by
  refine monotone_int_of_le_succ (fun year => ?_) h
  rw [daysBeforeMarch_succ]
  split <;> omega

theorem dayOf_eq (year month day : Int) :
    dayOf year month day = daysBeforeMarch (if month ≤ 2 then year - 1 else year) +
      (153 * (if month ≤ 2 then month + 9 else month - 3) + 2) / 5 + day - 719469 := by
  unfold dayOf daysBeforeMarch
  dsimp only
  omega

/-- The first date comes first in the calendar. -/
def DateLt (year month day year' month' day' : Int) : Prop :=
  year < year' ∨ year = year' ∧ (month < month' ∨ month = month' ∧ day < day')

theorem dayOf_lt_of_month (h : ValidDate year month day) (h' : ValidDate year month' day') (hlt : month < month') :
    dayOf year month day < dayOf year month' day' := by
  obtain ⟨-, ⟨hm, hm12⟩, hd, hlast⟩ := h
  obtain ⟨-, ⟨hm', hm12'⟩, hd', -⟩ := h'
  have hmarch := daysBeforeMarch_succ (year - 1)
  rw [Int.sub_add_cancel] at hmarch
  rw [dayOf_eq, dayOf_eq]
  unfold daysInMonth at hlast
  by_cases hearly : month ≤ 2
  · by_cases hearly' : month' ≤ 2
    · simp only [if_pos hearly, if_pos hearly']
      split at hlast <;> omega
    · simp only [if_pos hearly, if_neg hearly', hmarch]
      split at hlast
      · split at hlast
        · rename_i hleap
          rw [if_pos hleap]
          omega
        · rename_i hleap
          rw [if_neg hleap]
          omega
      · split <;> omega
  · have hearly' : ¬month' ≤ 2 := by omega
    simp only [if_neg hearly, if_neg hearly']
    -- the months from March, one by one: no shorter argument sees that they alternate
    interval_cases month <;> simp at hlast <;> omega

theorem dayOf_lt_of_year (h : ValidDate year month day) (h' : ValidDate year' month' day') (hlt : year < year') :
    dayOf year month day < dayOf year' month' day' := by
  obtain ⟨-, ⟨hm, hm12⟩, hd, hlast⟩ := h
  obtain ⟨-, ⟨hm', hm12'⟩, hd', -⟩ := h'
  have hthirty := daysInMonth_le year month
  have hmarch := daysBeforeMarch_succ (year - 1)
  have hlength : (if IsLeap (year - 1 + 1) then 366 else 365 : Int) ≥ 365 := by split <;> omega
  rw [Int.sub_add_cancel] at hmarch hlength
  have hlater : daysBeforeMarch year ≤ daysBeforeMarch (year' - 1) := daysBeforeMarch_mono (by omega)
  have hlater' : daysBeforeMarch year ≤ daysBeforeMarch year' := daysBeforeMarch_mono (by omega)
  have hmarch' := daysBeforeMarch_succ (year' - 1)
  have hlength' : (if IsLeap (year' - 1 + 1) then 366 else 365 : Int) ≥ 365 := by split <;> omega
  rw [Int.sub_add_cancel] at hmarch' hlength'
  rw [dayOf_eq, dayOf_eq]
  split <;> split <;> omega

theorem dayOf_lt (h : ValidDate year month day) (h' : ValidDate year' month' day')
    (hlt : DateLt year month day year' month' day') : dayOf year month day < dayOf year' month' day' := by
  rcases hlt with hyear | ⟨rfl, hmonth | ⟨rfl, hday⟩⟩
  · exact dayOf_lt_of_year h h' hyear
  · exact dayOf_lt_of_month h h' hmonth
  · rw [dayOf_eq, dayOf_eq]
    omega

/-- Later days have later dates. -/
theorem civil_lt {day day' : Int} (h : -719162 ≤ day) (h' : day' ≤ 2932896) (hlt : day < day') :
    DateLt (civil day).1 (civil day).2.1 (civil day).2.2 (civil day').1 (civil day').2.1 (civil day').2.2 := by
  have hvalid := civil_valid h (by omega)
  have hvalid' := civil_valid (show -719162 ≤ day' by omega) h'
  have hback := dayOf_civil day
  have hback' := dayOf_civil day'
  by_contra hnot
  by_cases hrev : DateLt (civil day').1 (civil day').2.1 (civil day').2.2 (civil day).1 (civil day).2.1 (civil day).2.2
  · have hdays := dayOf_lt hvalid' hvalid hrev
    omega
  · unfold DateLt at hnot hrev
    have hyear : (civil day).1 = (civil day').1 := by omega
    have hmonth : (civil day).2.1 = (civil day').2.1 := by omega
    have hday : (civil day).2.2 = (civil day').2.2 := by omega
    rw [hyear, hmonth, hday] at hback
    omega

end Dates

/-! ### Clocks -/

/-- The end of a text in UTC: the fraction, if it is not zero, and the offset. -/
def fractionTail (fraction : Int) : List Char :=
  (if fraction = 0 then "" else "." ++ padded 6 fraction).toList ++ (offsetText 0).toList

theorem cons_lt_cons {c : Char} {rest rest' : List Char} (h : rest < rest') : c :: rest < c :: rest' :=
  List.cons_lt_cons_iff.mpr (.inr ⟨rfl, h⟩)

theorem offsetText_zero : (offsetText 0).toList = ['+', '0', '0', ':', '0', '0'] := by decide

/-- A sign comes before a point, so a whole second comes before its fractions. -/
theorem fractionTail_lt {m n : Int} (hm : 0 ≤ m) (hn : n < 1000000) (hlt : m < n) :
    fractionTail m < fractionTail n := by
  have hpos : n ≠ 0 := by omega
  have hpoint : ".".toList = ['.'] := rfl
  unfold fractionTail
  rw [if_neg hpos, String.toList_append, hpoint]
  by_cases hzero : m = 0
  · rw [if_pos hzero, offsetText_zero]
    exact List.cons_lt_cons_iff.mpr (.inl (by decide))
  · rw [if_neg hzero, String.toList_append, hpoint]
    simp only [List.cons_append, List.nil_append]
    exact cons_lt_cons (padded_append_lt (by decide) hm (by omega) (by omega) (by omega) (.inl hlt))

/-- The text of a clock in UTC, field by field. -/
theorem clockText_append (clock : Int) :
    (clockText clock).toList ++ (offsetText 0).toList =
      (padded 2 (clock / 1000000 / 3600)).toList ++ ':' :: ((padded 2 (clock / 1000000 / 60 % 60)).toList ++
        ':' :: ((padded 2 (clock / 1000000 % 60)).toList ++ fractionTail (clock % 1000000))) := by
  have hcolon : ":".toList = [':'] := rfl
  simp only [clockText, fractionTail, String.toList_append, hcolon, List.append_assoc, List.cons_append,
    List.nil_append]

theorem clockText_lt {clock clock' : Int} (h : 0 ≤ clock) (h' : clock' < 86400000000) (hlt : clock < clock') :
    (clockText clock).toList ++ (offsetText 0).toList < (clockText clock').toList ++ (offsetText 0).toList := by
  rw [clockText_append, clockText_append]
  refine padded_append_lt (by decide) (by omega) (by omega) (by omega) (by omega) ?_
  by_cases hhours : clock / 1000000 / 3600 < clock' / 1000000 / 3600
  · exact .inl hhours
  refine .inr ⟨by omega, cons_lt_cons (padded_append_lt (by decide) (by omega) (by omega) (by omega) (by omega) ?_)⟩
  by_cases hminutes : clock / 1000000 / 60 % 60 < clock' / 1000000 / 60 % 60
  · exact .inl hminutes
  refine .inr ⟨by omega, cons_lt_cons (padded_append_lt (by decide) (by omega) (by omega) (by omega) (by omega) ?_)⟩
  by_cases hseconds : clock / 1000000 % 60 < clock' / 1000000 % 60
  · exact .inl hseconds
  · exact .inr ⟨by omega, fractionTail_lt (by omega) (by omega) (by omega)⟩

/-! ### Datetimes -/

/-- The text of a datetime in UTC, field by field. -/
theorem isoformat_utc (microseconds : Int) :
    (utc microseconds).isoformat.toList =
      (padded 4 (civil (microseconds / 86400000000)).1).toList ++
        '-' :: ((padded 2 (civil (microseconds / 86400000000)).2.1).toList ++
          '-' :: ((padded 2 (civil (microseconds / 86400000000)).2.2).toList ++
            'T' :: ((clockText (microseconds % 86400000000)).toList ++ (offsetText 0).toList))) := by
  simp only [isoformat, utc, String.toList_append, List.append_assoc, show "-".toList = ['-'] from rfl,
    show "T".toList = ['T'] from rfl, List.cons_append, List.nil_append]

theorem isoformat_utc_lt {left right : Int} (hleft : (utc left).InCalendar) (hright : (utc right).InCalendar)
    (hlt : left < right) : (utc left).isoformat < (utc right).isoformat := by
  have hleft : -62135596800000000 ≤ left := hleft.1
  have hright : right ≤ 253402300799999999 := hright.2
  have hdays : -719162 ≤ left / 86400000000 ∧ right / 86400000000 ≤ 2932896 := by omega
  obtain ⟨⟨hyear, hyear'⟩, ⟨hmonth, hmonth'⟩, hday, hday'⟩ :=
    civil_valid hdays.1 (show left / 86400000000 ≤ 2932896 by omega)
  obtain ⟨⟨gyear, gyear'⟩, ⟨gmonth, gmonth'⟩, gday, gday'⟩ :=
    civil_valid (show -719162 ≤ right / 86400000000 by omega) hdays.2
  have hthirty := daysInMonth_le (civil (left / 86400000000)).1 (civil (left / 86400000000)).2.1
  have gthirty := daysInMonth_le (civil (right / 86400000000)).1 (civil (right / 86400000000)).2.1
  rw [String.lt_iff, isoformat_utc, isoformat_utc]
  by_cases hsame : left / 86400000000 = right / 86400000000
  · rw [hsame]
    have hclock := clockText_lt (Int.emod_nonneg left (by decide)) (Int.emod_lt_of_pos right (by decide))
      (show left % 86400000000 < right % 86400000000 by omega)
    exact List.append_left_lt (cons_lt_cons (List.append_left_lt (cons_lt_cons (List.append_left_lt (cons_lt_cons hclock)))))
  · have hdate := civil_lt hdays.1 hdays.2 (show left / 86400000000 < right / 86400000000 by omega)
    refine padded_append_lt (by decide) (by omega) (by omega) (by omega) (by omega) (hdate.imp_right ?_)
    rintro ⟨hyears, hdate⟩
    refine ⟨hyears, cons_lt_cons (padded_append_lt (by decide) (by omega) (by omega) (by omega) (by omega) ?_)⟩
    refine hdate.imp_right ?_
    rintro ⟨hmonths, hdate⟩
    exact ⟨hmonths, cons_lt_cons (padded_append_lt (by decide) (by omega) (by omega) (by omega) (by omega) (.inl hdate))⟩

/-- Texts in UTC sort like time. -/
theorem isoformat_utc_lt_iff {left right : Int} (hleft : (utc left).InCalendar) (hright : (utc right).InCalendar) :
    (utc left).isoformat < (utc right).isoformat ↔ left < right := by
  constructor
  · intro htext
    by_contra hnot
    rcases (Int.not_lt.mp hnot).lt_or_eq with hlt | rfl
    · exact String.lt_asymm htext (isoformat_utc_lt hright hleft hlt)
    · exact String.lt_irrefl _ htext
  · exact isoformat_utc_lt hleft hright

theorem isoformat_utc_eq_iff {left right : Int} (hleft : (utc left).InCalendar) (hright : (utc right).InCalendar) :
    (utc left).isoformat = (utc right).isoformat ↔ left = right := by
  constructor
  · intro htext
    rcases lt_trichotomy left right with hlt | hsame | hlt
    · have htexts := isoformat_utc_lt hleft hright hlt
      rw [htext] at htexts
      exact (String.lt_irrefl _ htexts).elim
    · exact hsame
    · have htexts := isoformat_utc_lt hright hleft hlt
      rw [htext] at htexts
      exact (String.lt_irrefl _ htexts).elim
  · rintro rfl
    rfl

end Datetime
