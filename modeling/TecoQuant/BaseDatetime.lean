import Mathlib.Algebra.Order.Field.Rat

/-! Datetimes that are naive or have a fixed UTC offset, as `datetime.timezone` has; a zone whose offset changes, in
which equal zones compare by the wall clock, is not such a datetime. Wall clock and offset are counted in microseconds,
without bounds; the readings the calendar holds are those of the years 1 to 9999, and `astimezone` raises for others. -/

/-- A wall-clock reading, in microseconds since 1970-01-01, and its UTC offset unless it is naive. -/
structure Datetime where
  wall : Int
  utcoffset : Option Int
  deriving DecidableEq, Repr

namespace Datetime

/-- A moment read in UTC. -/
def utc (microseconds : Int) : Datetime := ⟨microseconds, some 0⟩

def Aware (t : Datetime) : Prop := t.utcoffset.isSome

instance (t : Datetime) : Decidable t.Aware := inferInstanceAs (Decidable (_ = _))

/-- The moment, in microseconds since the epoch in UTC. -/
def instant (t : Datetime) : Int := t.wall - t.utcoffset.getD 0

/-- `left == right`. -/
def SameMoment (left right : Datetime) : Prop := (left.Aware ↔ right.Aware) ∧ left.instant = right.instant

instance (left right : Datetime) : Decidable (SameMoment left right) := inferInstanceAs (Decidable (_ ∧ _))

/-- The UTC calendar day, counted from 1970-01-01. -/
def utcDay (t : Datetime) : Int := t.instant / 86400000000

/-- `(left - right).total_seconds()`. -/
def secondsSince (left right : Datetime) : ℚ := (left.instant - right.instant : Int) / 1000000

/-- The reading a number of microseconds later, at the same offset. -/
def plus (t : Datetime) (microseconds : Int) : Datetime := { t with wall := t.wall + microseconds }

/-- `t.astimezone(UTC)`. -/
def toUtc (t : Datetime) : Datetime := utc t.instant

/-- A reading from `datetime.min` to `datetime.max`. -/
def InCalendar (t : Datetime) : Prop := -62135596800000000 ≤ t.wall ∧ t.wall ≤ 253402300799999999

instance (t : Datetime) : Decidable t.InCalendar := inferInstanceAs (Decidable (_ ∧ _))

/-- An aware moment that the calendar can hold in UTC. -/
def HasUtc (t : Datetime) : Prop := t.Aware ∧ t.toUtc.InCalendar

instance (t : Datetime) : Decidable t.HasUtc := inferInstanceAs (Decidable (_ ∧ _))

/-- `t.astimezone(UTC)` of an aware moment. -/
def astimezone {ε : Type} (overflow : ε) (t : Datetime) : Except ε Datetime :=
  if t.toUtc.InCalendar then .ok t.toUtc else .error overflow

/-! ### Text -/

/-- The year, month and day of a day counted from 1970-01-01: eras of 400 years, years from March. -/
def civil (day : Int) : Int × Int × Int :=
  let shifted := day + 719468
  let era := shifted / 146097
  let dayOfEra := shifted % 146097
  let yearOfEra := (dayOfEra - dayOfEra / 1460 + dayOfEra / 36524 - dayOfEra / 146096) / 365
  let dayOfYear := dayOfEra - (365 * yearOfEra + yearOfEra / 4 - yearOfEra / 100)
  let month := (5 * dayOfYear + 2) / 153
  let year := yearOfEra + era * 400
  (if month < 10 then year else year + 1, if month < 10 then month + 3 else month - 9,
    dayOfYear - (153 * month + 2) / 5 + 1)

/-- A number with leading zeros. -/
def padded (width : Nat) (n : Int) : String :=
  let digits := Nat.toDigits 10 n.natAbs
  String.ofList (List.replicate (width - digits.length) '0' ++ digits)

/-- `HH:MM:SS`, with six fraction digits unless they are zero. -/
def clockText (microseconds : Int) : String :=
  let seconds := microseconds / 1000000
  let fraction := microseconds % 1000000
  padded 2 (seconds / 3600) ++ ":" ++ padded 2 (seconds / 60 % 60) ++ ":" ++ padded 2 (seconds % 60) ++
    if fraction = 0 then "" else "." ++ padded 6 fraction

/-- `+HH:MM`, with the seconds unless they are zero. -/
def offsetText (microseconds : Int) : String :=
  let magnitude : Int := microseconds.natAbs
  (if microseconds < 0 then "-" else "+") ++
    if magnitude % 60000000 = 0 then
      padded 2 (magnitude / 3600000000) ++ ":" ++ padded 2 (magnitude / 60000000 % 60)
    else clockText magnitude

/-- `t.date().isoformat()`. -/
def dateText (t : Datetime) : String :=
  let (year, month, day) := civil (t.wall / 86400000000)
  padded 4 year ++ "-" ++ padded 2 month ++ "-" ++ padded 2 day

/-- `t.isoformat()`. -/
def isoformat (t : Datetime) : String :=
  let (year, month, day) := civil (t.wall / 86400000000)
  padded 4 year ++ "-" ++ padded 2 month ++ "-" ++ padded 2 day ++ "T" ++ clockText (t.wall % 86400000000) ++
    match t.utcoffset with
    | none => ""
    | some offset => offsetText offset

example : isoformat ⟨1709210096000007, some 19800000000⟩ = "2024-02-29T12:34:56.000007+05:30" := by
  decide

@[simp] theorem instant_utc (microseconds : Int) : (utc microseconds).instant = microseconds := by
  simp [instant, utc]

@[simp] theorem instant_toUtc (t : Datetime) : t.toUtc.instant = t.instant := instant_utc _

@[simp] theorem toUtc_utc (microseconds : Int) : (utc microseconds).toUtc = utc microseconds := by
  rw [toUtc, instant_utc]

theorem hasUtc_utc {microseconds : Int} (h : (utc microseconds).InCalendar) : (utc microseconds).HasUtc :=
  ⟨rfl, (toUtc_utc microseconds).symm ▸ h⟩

@[simp] theorem utcDay_toUtc (t : Datetime) : t.toUtc.utcDay = t.utcDay := by
  rw [utcDay, instant_toUtc, utcDay]

theorem astimezone_eq_ok {ε : Type} {overflow : ε} {t u : Datetime} :
    t.astimezone overflow = .ok u ↔ t.toUtc.InCalendar ∧ t.toUtc = u := by
  unfold astimezone
  split <;> simp [*]

theorem astimezone_of_inCalendar {ε : Type} {overflow : ε} {t : Datetime} (h : t.toUtc.InCalendar) :
    t.astimezone overflow = .ok t.toUtc := if_pos h

theorem mem_padded {width : Nat} {n : Int} {c : Char} (h : c ∈ (padded width n).toList) : c.isDigit = true := by
  rw [padded, String.toList_ofList] at h
  rcases List.mem_append.mp h with h | h
  · rw [List.eq_of_mem_replicate h]
    rfl
  · exact Nat.isDigit_of_mem_toDigits (by decide) le_rfl h

end Datetime
