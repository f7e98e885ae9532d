import RelyLoop.Python.Conversions
import Mathlib.Algebra.Order.Ring.Int
import Mathlib.Data.Nat.Basic
import Mathlib.Tactic.Common
import Mathlib.Tactic.Ring

/-!
# `datetime`

The times that the database driver returns: aware, and in UTC. They are ordered by their
fields, and `isoformat` is read back.
-/

namespace RelyLoop.Python

/-- The number of days of a month. -/
def daysInMonth (year month : ℕ) : ℕ :=
  if month = 2 then
    if year % 4 = 0 ∧ (year % 100 ≠ 0 ∨ year % 400 = 0) then 29 else 28
  else if month = 4 ∨ month = 6 ∨ month = 9 ∨ month = 11 then 30
  else 31

theorem daysInMonth_le (year month : ℕ) : daysInMonth year month ≤ 31 := by
  unfold daysInMonth
  split
  · split <;> omega
  · split <;> omega

/-- The fields are those of a `datetime`. -/
structure IsDateTime (year month day hour minute second microsecond : ℕ) : Prop where
  year_pos : 1 ≤ year
  year_le : year ≤ 9999
  month_pos : 1 ≤ month
  month_le : month ≤ 12
  day_pos : 1 ≤ day
  day_le : day ≤ daysInMonth year month
  hour_lt : hour < 24
  minute_lt : minute < 60
  second_lt : second < 60
  microsecond_lt : microsecond < 1000000

instance (year month day hour minute second microsecond : ℕ) :
    Decidable (IsDateTime year month day hour minute second microsecond) :=
  decidable_of_iff (1 ≤ year ∧ year ≤ 9999 ∧ 1 ≤ month ∧ month ≤ 12 ∧ 1 ≤ day ∧
      day ≤ daysInMonth year month ∧ hour < 24 ∧ minute < 60 ∧ second < 60 ∧ microsecond < 1000000)
    ⟨fun ⟨h₁, h₂, h₃, h₄, h₅, h₆, h₇, h₈, h₉, h₁₀⟩ =>
        ⟨h₁, h₂, h₃, h₄, h₅, h₆, h₇, h₈, h₉, h₁₀⟩,
      fun ⟨h₁, h₂, h₃, h₄, h₅, h₆, h₇, h₈, h₉, h₁₀⟩ =>
        ⟨h₁, h₂, h₃, h₄, h₅, h₆, h₇, h₈, h₉, h₁₀⟩⟩

/-- An aware `datetime` in UTC. -/
structure DateTime where
  year : ℕ
  month : ℕ
  day : ℕ
  hour : ℕ
  minute : ℕ
  second : ℕ
  microsecond : ℕ
  isDateTime : IsDateTime year month day hour minute second microsecond
  deriving DecidableEq

namespace DateTime

/-- A number that grows with the time. -/
def stamp (d : DateTime) : ℕ :=
  (((((d.year * 13 + d.month) * 32 + d.day) * 24 + d.hour) * 60 + d.minute) * 60 + d.second) *
    1000000 + d.microsecond

/-- Times with the same number are equal. -/
theorem stamp_injective : Function.Injective stamp := by
  rintro ⟨y, m, d, h, i, s, u, hvalid⟩ ⟨y', m', d', h', i', s', u', hvalid'⟩ heq
  simp only [stamp] at heq
  have hfields : ∀ {y m d h i s u : ℕ}, IsDateTime y m d h i s u →
      m < 13 ∧ d < 32 ∧ h < 24 ∧ i < 60 ∧ s < 60 ∧ u < 1000000 := by
    rintro y m d h i s u ⟨-, -, -, hm, -, hd, hh, hi, hs, hu⟩
    have hdays := daysInMonth_le y m
    omega
  have hfirst := hfields hvalid
  have hsecond := hfields hvalid'
  obtain rfl : u = u' := by omega
  obtain rfl : s = s' := by omega
  obtain rfl : i = i' := by omega
  obtain rfl : h = h' := by omega
  obtain rfl : d = d' := by omega
  obtain rfl : m = m' := by omega
  obtain rfl : y = y' := by omega
  rfl

/-! ## Texts -/

/-- The last digits of a number, with leading zeros. -/
def padded : ℕ → ℕ → List Char
  | 0, _ => []
  | width + 1, n => Nat.digitChar (n / 10 ^ width % 10) :: padded width n

/-- A number of a fixed number of digits, and the rest of the text. -/
def readPadded : ℕ → ℕ → List Char → Option (ℕ × List Char)
  | 0, n, text => some (n, text)
  | _ + 1, _, [] => none
  | width + 1, n, c :: text =>
    if c.isDigit then readPadded width (n * 10 + (c.toNat - 48)) text else none

/-- The rest of a text after a character. -/
def readMark (mark : Char) : List Char → Option (List Char)
  | [] => none
  | c :: text => if c = mark then some text else none

/-- `isoformat`. -/
def isoformat (d : DateTime) : List Char :=
  padded 4 d.year ++ '-' :: (padded 2 d.month ++ '-' :: (padded 2 d.day ++ 'T' ::
    (padded 2 d.hour ++ ':' :: (padded 2 d.minute ++ ':' :: (padded 2 d.second ++
      ((if d.microsecond = 0 then [] else '.' :: padded 6 d.microsecond) ++
        "+00:00".toList))))))

/-- The fraction of a second, and the rest of the text. -/
def readFraction : List Char → Option (ℕ × List Char)
  | '.' :: text => readPadded 6 0 text
  | text => some (0, text)

/-- `fromisoformat` on the texts of `isoformat`. It reads other texts of ISO 8601 as well,
which no cursor contains. -/
def fromisoformat (text : List Char) : Option DateTime := do
  let (year, text) ← readPadded 4 0 text
  let (month, text) ← readPadded 2 0 (← readMark '-' text)
  let (day, text) ← readPadded 2 0 (← readMark '-' text)
  let (hour, text) ← readPadded 2 0 (← readMark 'T' text)
  let (minute, text) ← readPadded 2 0 (← readMark ':' text)
  let (second, text) ← readPadded 2 0 (← readMark ':' text)
  let (microsecond, text) ← readFraction text
  if text ≠ "+00:00".toList then none
  else if h : IsDateTime year month day hour minute second microsecond then
    some ⟨year, month, day, hour, minute, second, microsecond, h⟩
  else none

theorem readPadded_append (width n rest : ℕ) (text : List Char) :
    readPadded width rest (padded width n ++ text) =
      some (rest * 10 ^ width + n % 10 ^ width, text) := by
  induction width generalizing rest with
  | zero => simp [readPadded, padded, Nat.mod_one]
  | succ width ih =>
    have hall : ∀ k : Fin 10, (Nat.digitChar k).isDigit = true ∧
        (Nat.digitChar k).toNat - 48 = k.val := by decide
    obtain ⟨hdigit, hvalue⟩ := hall ⟨n / 10 ^ width % 10, Nat.mod_lt _ (by decide)⟩
    rw [padded, List.cons_append, readPadded, if_pos hdigit, ih, hvalue, pow_succ,
      Nat.mod_mul]
    congr 2
    ring

theorem readPadded_padded {width n : ℕ} (h : n < 10 ^ width) (text : List Char) :
    readPadded width 0 (padded width n ++ text) = some (n, text) := by
  rw [readPadded_append, Nat.zero_mul, Nat.zero_add, Nat.mod_eq_of_lt h]

theorem readFraction_append {microsecond : ℕ} (h : microsecond < 1000000) :
    readFraction ((if microsecond = 0 then [] else '.' :: padded 6 microsecond) ++
      "+00:00".toList) = some (microsecond, "+00:00".toList) := by
  split
  · rename_i hzero
    rw [hzero]
    rfl
  · exact readPadded_padded (by simpa using h) _

private theorem bind_of_eq_some {α β : Type} {x : Option α} {f : α → Option β} {a : α}
    {y : Option β} (hx : x = some a) (hy : f a = y) : x >>= f = y := by
  rw [hx]
  exact hy

/-- `isoformat` is read back. -/
theorem fromisoformat_isoformat (d : DateTime) : fromisoformat d.isoformat = some d := by
  obtain ⟨-, hyear, -, hmonth, -, hday, hhour, hminute, hsecond, hmicrosecond⟩ := d.isDateTime
  have hdays := daysInMonth_le d.year d.month
  have hmark (mark : Char) (text : List Char) : readMark mark (mark :: text) = some text :=
    if_pos rfl
  unfold fromisoformat isoformat
  apply bind_of_eq_some (readPadded_padded (by omega) _)
  apply bind_of_eq_some (hmark '-' _)
  apply bind_of_eq_some (readPadded_padded (by omega) _)
  apply bind_of_eq_some (hmark '-' _)
  apply bind_of_eq_some (readPadded_padded (by omega) _)
  apply bind_of_eq_some (hmark 'T' _)
  apply bind_of_eq_some (readPadded_padded (by omega) _)
  apply bind_of_eq_some (hmark ':' _)
  apply bind_of_eq_some (readPadded_padded (by omega) _)
  apply bind_of_eq_some (hmark ':' _)
  apply bind_of_eq_some (readPadded_padded (by omega) _)
  apply bind_of_eq_some (readFraction_append hmicrosecond)
  exact (if_neg (not_not_intro rfl)).trans (dif_pos d.isDateTime)

end DateTime

end RelyLoop.Python

/-!
## Instants

The instant that a `datetime` with any offset from UTC denotes, as a number of microseconds
since the epoch. It is negative before 1970.
-/

namespace RelyLoop.Python

/-! ## Ordinals -/

/-- `_days_before_year`. -/
def daysBeforeYear (year : ℕ) : ℕ :=
  let y := year - 1
  y * 365 + y / 4 - y / 100 + y / 400

/-- `_days_before_month`. -/
def daysBeforeMonth (year month : ℕ) : ℕ :=
  ((List.range (month - 1)).map fun m => daysInMonth year (m + 1)).sum

theorem daysBeforeMonth_le (year month : ℕ) : daysBeforeMonth year month ≤ 31 * (month - 1) := by
  rw [daysBeforeMonth]
  induction month - 1 with
  | zero => exact Nat.zero_le _
  | succ n ih =>
    have hdays := daysInMonth_le year (n + 1)
    rw [List.range_succ, List.map_append, List.sum_append]
    simp only [List.map_cons, List.map_nil, List.sum_cons, List.sum_nil]
    omega

/-- `toordinal`: 1 is the first of January of year 1. -/
def DateTime.toordinal (d : DateTime) : ℕ :=
  daysBeforeYear d.year + daysBeforeMonth d.year d.month + d.day

/-- The ordinal of 1970-01-01. -/
def epochOrdinal : ℕ := 719163

/-- The microseconds from the epoch to the fields of a time, read in UTC. -/
def DateTime.sinceEpoch (d : DateTime) : ℤ :=
  ((((d.toordinal : ℤ) - epochOrdinal) * 24 + d.hour) * 60 + d.minute) * 60 * 1000000 +
    d.second * 1000000 + d.microsecond

theorem DateTime.sinceEpoch_bounds (d : DateTime) :
    -62135596800000000 ≤ d.sinceEpoch ∧ d.sinceEpoch < 253403000000000000 := by
  obtain ⟨year, month, day, hour, minute, second, microsecond, hvalid⟩ := d
  obtain ⟨hyear, hyear', hmonth, hmonth', hday, hday', hhour, hminute, hsecond, hmicrosecond⟩ :=
    hvalid
  have hmonths := daysBeforeMonth_le year month
  have hdays := daysInMonth_le year month
  have hyears : daysBeforeYear year ≤ 3651694 := by
    simp only [daysBeforeYear]
    omega
  simp only [DateTime.sinceEpoch, DateTime.toordinal, epochOrdinal]
  omega

/-! ## Offsets -/

/-- The offset of a time zone from UTC: less than a day, in microseconds. -/
structure UtcOffset where
  microseconds : ℤ
  lower : -microsecondsPerDay < microseconds
  upper : microseconds < microsecondsPerDay

/-- A `datetime`: its fields, and the offset of its zone. A naive one has no zone. -/
structure AnyDateTime where
  fields : DateTime
  utcoffset : Option UtcOffset

namespace AnyDateTime

/-- `if since.tzinfo is None: since = since.replace(tzinfo=UTC)`, then the microseconds from the
epoch. -/
def microseconds (d : AnyDateTime) : ℤ :=
  match d.utcoffset with
  | none => d.fields.sinceEpoch
  | some offset => d.fields.sinceEpoch - offset.microseconds

/-- The milliseconds of every instant have less than 48 bits. -/
theorem microseconds_bounds (d : AnyDateTime) :
    -281474976710656000 < d.microseconds ∧ d.microseconds < 281474976710656000 := by
  obtain ⟨fields, - | offset⟩ := d
  · have hfields := fields.sinceEpoch_bounds
    simp only [microseconds]
    omega
  · have hfields := fields.sinceEpoch_bounds
    have hlower := offset.lower
    have hupper := offset.upper
    simp only [microsecondsPerDay] at hlower hupper
    simp only [microseconds]
    omega

end AnyDateTime

end RelyLoop.Python
