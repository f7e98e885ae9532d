import Mathlib.Data.List.DropRight
import Mathlib.Data.Rat.Floor
import Mathlib.Tactic.Linarith

/-!
# Conversions of the Python standard library

`int` on a string and `timedelta(minutes=…)`, as far as they decide whether the
call raises: which texts are integers, and which numbers of minutes fit.
-/

namespace RelyLoop.Python

/-! ## `int` -/

/-- The characters that `int` strips. -/
def isSpace (c : Char) : Bool :=
  (9 ≤ c.toNat && c.toNat ≤ 13) || (0x2000 ≤ c.toNat && c.toNat ≤ 0x200a) ||
    [0x20, 0x85, 0xa0, 0x1680, 0x2028, 0x2029, 0x202f, 0x205f, 0x3000].contains c.toNat

/-- The code points of the Unicode decimal digits zero. The other nine digits
of a script follow its zero. -/
def decimalZeros : List ℕ :=
  [0x30, 0x660, 0x6f0, 0x7c0, 0x966, 0x9e6, 0xa66, 0xae6, 0xb66, 0xbe6, 0xc66, 0xce6, 0xd66,
    0xde6, 0xe50, 0xed0, 0xf20, 0x1040, 0x1090, 0x17e0, 0x1810, 0x1946, 0x19d0, 0x1a80, 0x1a90,
    0x1b50, 0x1bb0, 0x1c40, 0x1c50, 0xa620, 0xa8d0, 0xa900, 0xa9d0, 0xa9f0, 0xaa50, 0xabf0,
    0xff10, 0x104a0, 0x10d30, 0x11066, 0x110f0, 0x11136, 0x111d0, 0x112f0, 0x11450, 0x114d0,
    0x11650, 0x116c0, 0x11730, 0x118e0, 0x11950, 0x11c50, 0x11d50, 0x11da0, 0x11f50, 0x16a60,
    0x16ac0, 0x16b50, 0x1d7ce, 0x1d7d8, 0x1d7e2, 0x1d7ec, 0x1d7f6, 0x1e140, 0x1e2f0, 0x1e4f0,
    0x1e950, 0x1fbf0]

/-- The value of a Unicode decimal digit. -/
def decimalDigit (c : Char) : Option ℕ :=
  decimalZeros.findSome? fun first =>
    if first ≤ c.toNat ∧ c.toNat ≤ first + 9 then some (c.toNat - first) else none

/-- The digits of a numeral; single underscores may separate them. -/
def readDigits : List Char → Option (List ℕ)
  | [] => none
  | [c] => (decimalDigit c).map fun d => [d]
  | c :: '_' :: rest => (decimalDigit c).bind fun d => (readDigits rest).map fun ds => d :: ds
  | c :: rest => (decimalDigit c).bind fun d => (readDigits rest).map fun ds => d :: ds

/-- `sys.int_info.default_max_str_digits`. -/
def maxStrDigits : ℕ := 4300

/-- The value of a numeral without its sign. -/
def readNat (cs : List Char) : Option ℕ :=
  (readDigits cs).bind fun ds =>
    if ds.length ≤ maxStrDigits then some (ds.foldl (fun n d => 10 * n + d) 0) else none

/-- `int(text)`, `none` where it raises `ValueError`. -/
def readInt (text : List Char) : Option ℤ :=
  match (text.dropWhile isSpace).rdropWhile isSpace with
  | '-' :: cs => (readNat cs).map fun n => -(n : ℤ)
  | '+' :: cs => (readNat cs).map fun n => (n : ℤ)
  | cs => (readNat cs).map fun n => (n : ℤ)

/-! ## `timedelta` -/

/-- Rounding to the nearest integer, a tie to the even one. -/
def roundHalfEven (q : ℚ) : ℤ :=
  if q - ⌊q⌋ < 1 / 2 ∨ (q - ⌊q⌋ = 1 / 2 ∧ Even ⌊q⌋) then ⌊q⌋ else ⌊q⌋ + 1

/-- The microseconds of a day. -/
def microsecondsPerDay : ℤ := 24 * 60 * 60 * 1000000

/-- `timedelta` accepts a number of microseconds. -/
def fitsTimedelta (microseconds : ℤ) : Prop :=
  -999999999 ≤ microseconds / microsecondsPerDay ∧ microseconds / microsecondsPerDay ≤ 999999999

instance (microseconds : ℤ) : Decidable (fitsTimedelta microseconds) :=
  inferInstanceAs (Decidable (_ ∧ _))

/-- `timedelta(minutes=…)` in microseconds, `none` where it raises
`OverflowError`: its days have to fit in nine digits. -/
def timedeltaMinutes (minutes : ℚ) : Option ℤ :=
  let microseconds := roundHalfEven (minutes * 60000000)
  if fitsTimedelta microseconds then some microseconds else none

/-- Rounding stays below an even bound exactly when the number is more than
half a unit below it. -/
theorem roundHalfEven_lt_iff {q : ℚ} {n : ℤ} (hn : Even n) :
    roundHalfEven q < n ↔ q < n - 1 / 2 := by
  have hlow := Int.floor_le q
  have hhigh := Int.lt_floor_add_one q
  unfold roundHalfEven
  split
  · rename_i hdown
    constructor
    · intro hlt
      have hle : (⌊q⌋ : ℚ) ≤ n - 1 := by exact_mod_cast Int.le_sub_one_of_lt hlt
      rcases hdown with hbelow | ⟨htie, heven⟩
      · linarith
      · -- A tie below the even bound leaves the floor two units below it.
        have hne : ⌊q⌋ ≠ n - 1 := fun heq => by
          obtain ⟨a, ha⟩ := heven
          obtain ⟨b, hb⟩ := hn
          omega
        have hle' : (⌊q⌋ : ℚ) ≤ n - 2 := by
          exact_mod_cast (by omega : ⌊q⌋ ≤ n - 2)
        linarith
    · intro hlt
      have : (⌊q⌋ : ℚ) < n := by linarith
      exact_mod_cast this
  · rename_i hup
    have hge : 1 / 2 ≤ q - ⌊q⌋ := not_lt.mp fun h => hup (Or.inl h)
    constructor
    · intro hlt
      have hle : (⌊q⌋ : ℚ) ≤ n - 2 := by exact_mod_cast (by omega : ⌊q⌋ ≤ n - 2)
      linarith
    · intro hlt
      have hle : (⌊q⌋ : ℚ) < n - 1 := by linarith
      have : ⌊q⌋ < n - 1 := by exact_mod_cast hle
      omega

theorem roundHalfEven_nonneg {q : ℚ} (hq : 0 ≤ q) : 0 ≤ roundHalfEven q := by
  have hfloor := Int.floor_nonneg.mpr hq
  unfold roundHalfEven
  split <;> omega

theorem fitsTimedelta_iff {microseconds : ℤ} (hnonneg : 0 ≤ microseconds) :
    fitsTimedelta microseconds ↔ microseconds < 1000000000 * microsecondsPerDay := by
  simp only [fitsTimedelta, microsecondsPerDay]
  omega

/-- A number of minutes fits when it rounds to less than ten to the nine days. -/
theorem timedeltaMinutes_isSome_iff {minutes : ℚ} (hpos : 0 ≤ minutes) :
    (timedeltaMinutes minutes).isSome ↔
      minutes * 60000000 < 1000000000 * microsecondsPerDay - 1 / 2 := by
  have hround := roundHalfEven_lt_iff (q := minutes * 60000000)
    (n := 1000000000 * microsecondsPerDay) (by decide)
  have hnonneg := roundHalfEven_nonneg (q := minutes * 60000000) (by positivity)
  push_cast at hround
  rw [← hround, ← fitsTimedelta_iff hnonneg]
  simp [timedeltaMinutes]

end RelyLoop.Python
