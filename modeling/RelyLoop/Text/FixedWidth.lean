import Mathlib.Algebra.Order.Ring.Nat
import Mathlib.Data.Char
import Mathlib.Data.List.Lex
import Mathlib.Order.Interval.Set.Basic
import Mathlib.Tactic.Common
import Mathlib.Tactic.Ring

/-!
# Numerals of a fixed width

A number is written with a fixed number of digits. The texts of such numerals are compared
digit by digit, which compares the numbers.
-/

namespace RelyLoop.Text

variable {α : Type*}

/-- The last digits of a number. -/
def lastDigits (digit : ℕ → α) (base : ℕ) : ℕ → ℕ → List α
  | 0, _ => []
  | width + 1, n => digit (n / base ^ width % base) :: lastDigits digit base width n

variable (digit : ℕ → α) (base : ℕ)

@[simp] theorem length_lastDigits (width n : ℕ) :
    (lastDigits digit base width n).length = width := by
  induction width with
  | zero => rfl
  | succ width ih => rw [lastDigits, List.length_cons, ih]

theorem mem_lastDigits {width n : ℕ} {a : α} (h : a ∈ lastDigits digit base width n) :
    ∃ k, a = digit (k % base) := by
  induction width with
  | zero => cases h
  | succ width ih =>
    rw [lastDigits, List.mem_cons] at h
    exact h.elim (fun h => ⟨_, h⟩) ih

/-- The last digit of a numeral stands behind those of the other digits. -/
theorem lastDigits_succ (width n : ℕ) :
    lastDigits digit base (width + 1) n =
      lastDigits digit base width (n / base) ++ [digit (n % base)] := by
  induction width with
  | zero => rw [lastDigits, lastDigits, lastDigits, pow_zero, Nat.div_one, List.nil_append]
  | succ width ih =>
    rw [lastDigits, ih, lastDigits, List.cons_append, pow_succ', Nat.div_div_eq_div_mul]

theorem lastDigits_zero (width : ℕ) :
    lastDigits digit base width 0 = List.replicate width (digit 0) := by
  induction width with
  | zero => rfl
  | succ width ih => rw [lastDigits, ih, Nat.zero_div, Nat.zero_mod, List.replicate_succ]

/-! ## Order -/

/-- Numbers of two digits are in the order of their first digits, then of their second. -/
theorem mul_add_lt_mul_add_iff {m r r' : ℕ} (q q' : ℕ) (hr : r < m) (hr' : r' < m) :
    m * q + r < m * q' + r' ↔ q < q' ∨ q = q' ∧ r < r' := by
  rcases lt_trichotomy q q' with h | rfl | h
  · have hle : m * q + m ≤ m * q' := by
      rw [← Nat.mul_succ]
      exact Nat.mul_le_mul_left m h
    omega
  · omega
  · have hle : m * q' + m ≤ m * q := by
      rw [← Nat.mul_succ]
      exact Nat.mul_le_mul_left m h
    omega

variable [LinearOrder α] {digit base}

/-- Texts that begin with numerals of the same width are in the order of the numbers, then
in that of what follows. -/
theorem lastDigits_append_lt_iff (hdigit : StrictMonoOn digit (Set.Iio base)) (hbase : 0 < base)
    (width a b : ℕ) (x y : List α) :
    lastDigits digit base width a ++ x < lastDigits digit base width b ++ y ↔
      a % base ^ width < b % base ^ width ∨ a % base ^ width = b % base ^ width ∧ x < y := by
  induction width with
  | zero => simp [lastDigits, Nat.mod_one]
  | succ width ih =>
    have hmem (n : ℕ) : n / base ^ width % base ∈ Set.Iio base := Nat.mod_lt _ hbase
    have hlow (n : ℕ) : n % base ^ width < base ^ width := Nat.mod_lt _ (Nat.pow_pos hbase)
    have hsplit (n : ℕ) : n % base ^ (width + 1) =
        base ^ width * (n / base ^ width % base) + n % base ^ width := by
      rw [pow_succ, Nat.mod_mul, Nat.add_comm]
    have hless := mul_add_lt_mul_add_iff (a / base ^ width % base) (b / base ^ width % base)
      (hlow a) (hlow b)
    have hmore := mul_add_lt_mul_add_iff (b / base ^ width % base) (a / base ^ width % base)
      (hlow b) (hlow a)
    rw [← hsplit, ← hsplit] at hless hmore
    rw [lastDigits, lastDigits, List.cons_append, List.cons_append, List.cons_lt_cons_iff, ih,
      hdigit.lt_iff_lt (hmem a) (hmem b), hdigit.injOn.eq_iff (hmem a) (hmem b)]
    by_cases hrest : x < y
    · simp only [hrest, and_true]
      omega
    · simp only [hrest, and_false, or_false]
      omega

/-- The numerals of numbers that fit. -/
theorem lastDigits_append_le_iff (hdigit : StrictMonoOn digit (Set.Iio base))
    (hbase : 0 < base) {width a b : ℕ} (ha : a < base ^ width) (hb : b < base ^ width)
    (x y : List α) :
    lastDigits digit base width a ++ x ≤ lastDigits digit base width b ++ y ↔
      a < b ∨ a = b ∧ x ≤ y := by
  rw [← not_lt, ← not_lt (a := y), lastDigits_append_lt_iff hdigit hbase, Nat.mod_eq_of_lt ha,
    Nat.mod_eq_of_lt hb]
  by_cases hrest : y < x
  · simp only [hrest, and_true, not_true_eq_false, and_false, or_false]
    omega
  · simp only [hrest, and_false, or_false, not_false_eq_true, and_true]
    omega

/-! ## Hexadecimal numerals -/

/-- The hexadecimal digits are in the order of their values. -/
theorem strictMonoOn_digitChar : StrictMonoOn Nat.digitChar (Set.Iio 16) := by
  have hall : ∀ a b : Fin 16, a < b → Nat.digitChar a < Nat.digitChar b := by decide
  intro a ha b hb hab
  exact hall ⟨a, ha⟩ ⟨b, hb⟩ hab

/-- A numeral of lowercase hexadecimal digits. -/
def hexNumeral (width n : ℕ) : List Char := lastDigits Nat.digitChar 16 width n

/-- `f"{n:0…x}"`. -/
def formatHex (width n : ℕ) : List Char := (Nat.toDigits 16 n).leftpad width '0'

/-- A number that fits is written as a numeral of that width. -/
theorem formatHex_eq_hexNumeral {width n : ℕ} (hwidth : 0 < width) (hn : n < 16 ^ width) :
    formatHex width n = hexNumeral width n := by
  induction width generalizing n with
  | zero => exact absurd hwidth (lt_irrefl 0)
  | succ width ih =>
    rw [formatHex, hexNumeral, lastDigits_succ, Nat.toDigits_eq_if (by decide)]
    by_cases hsmall : n < 16
    · rw [if_pos hsmall, Nat.div_eq_of_lt hsmall, lastDigits_zero, Nat.mod_eq_of_lt hsmall]
      simp [List.leftpad]
    · have hpos : 0 < width := by
        by_contra hzero
        obtain rfl : width = 0 := by omega
        exact hsmall (by simpa using hn)
      have hrest : n / 16 < 16 ^ width := by
        rw [pow_succ] at hn
        exact Nat.div_lt_of_lt_mul (by rwa [Nat.mul_comm])
      have hih := ih hpos hrest
      rw [formatHex, hexNumeral] at hih
      rw [if_neg hsmall, ← hih]
      simp [List.leftpad]

end RelyLoop.Text
