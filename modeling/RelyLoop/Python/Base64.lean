import Mathlib.Data.List.Basic
import Mathlib.Tactic.Common

/-!
# `base64`

`urlsafe_b64encode` and `urlsafe_b64decode`. The decoder is the lenient one of
`binascii`: it skips the characters outside of both alphabets, and stops at the padding
that completes a group.
-/

namespace RelyLoop.Python.Base64

/-- The URL-safe alphabet. -/
def alphabet : List Char :=
  "ABCDEFGHIJKLMNOPQRSTUVWXYZabcdefghijklmnopqrstuvwxyz0123456789-_".toList

/-- The character of a group of six bits. -/
def digit (n : ℕ) : Char := alphabet.getD n 'A'

/-- The six bits of a character of either alphabet. -/
def value (c : Char) : Option ℕ :=
  if c.isUpper then some (c.toNat - 65)
  else if c.isLower then some (c.toNat - 97 + 26)
  else if c.isDigit then some (c.toNat - 48 + 52)
  else if c = '-' ∨ c = '+' then some 62
  else if c = '_' ∨ c = '/' then some 63
  else none

theorem value_digit {n : ℕ} (h : n < 64) : value (digit n) = some n := by
  have hall : ∀ n : Fin 64, value (digit n) = some n.val := by decide +kernel
  exact hall ⟨n, h⟩

theorem digit_ne_pad {n : ℕ} (h : n < 64) : digit n ≠ '=' := by
  have hall : ∀ n : Fin 64, digit n ≠ '=' := by decide +kernel
  exact hall ⟨n, h⟩

/-- `urlsafe_b64encode`. -/
def encode : List UInt8 → List Char
  | [] => []
  | [a] => [digit (a.toNat / 4), digit (a.toNat % 4 * 16), '=', '=']
  | [a, b] =>
    [digit (a.toNat / 4), digit (a.toNat % 4 * 16 + b.toNat / 16), digit (b.toNat % 16 * 4), '=']
  | a :: b :: c :: bytes =>
    digit (a.toNat / 4) :: digit (a.toNat % 4 * 16 + b.toNat / 16) ::
      digit (b.toNat % 16 * 4 + c.toNat / 64) :: digit (c.toNat % 64) :: encode bytes

/-- The loop of `a2b_base64`: the position in the group of four characters, the bits that
are left from its last character, and the pads that were seen since. -/
def decodeFrom : (position left pads : ℕ) → List Char → Option (List UInt8)
  | position, _, _, [] => if position = 0 then some [] else none
  | position, left, pads, c :: text =>
    if c = '=' then
      if position < 2 then decodeFrom position left pads text
      else if position + (pads + 1) < 4 then decodeFrom position left (pads + 1) text
      else some []
    else
      match value c with
      | none => decodeFrom position left pads text
      | some bits =>
        match position with
        | 0 => decodeFrom 1 bits 0 text
        | 1 => (decodeFrom 2 (bits % 16) 0 text).map (UInt8.ofNat (left * 4 + bits / 16) :: ·)
        | 2 => (decodeFrom 3 (bits % 4) 0 text).map (UInt8.ofNat (left * 16 + bits / 4) :: ·)
        | _ => (decodeFrom 0 0 0 text).map (UInt8.ofNat (left * 64 + bits) :: ·)

/-- `urlsafe_b64decode`. -/
def decode (text : List Char) : Option (List UInt8) := decodeFrom 0 0 0 text

section Digits

variable {n left pads : ℕ} {text : List Char}

attribute [local simp] decodeFrom in
/-- The first digit of a group. -/
theorem decodeFrom_first (h : n < 64) :
    decodeFrom 0 left pads (digit n :: text) = decodeFrom 1 n 0 text := by
  simp [digit_ne_pad h, value_digit h]

theorem decodeFrom_second (h : n < 64) : decodeFrom 1 left pads (digit n :: text) =
    (decodeFrom 2 (n % 16) 0 text).map (UInt8.ofNat (left * 4 + n / 16) :: ·) := by
  rw [decodeFrom, if_neg (digit_ne_pad h), value_digit h]
  rfl

theorem decodeFrom_third (h : n < 64) : decodeFrom 2 left pads (digit n :: text) =
    (decodeFrom 3 (n % 4) 0 text).map (UInt8.ofNat (left * 16 + n / 4) :: ·) := by
  rw [decodeFrom, if_neg (digit_ne_pad h), value_digit h]
  rfl

theorem decodeFrom_fourth (h : n < 64) : decodeFrom 3 left pads (digit n :: text) =
    (decodeFrom 0 0 0 text).map (UInt8.ofNat (left * 64 + n) :: ·) := by
  rw [decodeFrom, if_neg (digit_ne_pad h), value_digit h]
  rfl

end Digits

/-- The padding that completes a group ends the text. -/
theorem decodeFrom_pads (left : ℕ) :
    decodeFrom 2 left 0 ['=', '='] = some [] ∧ decodeFrom 3 left 0 ['='] = some [] :=
  ⟨rfl, rfl⟩

theorem ofNat_of_eq {a : UInt8} {n : ℕ} (h : n = a.toNat) : UInt8.ofNat n = a := by
  rw [h, UInt8.ofNat_toNat]

/-- What is encoded is decoded. -/
theorem decode_encode (bytes : List UInt8) : decode (encode bytes) = some bytes := by
  unfold decode
  fun_induction encode bytes with
  | case1 => rfl
  | case2 a =>
    have ha := a.toNat_lt
    have hfirst : UInt8.ofNat (a.toNat / 4 * 4 + a.toNat % 4 * 16 / 16) = a :=
      ofNat_of_eq (by omega)
    rw [decodeFrom_first (by omega), decodeFrom_second (by omega), (decodeFrom_pads _).1,
      Option.map_some, hfirst]
  | case3 a b =>
    have ha := a.toNat_lt
    have hb := b.toNat_lt
    have hfirst : UInt8.ofNat (a.toNat / 4 * 4 + (a.toNat % 4 * 16 + b.toNat / 16) / 16) = a :=
      ofNat_of_eq (by omega)
    have hsecond : UInt8.ofNat ((a.toNat % 4 * 16 + b.toNat / 16) % 16 * 16 +
        b.toNat % 16 * 4 / 4) = b := ofNat_of_eq (by omega)
    rw [decodeFrom_first (by omega), decodeFrom_second (by omega),
      decodeFrom_third (by omega), (decodeFrom_pads _).2, Option.map_some, Option.map_some,
      hfirst, hsecond]
  | case4 a b c bytes ih =>
    have ha := a.toNat_lt
    have hb := b.toNat_lt
    have hc := c.toNat_lt
    have hfirst : UInt8.ofNat (a.toNat / 4 * 4 + (a.toNat % 4 * 16 + b.toNat / 16) / 16) = a :=
      ofNat_of_eq (by omega)
    have hsecond : UInt8.ofNat ((a.toNat % 4 * 16 + b.toNat / 16) % 16 * 16 +
        (b.toNat % 16 * 4 + c.toNat / 64) / 4) = b := ofNat_of_eq (by omega)
    have hthird : UInt8.ofNat ((b.toNat % 16 * 4 + c.toNat / 64) % 4 * 64 + c.toNat % 64) = c :=
      ofNat_of_eq (by omega)
    rw [decodeFrom_first (by omega), decodeFrom_second (by omega),
      decodeFrom_third (by omega), decodeFrom_fourth (by omega), ih, Option.map_some,
      Option.map_some, Option.map_some, hfirst, hsecond, hthird]

theorem length_encode (bytes : List UInt8) :
    (encode bytes).length = (bytes.length + 2) / 3 * 4 := by
  induction bytes using encode.induct with
  | case1 => rfl
  | case2 a => simp [encode]
  | case3 a b => simp [encode]
  | case4 a b c bytes ih =>
    simp only [encode, List.length_cons, ih]
    omega

theorem digit_lt (n : ℕ) : (digit n).toNat < 128 := by
  have hall : (alphabet.all fun c => decide (c.toNat < 128)) = true := by decide
  rw [digit, List.getD_eq_getElem?_getD]
  cases h : alphabet[n]? with
  | none => decide
  | some c => exact of_decide_eq_true (List.all_eq_true.mp hall c (List.mem_of_getElem? h))

/-- An encoded text is ASCII. -/
theorem lt_of_mem_encode (bytes : List UInt8) : ∀ c ∈ encode bytes, c.toNat < 128 := by
  induction bytes using encode.induct with
  | case1 => simp [encode]
  | case2 a => simp [encode, digit_lt]
  | case3 a b => simp [encode, digit_lt]
  | case4 a b c bytes ih =>
    simp only [encode, List.mem_cons, forall_eq_or_imp, digit_lt, true_and]
    exact ih

end RelyLoop.Python.Base64
