import RelyLoop.Text.BoundedWords

/-!
# UTF-16

Texts as sequences of code units, as ECMAScript keeps them. Distinct texts are distinct sequences,
and every sequence is the code units of its code points.
-/

namespace RelyLoop.Text

/-- The code units of a character: one, or the two halves of a surrogate pair. -/
def codeUnits (c : Char) : List ℕ :=
  if c.toNat < 0x10000 then [c.toNat]
  else [0xD800 + (c.toNat - 0x10000) / 0x400, 0xDC00 + (c.toNat - 0x10000) % 0x400]

/-- The code units of a text. -/
def utf16 (text : List Char) : List ℕ := text.flatMap codeUnits

/-- A code point: a character, or an unpaired half of a surrogate pair. -/
inductive CodePoint where
  | scalar (c : Char)
  | unpaired (unit : ℕ)
  deriving DecidableEq

/-- A code unit by itself. -/
def CodePoint.ofUnit (unit : ℕ) : CodePoint :=
  if 0xD800 ≤ unit ∧ unit < 0xE000 then .unpaired unit else .scalar (Char.ofNat unit)

/-- The character of a surrogate pair. -/
def pairChar (high low : ℕ) : Char :=
  Char.ofNat (0x10000 + (high - 0xD800) * 0x400 + (low - 0xDC00))

/-- `StringToCodePoints`. -/
def codePoints : List ℕ → List CodePoint
  | [] => []
  | [unit] => [.ofUnit unit]
  | high :: low :: rest =>
    if 0xD800 ≤ high ∧ high < 0xDC00 ∧ 0xDC00 ≤ low ∧ low < 0xE000 then
      .scalar (pairChar high low) :: codePoints rest
    else .ofUnit high :: codePoints (low :: rest)

/-- The code units of a code point. -/
def CodePoint.units : CodePoint → List ℕ
  | scalar c => codeUnits c
  | unpaired unit => [unit]

theorem char_toNat_lt (c : Char) : c.toNat < 0x110000 := by
  have h := c.valid
  rcases h with h | ⟨-, h⟩
  · exact Nat.lt_trans h (by decide)
  · exact h

/-- No character is half of a surrogate pair. -/
theorem char_not_surrogate (c : Char) : ¬ (0xD800 ≤ c.toNat ∧ c.toNat < 0xE000) := by
  have h := c.valid
  rcases h with h | ⟨h, -⟩
  · exact fun ⟨hle, _⟩ => absurd h (Nat.not_lt.mpr hle)
  · exact fun ⟨_, hlt⟩ => absurd (Nat.lt_of_lt_of_le hlt h) (Nat.lt_irrefl _)

/-- The code points of a text are its characters. -/
theorem codePoints_utf16 (text : List Char) :
    codePoints (utf16 text) = text.map CodePoint.scalar := by
  induction text with
  | nil => rfl
  | cons c text ih =>
    have hnot := char_not_surrogate c
    have hlt := char_toNat_lt c
    rw [utf16, List.flatMap_cons, ← utf16, codeUnits]
    split
    · have hunit : CodePoint.ofUnit c.toNat = .scalar c := by
        rw [CodePoint.ofUnit, if_neg hnot, Char.ofNat_toNat]
      cases hrest : utf16 text with
      | nil =>
        rw [hrest] at ih
        rw [List.append_nil, codePoints, hunit, List.map_cons, ← ih]
        rfl
      | cons low rest =>
        have hnohigh : ¬ (0xD800 ≤ c.toNat ∧ c.toNat < 0xDC00 ∧ 0xDC00 ≤ low ∧ low < 0xE000) := by
          omega
        rw [List.singleton_append, codePoints, if_neg hnohigh, hunit, ← hrest, ih, List.map_cons]
    · have hpair : 0xD800 ≤ 0xD800 + (c.toNat - 0x10000) / 0x400 ∧
          0xD800 + (c.toNat - 0x10000) / 0x400 < 0xDC00 ∧
          0xDC00 ≤ 0xDC00 + (c.toNat - 0x10000) % 0x400 ∧
          0xDC00 + (c.toNat - 0x10000) % 0x400 < 0xE000 := by omega
      have hchar : pairChar (0xD800 + (c.toNat - 0x10000) / 0x400)
          (0xDC00 + (c.toNat - 0x10000) % 0x400) = c := by
        have hnat : 0x10000 + (0xD800 + (c.toNat - 0x10000) / 0x400 - 0xD800) * 0x400 +
            (0xDC00 + (c.toNat - 0x10000) % 0x400 - 0xDC00) = c.toNat := by omega
        rw [pairChar, hnat, Char.ofNat_toNat]
      rw [List.cons_append, List.singleton_append, codePoints, if_pos hpair, hchar, ih,
        List.map_cons]

theorem utf16_injective : Function.Injective utf16 := by
  intro x y h
  have hpoints := congrArg codePoints h
  rw [codePoints_utf16, codePoints_utf16] at hpoints
  exact List.map_injective_iff.mpr (fun _ _ => CodePoint.scalar.inj) hpoints

@[simp] theorem utf16_nil : utf16 [] = [] := rfl

@[simp] theorem utf16_cons (c : Char) (text : List Char) :
    utf16 (c :: text) = codeUnits c ++ utf16 text := rfl

@[simp] theorem utf16_append (x y : List Char) : utf16 (x ++ y) = utf16 x ++ utf16 y := by
  simp [utf16]

/-- A character is one code unit, or two halves of a pair. -/
theorem codeUnits_cases (c : Char) : c.toNat < 0x10000 ∧ codeUnits c = [c.toNat] ∨
    0x10000 ≤ c.toNat ∧ ∃ high low, codeUnits c = [high, low] ∧
      (0xD800 ≤ high ∧ high < 0xE000) ∧ 0xD800 ≤ low ∧ low < 0xE000 := by
  have hlt := char_toNat_lt c
  by_cases hsingle : c.toNat < 0x10000
  · exact Or.inl ⟨hsingle, if_pos hsingle⟩
  · exact Or.inr ⟨by omega, _, _, if_neg hsingle, by omega, by omega⟩

theorem codeUnits_ne_nil (c : Char) : codeUnits c ≠ [] := by
  rcases codeUnits_cases c with ⟨-, h⟩ | ⟨-, high, low, h, -⟩
  · simp [h]
  · simp [h]

theorem utf16_eq_nil_iff {text : List Char} : utf16 text = [] ↔ text = [] := by
  cases text with
  | nil => simp
  | cons c text => simp [codeUnits_ne_nil]

/-! ## Code points -/

/-- The character of a code point, if it is one. -/
def CodePoint.scalar? : CodePoint → Option Char
  | scalar c => some c
  | unpaired _ => none

/-- The number of a code point. -/
def CodePoint.toNat : CodePoint → ℕ
  | scalar c => c.toNat
  | unpaired unit => unit

theorem toNat_charOfNat {n : ℕ} (h : n.isValidChar) : (Char.ofNat n).toNat = n := by
  rw [Char.ofNat, dif_pos h]
  rfl

theorem codeUnits_ofUnit {unit : ℕ} (h : unit < 0x10000) :
    (CodePoint.ofUnit unit).units = [unit] := by
  rw [CodePoint.ofUnit]
  split
  · rfl
  · rename_i hnot
    have hvalid : unit.isValidChar := by
      unfold Nat.isValidChar
      omega
    have hnat : (Char.ofNat unit).toNat = unit := toNat_charOfNat hvalid
    rw [CodePoint.units, codeUnits, hnat, if_pos h]

theorem toNat_pairChar {high low : ℕ} (hhigh : 0xD800 ≤ high ∧ high < 0xDC00)
    (hlow : 0xDC00 ≤ low ∧ low < 0xE000) :
    (pairChar high low).toNat = 0x10000 + (high - 0xD800) * 0x400 + (low - 0xDC00) := by
  have hvalid : (0x10000 + (high - 0xD800) * 0x400 + (low - 0xDC00)).isValidChar := by
    unfold Nat.isValidChar
    omega
  exact toNat_charOfNat hvalid

/-- The code units of the code points are those that were read. -/
theorem flatMap_units_codePoints {units : List ℕ} (h : ∀ unit ∈ units, unit < 0x10000) :
    (codePoints units).flatMap CodePoint.units = units := by
  induction units using codePoints.induct with
  | case1 => rfl
  | case2 unit =>
    rw [codePoints, List.flatMap_cons, codeUnits_ofUnit (h unit List.mem_cons_self)]
    rfl
  | case3 high low rest hpair ih =>
    have hrest := ih fun unit hunit => h unit (List.mem_cons_of_mem _ (List.mem_cons_of_mem _ hunit))
    have hnat := toNat_pairChar ⟨hpair.1, hpair.2.1⟩ hpair.2.2
    rw [codePoints, if_pos hpair, List.flatMap_cons, hrest, CodePoint.units, codeUnits,
      if_neg (by omega), hnat]
    simp only [List.cons_append, List.nil_append, List.cons.injEq, and_true]
    omega
  | case4 high low rest hpair ih =>
    have hrest := ih fun unit hunit => h unit (List.mem_cons_of_mem _ hunit)
    rw [codePoints, if_neg hpair, List.flatMap_cons, hrest,
      codeUnits_ofUnit (h high List.mem_cons_self)]
    rfl

/-- A code unit alone has its own number. -/
theorem ofUnit_toNat_scalar (c : Char) : CodePoint.ofUnit c.toNat = .scalar c := by
  rw [CodePoint.ofUnit, if_neg (char_not_surrogate c), Char.ofNat_toNat]

theorem ofUnit_toNat_ofUnit {unit : ℕ} :
    CodePoint.ofUnit (CodePoint.ofUnit unit).toNat = CodePoint.ofUnit unit := by
  by_cases h : 0xD800 ≤ unit ∧ unit < 0xE000
  · have hunit : CodePoint.ofUnit unit = .unpaired unit := if_pos h
    rw [hunit, CodePoint.toNat, hunit]
  · have hunit : CodePoint.ofUnit unit = .scalar (Char.ofNat unit) := if_neg h
    rw [hunit, CodePoint.toNat, ofUnit_toNat_scalar]

/-- The numbers of code points tell them apart. -/
theorem map_ofUnit_map_toNat (units : List ℕ) :
    ((codePoints units).map CodePoint.toNat).map CodePoint.ofUnit = codePoints units := by
  induction units using codePoints.induct with
  | case1 => rfl
  | case2 unit => simp only [codePoints, List.map_cons, List.map_nil, ofUnit_toNat_ofUnit]
  | case3 high low rest hpair ih =>
    rw [codePoints, if_pos hpair, List.map_cons, List.map_cons, ih, CodePoint.toNat,
      ofUnit_toNat_scalar]
  | case4 high low rest hpair ih =>
    rw [codePoints, if_neg hpair, List.map_cons, List.map_cons, ih, ofUnit_toNat_ofUnit]

end RelyLoop.Text
