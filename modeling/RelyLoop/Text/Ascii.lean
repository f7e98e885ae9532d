/-!
# ASCII characters

The codes of the letters and digits of ASCII, and the lowercase of a letter.
-/

namespace RelyLoop.Text

variable {c : Char}

theorem toNat_of_isLower (h : c.isLower = true) : 97 ≤ c.toNat ∧ c.toNat ≤ 122 := by
  obtain ⟨hlow, hhigh⟩ := Bool.and_eq_true_iff.mp h
  exact ⟨of_decide_eq_true hlow, of_decide_eq_true hhigh⟩

theorem toNat_of_isUpper (h : c.isUpper = true) : 65 ≤ c.toNat ∧ c.toNat ≤ 90 :=
  of_decide_eq_true h

theorem toNat_of_isDigit (h : c.isDigit = true) : 48 ≤ c.toNat ∧ c.toNat ≤ 57 := by
  obtain ⟨hlow, hhigh⟩ := Bool.and_eq_true_iff.mp h
  exact ⟨of_decide_eq_true hlow, of_decide_eq_true hhigh⟩

theorem isUpper_eq_false (h : c.toNat < 65 ∨ 90 < c.toNat) : c.isUpper = false := by
  rw [Bool.eq_false_iff]
  intro hupper
  have hrange := toNat_of_isUpper hupper
  omega

theorem toLower_of_isUpper (h : c.isUpper = false) : c.toLower = c :=
  dif_neg (of_decide_eq_false h)

theorem toNat_toLower (h : c.isUpper = true) : c.toLower.toNat = c.toNat + 32 := by
  have hlower : c.toLower.val = c.val + 32 := congrArg Char.val (dif_pos (of_decide_eq_true h))
  have hrange : c.val.toNat ≤ 90 := (toNat_of_isUpper h).2
  have h32 : (32 : UInt32).toNat = 32 := rfl
  change c.toLower.val.toNat = c.val.toNat + 32
  rw [hlower, UInt32.toNat_add, h32]
  omega

theorem toLower_toLower (c : Char) : c.toLower.toLower = c.toLower := by
  cases h : c.isUpper with
  | false => rw [toLower_of_isUpper h, toLower_of_isUpper h]
  | true =>
    apply toLower_of_isUpper
    apply isUpper_eq_false
    have hrange := toNat_of_isUpper h
    rw [toNat_toLower h]
    omega

end RelyLoop.Text
