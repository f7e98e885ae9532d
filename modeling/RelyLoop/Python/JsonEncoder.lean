import RelyLoop.Python.JsonDecoder
import RelyLoop.Python.JsonTexts

/-!
# `json.dumps` with indentation

The encoder that writes each item on a line of its own, with the keys of every dict sorted. Its
text is read back, by a decoder that may enter as many lists and dicts as the value has.
-/

namespace RelyLoop.Python.Encoder

open Decoder JsonData

variable {F : Type}

/-! ## The encoder -/

/-- A code unit of a string, with `ensure_ascii`. -/
def escapeUnit (u : UInt16) : List Char :=
  if u.toNat < 0x80 then escape (Char.ofNat u.toNat) else '\\' :: 'u' :: hexText u.toNat

/-- A string with its quotes. -/
def stringText (s : JsonString) : List Char := '"' :: (s.flatMap escapeUnit ++ ['"'])

/-- A line break, and the indentation of a level. -/
def newline (level : ℕ) : List Char := '\n' :: List.replicate (2 * level) ' '

/-- The items of a list or a dict in their brackets. -/
def brackets (opening closing : Char) (level : ℕ) (body : List Char) : List Char :=
  if body = [] then [opening, closing]
  else opening :: (newline (level + 1) ++ (body ++ (newline level ++ [closing])))

section Write

variable [JsonFloat F]

mutual

/-- `_iterencode`, with an indentation of 2. -/
def writeValue : ℕ → JsonData F → List Char
  | _, .null => "null".toList
  | _, .bool true => "true".toList
  | _, .bool false => "false".toList
  | _, .int i => intText i
  | _, .float f => JsonFloat.text f
  | _, .str s => stringText s
  | level, .list items => brackets '[' ']' level (writeItems (level + 1) items)
  | level, .dict keys values => brackets '\x7b' '\x7d' level (writeEntries (level + 1) keys values)

/-- The items of a list. -/
def writeItems : ℕ → List (JsonData F) → List Char
  | _, [] => []
  | level, [item] => writeValue level item
  | level, item :: item' :: items =>
    writeValue level item ++ ',' :: (newline level ++ writeItems level (item' :: items))

/-- The entries of a dict. -/
def writeEntries : ℕ → List JsonString → List (JsonData F) → List Char
  | level, key :: _, [value] => stringText key ++ ':' :: ' ' :: writeValue level value
  | level, key :: keys, value :: value' :: values =>
    stringText key ++ ':' :: ' ' :: (writeValue level value ++
      ',' :: (newline level ++ writeEntries level keys (value' :: values)))
  | _, _, _ => []

end

/-- `json.dumps(value, indent=2, sort_keys=True)`, for a limit of the nesting. It raises
`RecursionError`, or the `ValueError` of an integer with too many digits; which of them comes
first is left open. -/
def dumps (limit : ℕ) (value : JsonData F) : Except Failure (List Char) :=
  if limit < value.sortKeys.depth then .error .recursionError
  else if value.sortKeys.digitsFit maxStrDigits then .ok (writeValue 0 value.sortKeys)
  else .error .valueError

end Write

/-! ## Strings are read back -/

theorem ofText_ofNat {n : ℕ} (h : n < 0x80) :
    JsonString.ofText [Char.ofNat n] = [UInt16.ofNat n] := by
  have hall : ∀ n : Fin 0x80, JsonString.ofText [Char.ofNat n] = [UInt16.ofNat n] := by
    decide
  exact hall ⟨n, h⟩

/-- A code unit is read back. -/
theorem readUnits_escapeUnit (u : UInt16) (rest : List Char) :
    readUnits (escapeUnit u ++ rest) = some (some [u], rest) := by
  have hhex (rest : List Char) : readUnits ('\\' :: 'u' :: (hexText u.toNat ++ rest)) =
      some (some [u], rest) := by
    rw [readUnits]
    simp [readHex_hexText u.toNat_lt]
  rw [escapeUnit]
  split
  · rename_i hsmall
    have hnat : (Char.ofNat u.toNat).toNat = u.toNat := Text.toNat_charOfNat (by
      unfold Nat.isValidChar
      omega)
    have hunit : JsonString.ofText [Char.ofNat u.toNat] = [u] := by
      rw [ofText_ofNat hsmall, UInt16.ofNat_toNat]
    rw [escape]
    split
    · rename_i letter hletter
      obtain ⟨hu, hunescape⟩ := unescape_shortEscape hletter
      simp [readUnits, hu, hunescape, hunit]
    · rename_i hnone
      have hquote : Char.ofNat u.toNat ≠ '"' := by
        intro heq
        rw [heq] at hnone
        cases hnone
      have hbackslash : Char.ofNat u.toNat ≠ '\\' := by
        intro heq
        rw [heq] at hnone
        cases hnone
      rw [hnat]
      split
      · rename_i hprintable
        rw [List.singleton_append, readUnits.eq_def]
        dsimp only
        rw [if_neg hquote, if_neg hbackslash, if_neg (by rw [hnat]; omega), hunit]
      · rw [if_pos (by omega)]
        exact hhex rest
  · exact hhex rest

theorem escapeUnit_ne_nil (u : UInt16) : escapeUnit u ≠ [] := by
  intro hnil
  have hread := readUnits_escapeUnit u []
  rw [hnil] at hread
  cases hread

theorem length_le_flatMap_escapeUnit (s : JsonString) :
    s.length ≤ (s.flatMap escapeUnit).length := by
  induction s with
  | nil => exact Nat.zero_le _
  | cons u s ih =>
    have hpos := List.length_pos_of_ne_nil (escapeUnit_ne_nil u)
    rw [List.flatMap_cons, List.length_append, List.length_cons]
    omega

theorem readAllUnits_flatMap (s : JsonString) (rest : List Char) {fuel : ℕ}
    (hfuel : s.length < fuel) :
    readAllUnits fuel (s.flatMap escapeUnit ++ '"' :: rest) = some (s, rest) := by
  induction s generalizing fuel with
  | nil =>
    obtain ⟨fuel, rfl⟩ := Nat.exists_eq_succ_of_ne_zero (Nat.ne_of_gt hfuel)
    rfl
  | cons u s ih =>
    obtain ⟨fuel, rfl⟩ := Nat.exists_eq_succ_of_ne_zero (Nat.ne_of_gt (Nat.zero_lt_of_lt hfuel))
    rw [List.flatMap_cons, List.append_assoc, readAllUnits, readUnits_escapeUnit]
    dsimp only
    rw [ih (Nat.lt_of_succ_lt_succ hfuel)]
    rfl

/-- A string is read back. -/
theorem scanString_flatMap (s : JsonString) (rest : List Char) :
    scanString (s.flatMap escapeUnit ++ '"' :: rest) = some (s, rest) := by
  refine readAllUnits_flatMap s rest ?_
  have hlength := length_le_flatMap_escapeUnit s
  rw [List.length_append, List.length_cons]
  omega

/-! ## Numbers are read back -/

/-- The text goes on with no character of a number or a constant. -/
def Stops (rest : List Char) : Prop := ∀ c ∈ rest.head?, isTokenChar c = false

theorem Stops.not_digit {rest : List Char} (h : Stops rest) :
    ∀ c ∈ rest.head?, c.isDigit = false := by
  intro c hc
  have htoken := h c hc
  by_contra hdigit
  rw [Bool.not_eq_false] at hdigit
  simp [isTokenChar, Char.isAlphanum, hdigit] at htoken

/-- Digits are taken up to a character that is none. -/
theorem takeWhile_digits {digits rest : List Char} (hdigits : ∀ c ∈ digits, c.isDigit = true)
    (hrest : ∀ c ∈ rest.head?, c.isDigit = false) :
    (digits ++ rest).takeWhile Char.isDigit = digits ∧
      (digits ++ rest).dropWhile Char.isDigit = rest := by
  have hstop : rest.takeWhile Char.isDigit = [] ∧ rest.dropWhile Char.isDigit = rest := by
    cases rest with
    | nil => exact ⟨rfl, rfl⟩
    | cons c rest =>
      have hc : c.isDigit = false := hrest c rfl
      exact ⟨List.takeWhile_cons_of_neg (by simp [hc]), List.dropWhile_cons_of_neg (by simp [hc])⟩
  rw [List.takeWhile_append_of_pos hdigits, List.dropWhile_append_of_pos hdigits, hstop.1, hstop.2,
    List.append_nil]
  exact ⟨rfl, rfl⟩

theorem readUnsigned_append {token rest : List Char} (h : readUnsigned token = some (token, []))
    (hrest : ∀ c ∈ rest.head?, c.isDigit = false) :
    readUnsigned (token ++ rest) = some (token, rest) := by
  cases token with
  | nil => cases h
  | cons c digits =>
    rw [List.cons_append]
    rw [readUnsigned] at h ⊢
    split at h
    · rename_i hzero
      have hnil : digits = [] := (Prod.mk.inj (Option.some.inj h)).2
      rw [if_pos hzero, hnil, List.nil_append]
    · rename_i hzero
      split at h
      · rename_i hdigit
        have htake : digits.takeWhile Char.isDigit = digits :=
          (List.cons.inj (Prod.mk.inj (Option.some.inj h)).1).2
        obtain ⟨htake', hdrop⟩ := takeWhile_digits (List.takeWhile_eq_self_iff.mp htake) hrest
        rw [if_neg hzero, if_pos hdigit, htake', hdrop]
      · cases h

/-- The first character of an integer without a sign. -/
theorem head_readUnsigned {text token rest : List Char}
    (h : readUnsigned text = some (token, rest)) :
    ∃ c more, text = c :: more ∧ c.isDigit = true := by
  cases text with
  | nil => cases h
  | cons c text =>
    refine ⟨c, text, rfl, ?_⟩
    rw [readUnsigned] at h
    split at h
    · rename_i hzero
      subst hzero
      rfl
    · split at h
      · rename_i hdigit
        exact hdigit
      · cases h

theorem readInteger_append {token rest : List Char} (h : readInteger token = some (token, []))
    (hrest : ∀ c ∈ rest.head?, c.isDigit = false) :
    readInteger (token ++ rest) = some (token, rest) := by
  rw [readInteger.eq_def] at h
  split at h
  · rename_i text
    obtain ⟨⟨token', rest'⟩, hread, heq⟩ := Option.map_eq_some_iff.mp h
    obtain ⟨htoken, hnil⟩ := Prod.mk.inj heq
    obtain rfl := (List.cons.inj htoken).2
    subst hnil
    rw [List.cons_append, readInteger, readUnsigned_append hread hrest, Option.map_some]
  · rename_i hminus
    have hread := readUnsigned_append h hrest
    obtain ⟨c, more, rfl, hdigit⟩ := head_readUnsigned h
    rw [readInteger.eq_def]
    split
    · rename_i heq
      obtain rfl := (List.cons.inj heq).1
      exact absurd hdigit (by decide)
    · exact hread

/-- The first digit of a positive number is not 0. -/
theorem head_toDigits {n : ℕ} (h : n ≠ 0) :
    ∃ c digits, Nat.toDigits 10 n = c :: digits ∧ c ≠ '0' := by
  induction n using Nat.strongRecOn with
  | ind n ih =>
    rw [Nat.toDigits_eq_if (by decide)]
    split
    · rename_i hsmall
      have hall : ∀ k : Fin 10, k.val ≠ 0 → Nat.digitChar k ≠ '0' := by decide
      exact ⟨_, [], rfl, hall ⟨n, hsmall⟩ h⟩
    · rename_i hlarge
      obtain ⟨c, digits, hdigits, hc⟩ := ih (n / 10) (by omega) (by omega)
      exact ⟨c, _, by rw [hdigits, List.cons_append], hc⟩

theorem readUnsigned_toDigits (n : ℕ) :
    readUnsigned (Nat.toDigits 10 n) = some (Nat.toDigits 10 n, []) := by
  by_cases hzero : n = 0
  · subst hzero
    rfl
  · obtain ⟨c, digits, hdigits, hc⟩ := head_toDigits hzero
    have hall : ∀ d ∈ c :: digits, d.isDigit = true := by
      intro d hd
      rw [← hdigits] at hd
      exact Nat.isDigit_of_mem_toDigits (by decide) (by decide) hd
    obtain ⟨hdigit, hrest⟩ := List.forall_mem_cons.mp hall
    rw [hdigits, readUnsigned, if_neg hc, if_pos hdigit, List.takeWhile_eq_self_iff.mpr hrest,
      List.dropWhile_eq_nil_iff.mpr hrest]

theorem readInteger_intText (i : ℤ) : readInteger (intText i) = some (intText i, []) := by
  have hread := readUnsigned_toDigits i.natAbs
  rw [intText]
  split
  · rw [readInteger, hread, Option.map_some]
  · rw [readInteger.eq_def]
    split
    · rename_i heq
      exact absurd heq head_toDigits_ne_minus
    · exact hread

theorem digitsOf_intText (i : ℤ) : digitsOf (intText i) = Nat.toDigits 10 i.natAbs := by
  rw [intText]
  split
  · rfl
  · rw [digitsOf.eq_def]
    split
    · rename_i heq
      exact absurd heq head_toDigits_ne_minus
    · rfl

theorem intOf_intText (i : ℤ) : intOf (intText i) = i := by
  rw [intText]
  split
  · rw [intOf, Nat.ofDigitChars_ten_toDigits]
    omega
  · rw [intOf.eq_def]
    split
    · rename_i heq
      exact absurd heq head_toDigits_ne_minus
    · rw [Nat.ofDigitChars_ten_toDigits]
      omega

/-- A text that begins with an integer is read as no constant. -/
theorem readConstant_eq_none [JsonFloat F] {text token rest : List Char}
    (h : readInteger text = some (token, rest)) : readConstant (F := F) text = none := by
  have hdigit : ∀ c : Char, c.isDigit = true →
      ∀ letter ∈ ['n', 't', 'f', 'N', 'I', '-'], c ≠ letter := by
    rintro c hc letter hletter rfl
    have hall : ∀ letter ∈ ['n', 't', 'f', 'N', 'I', '-'], Char.isDigit letter = false :=
      @of_decide_eq_true _ (List.decidableBAll _ _) (by decide)
    rw [hall c hletter] at hc
    cases hc
  rw [readInteger.eq_def] at h
  split at h
  · obtain ⟨⟨token', rest'⟩, hread, -⟩ := Option.map_eq_some_iff.mp h
    obtain ⟨c, more, rfl, hc⟩ := head_readUnsigned hread
    have hne := hdigit c hc 'I' (by decide)
    simp [readConstant, constants, List.isPrefixOf, Ne.symm hne]
  · obtain ⟨c, more, rfl, hc⟩ := head_readUnsigned h
    have hne := hdigit c hc
    simp only [List.forall_mem_cons] at hne
    obtain ⟨h₁, h₂, h₃, h₄, h₅, h₆, -⟩ := hne
    simp [readConstant, constants, List.isPrefixOf, Ne.symm h₁, Ne.symm h₂, Ne.symm h₃, Ne.symm h₄,
      Ne.symm h₅, Ne.symm h₆]

theorem Stops.not_mark {rest : List Char} (h : Stops rest) :
    ∀ c ∈ rest.head?, c ≠ '.' ∧ c ≠ 'e' ∧ c ≠ 'E' := by
  intro c hc
  have htoken := h c hc
  refine ⟨?_, ?_, ?_⟩
  all_goals
    rintro rfl
    exact absurd htoken (by decide)

theorem readFraction_of_stops {rest : List Char} (h : ∀ c ∈ rest.head?, c ≠ '.') :
    readFraction rest = ([], rest) := by
  rw [readFraction.eq_def]
  split
  · exact absurd rfl (h '.' rfl)
  · rfl

theorem readExponent_of_stops {rest : List Char} (h : ∀ c ∈ rest.head?, c ≠ 'e' ∧ c ≠ 'E') :
    readExponent rest = ([], rest) := by
  cases rest with
  | nil => rfl
  | cons c rest =>
    obtain ⟨he, hE⟩ := h c rfl
    rw [readExponent]
    simp only [he, hE, or_self, false_and, if_false]

theorem readFraction_append {fraction rest : List Char}
    (h : readFraction fraction = (fraction, [])) (hdigit : ∀ c ∈ rest.head?, c.isDigit = false)
    (hpoint : ∀ c ∈ rest.head?, c ≠ '.') : readFraction (fraction ++ rest) = (fraction, rest) := by
  rw [readFraction.eq_def] at h
  split at h
  · rename_i c digits
    split at h
    · rename_i hc
      have htake : digits.takeWhile Char.isDigit = digits :=
        (List.cons.inj (List.cons.inj (Prod.mk.inj h).1).2).2
      obtain ⟨htake', hdrop⟩ := takeWhile_digits (List.takeWhile_eq_self_iff.mp htake) hdigit
      rw [List.cons_append, List.cons_append, readFraction, if_pos hc, htake', hdrop]
    · cases (Prod.mk.inj h).1
  · obtain rfl := (Prod.mk.inj h).1
    exact readFraction_of_stops hpoint

theorem readSign_append {text rest : List Char} (htext : text ≠ []) :
    readSign (text ++ rest) = ((readSign text).1, (readSign text).2 ++ rest) := by
  cases text with
  | nil => exact absurd rfl htext
  | cons c text =>
    rw [List.cons_append, readSign.eq_def, readSign.eq_def]
    split
    · rename_i heq
      obtain ⟨rfl, rfl⟩ := List.cons.inj heq
      rfl
    · rename_i heq
      obtain ⟨rfl, rfl⟩ := List.cons.inj heq
      rfl
    · rename_i hplus hminus
      split
      · rename_i heq
        obtain ⟨rfl, rfl⟩ := List.cons.inj heq
        exact absurd rfl (hplus _)
      · rename_i heq
        obtain ⟨rfl, rfl⟩ := List.cons.inj heq
        exact absurd rfl (hminus _)
      · rfl

theorem readExponent_append {exponent rest : List Char}
    (h : readExponent exponent = (exponent, [])) (hrest : Stops rest) :
    readExponent (exponent ++ rest) = (exponent, rest) := by
  cases exponent with
  | nil => exact readExponent_of_stops fun c hc => (hrest.not_mark c hc).2
  | cons c text =>
    rw [readExponent] at h
    dsimp only at h
    split at h
    · rename_i hdigits
      obtain ⟨hmark, hne⟩ := hdigits
      have htext : text ≠ [] := by
        rintro rfl
        exact hne rfl
      have hall : ∀ d ∈ (readSign text).2, d.isDigit = true :=
        List.dropWhile_eq_nil_iff.mp (Prod.mk.inj h).2
      obtain ⟨htake, hdrop⟩ := takeWhile_digits hall hrest.not_digit
      have hself := List.takeWhile_eq_self_iff.mpr hall
      have hbody := (List.cons.inj (Prod.mk.inj h).1).2
      rw [hself] at hne hbody
      rw [List.cons_append, readExponent, readSign_append htext]
      simp only [htake, hdrop, hbody]
      exact if_pos ⟨hmark, hne⟩
    · cases (Prod.mk.inj h).1

section Numbers

variable [JsonFloat F] {rest : List Char}

/-- An integer is read back, if it has not too many digits. -/
theorem readNumber_intText {i : ℤ} (hdigits : (Nat.toDigits 10 i.natAbs).length ≤ maxStrDigits)
    (hrest : Stops rest) : readNumber (F := F) (intText i ++ rest) = .ok (.int i, rest) := by
  have hmark := hrest.not_mark
  rw [readNumber, readInteger_append (readInteger_intText i) hrest.not_digit]
  simp only [readFraction_of_stops fun c hc => (hmark c hc).1,
    readExponent_of_stops fun c hc => (hmark c hc).2, and_self, if_true, digitsOf_intText,
    if_neg (Nat.not_lt.mpr hdigits), intOf_intText]

/-- The text of a float that is no constant is read back. -/
theorem readNumber_floatToken {token : List Char} (htoken : IsFloatToken token)
    (hrest : Stops rest) : ∃ integer more, readInteger (token ++ rest) = some (integer, more) ∧
      readNumber (F := F) (token ++ rest) = .ok (.float (JsonFloat.ofToken token), rest) := by
  obtain ⟨integer, fraction, exponent, rfl, hinteger, hfraction, hexponent, hne⟩ := htoken
  have hexponentRest := readExponent_append hexponent hrest
  -- an exponent begins with its letter
  have hletter : ∀ c ∈ (exponent ++ rest).head?, c.isDigit = false ∧ c ≠ '.' := by
    intro c hc
    cases exponent with
    | nil => exact ⟨hrest.not_digit c hc, (hrest.not_mark c hc).1⟩
    | cons d exponent =>
      obtain rfl : d = c := Option.some.inj hc
      rw [readExponent] at hexponent
      dsimp only at hexponent
      split at hexponent
      · rename_i hdigits
        rcases hdigits.1 with rfl | rfl <;> decide
      · cases (Prod.mk.inj hexponent).1
  have hfractionRest := readFraction_append hfraction (fun c hc => (hletter c hc).1)
    fun c hc => (hletter c hc).2
  have hpoint : ∀ c ∈ (fraction ++ (exponent ++ rest)).head?, c.isDigit = false := by
    intro c hc
    cases fraction with
    | nil => exact (hletter c hc).1
    | cons d fraction =>
      obtain rfl : d = c := Option.some.inj hc
      rw [readFraction.eq_def] at hfraction
      split at hfraction
      · rename_i heq
        obtain rfl := (List.cons.inj heq).1
        decide
      · cases (Prod.mk.inj hfraction).1
  have hread := readInteger_append hinteger hpoint
  rw [List.append_assoc, List.append_assoc]
  refine ⟨_, _, hread, ?_⟩
  rw [readNumber, hread]
  simp only [hfractionRest, hexponentRest, if_neg hne, List.append_assoc]

end Numbers

/-! ## Values are read back -/

section Values

variable [JsonFloat F]

/-- The text begins with a character that ends neither whitespace nor a list. -/
def Begins (text : List Char) : Prop := ∃ c cs, text = c :: cs ∧ isJsonSpace c = false ∧ c ≠ ']'

theorem Begins.append {text : List Char} (h : Begins text) (rest : List Char) :
    Begins (text ++ rest) := by
  obtain ⟨c, cs, rfl, hc⟩ := h
  exact ⟨c, cs ++ rest, rfl, hc⟩

theorem Begins.ne_nil {text : List Char} (h : Begins text) : text ≠ [] := by
  obtain ⟨c, cs, rfl, -⟩ := h
  exact List.cons_ne_nil c cs

theorem Begins.skipSpace {text : List Char} (h : Begins text) : skipSpace text = text := by
  obtain ⟨c, cs, rfl, hspace, -⟩ := h
  exact skipSpace_of_head hspace

/-- A line break and its indentation are skipped. -/
theorem skipSpace_newline (level : ℕ) (text : List Char) :
    skipSpace (newline level ++ text) = skipSpace text := by
  refine skipSpace_spaces (fun c hc => ?_) text
  rcases List.mem_cons.mp hc with rfl | hc
  · rfl
  · rw [List.eq_of_mem_replicate hc]
    rfl

theorem stops_newline (level : ℕ) (text : List Char) : Stops (newline level ++ text) := by
  intro c hc
  obtain rfl : '\n' = c := Option.some.inj hc
  decide

theorem stops_comma (text : List Char) : Stops (',' :: text) := by
  intro c hc
  obtain rfl : ',' = c := Option.some.inj hc
  decide

theorem begins_of_readInteger {text token rest : List Char}
    (h : readInteger text = some (token, rest)) : Begins text := by
  have hdigit : ∀ c : Char, c.isDigit = true → isJsonSpace c = false ∧ c ≠ ']' := by
    intro c hc
    exact isTokenChar_ne (by simp [isTokenChar, Char.isAlphanum, hc])
  rw [readInteger.eq_def] at h
  split at h
  · exact ⟨_, _, rfl, by decide, by decide⟩
  · obtain ⟨c, more, rfl, hc⟩ := head_readUnsigned h
    exact ⟨c, more, rfl, hdigit c hc⟩

theorem begins_brackets {opening : Char} (closing : Char) (level : ℕ) (body : List Char)
    (hspace : isJsonSpace opening = false) (hopening : opening ≠ ']') :
    Begins (brackets opening closing level body) := by
  rw [brackets]
  split
  · exact ⟨_, _, rfl, hspace, hopening⟩
  · exact ⟨_, _, rfl, hspace, hopening⟩

theorem begins_floatText (f : F) : Begins (JsonFloat.text f) := by
  rcases JsonFloat.text_cases f with ⟨h, -⟩ | ⟨h, -⟩ | ⟨h, -⟩ | ⟨htoken, -⟩
  · rw [h]
    exact ⟨_, _, rfl, by decide, by decide⟩
  · rw [h]
    exact ⟨_, _, rfl, by decide, by decide⟩
  · rw [h]
    exact ⟨_, _, rfl, by decide, by decide⟩
  · obtain ⟨integer, fraction, exponent, heq, hinteger, -⟩ := htoken
    rw [heq, List.append_assoc]
    exact (begins_of_readInteger hinteger).append _

theorem begins_writeValue (level : ℕ) (value : JsonData F) : Begins (writeValue level value) := by
  cases value with
  | null => exact ⟨_, _, by rw [writeValue]; rfl, by decide, by decide⟩
  | bool b =>
    cases b
    · exact ⟨_, _, by rw [writeValue]; rfl, by decide, by decide⟩
    · exact ⟨_, _, by rw [writeValue]; rfl, by decide, by decide⟩
  | int i =>
    rw [writeValue]
    exact begins_of_readInteger (readInteger_intText i)
  | float f =>
    rw [writeValue]
    exact begins_floatText f
  | str s =>
    rw [writeValue]
    exact ⟨_, _, rfl, by decide, by decide⟩
  | list items =>
    rw [writeValue]
    exact begins_brackets _ _ _ (by decide) (by decide)
  | dict keys values =>
    rw [writeValue]
    exact begins_brackets _ _ _ (by decide) (by decide)

theorem begins_writeItems (level : ℕ) (item : JsonData F) (items : List (JsonData F)) :
    Begins (writeItems level (item :: items)) := by
  cases items with
  | nil =>
    rw [writeItems]
    exact begins_writeValue level item
  | cons item' items =>
    rw [writeItems]
    exact (begins_writeValue level item).append _

/-- The entries of a dict begin with a quote. -/
theorem head_writeEntries (level : ℕ) (key : JsonString) (keys : List JsonString)
    (value : JsonData F) (values : List (JsonData F)) :
    ∃ cs, writeEntries level (key :: keys) (value :: values) = '"' :: cs := by
  cases values with
  | nil => exact ⟨_, by rw [writeEntries, stringText, List.cons_append]⟩
  | cons value' values => exact ⟨_, by rw [writeEntries, stringText, List.cons_append]⟩

variable {fuel depth : ℕ} {rest : List Char}

/-- A text of none of the characters that begin strings, lists and dicts is a constant or a
number. -/
theorem readValue_scalar {text : List Char} (hne : text ≠ [])
    (h : ∀ c ∈ text.head?, c ≠ '"' ∧ c ≠ '[' ∧ c ≠ '\x7b') :
    Decoder.readValue (F := F) (fuel + 1) depth text = match readConstant text with
      | some result => .ok result
      | none => readNumber text := by
  cases text with
  | nil => exact absurd rfl hne
  | cons c text =>
    obtain ⟨hquote, hbracket, hbrace⟩ := h c rfl
    rw [Decoder.readValue.eq_def]
    simp only [hquote, hbracket, hbrace, if_false]
    all_goals rfl

theorem readConstant_append {constant : List Char} {value : JsonData F}
    (h : (constant, value) ∈ constants) (rest : List Char) :
    readConstant (constant ++ rest) = some (value, rest) := by
  simp only [constants, List.mem_cons, Prod.mk.injEq, List.not_mem_nil, or_false] at h
  rcases h with ⟨rfl, rfl⟩ | ⟨rfl, rfl⟩ | ⟨rfl, rfl⟩ | ⟨rfl, rfl⟩ | ⟨rfl, rfl⟩ | ⟨rfl, rfl⟩
  all_goals rfl

/-- A constant is read back. -/
theorem readValue_constant {constant : List Char} {value : JsonData F}
    (h : (constant, value) ∈ constants) (rest : List Char) :
    Decoder.readValue (fuel + 1) depth (constant ++ rest) = .ok (value, rest) := by
  have hhead : ∀ c ∈ (constant ++ rest).head?, c ≠ '"' ∧ c ≠ '[' ∧ c ≠ '\x7b' := by
    simp only [constants, List.mem_cons, Prod.mk.injEq, List.not_mem_nil, or_false] at h
    rcases h with ⟨rfl, -⟩ | ⟨rfl, -⟩ | ⟨rfl, -⟩ | ⟨rfl, -⟩ | ⟨rfl, -⟩ | ⟨rfl, -⟩
    all_goals
      intro c hc
      obtain rfl := Option.some.inj hc
      decide
  have hread := readConstant_append h rest
  have hne : constant ++ rest ≠ [] := by
    intro hnil
    rw [hnil] at hread
    cases hread
  rw [readValue_scalar hne hhead, hread]

/-- A number is read back. -/
theorem readValue_number {text token more : List Char} (h : readInteger text = some (token, more)) :
    Decoder.readValue (F := F) (fuel + 1) depth text = readNumber text := by
  have hhead : ∀ c ∈ text.head?, c ≠ '"' ∧ c ≠ '[' ∧ c ≠ '\x7b' := by
    intro c hc
    rw [readInteger.eq_def] at h
    split at h
    · obtain rfl := Option.some.inj hc
      decide
    · obtain ⟨d, more, rfl, hdigit⟩ := head_readUnsigned h
      obtain rfl := Option.some.inj hc
      refine ⟨?_, ?_, ?_⟩
      all_goals
        rintro rfl
        exact absurd hdigit (by decide)
  rw [readValue_scalar (begins_of_readInteger h).ne_nil hhead, readConstant_eq_none h]

/-- What is read to a depth, of a text that is nested as deep as needed. -/
def atDepth {α : Type} (needed depth : ℕ) (result : α) : Except Failure α :=
  if needed ≤ depth then .ok result else .error .recursionError

theorem readValue_str (s : JsonString) (rest : List Char) :
    Decoder.readValue (F := F) (fuel + 1) depth (stringText s ++ rest) = .ok (.str s, rest) := by
  have htext : stringText s ++ rest = '"' :: (s.flatMap escapeUnit ++ '"' :: rest) := by
    rw [stringText, List.cons_append, List.append_assoc, List.singleton_append]
  rw [htext, Decoder.readValue.eq_def]
  simp only [if_true, scanString_flatMap]

theorem readValue_float (f : F) (hrest : Stops rest) :
    Decoder.readValue (fuel + 1) depth (JsonFloat.text f ++ rest) = .ok (.float f, rest) := by
  rcases JsonFloat.text_cases f with ⟨h, rfl⟩ | ⟨h, rfl⟩ | ⟨h, rfl⟩ | ⟨htoken, hvalue⟩
  · rw [h]
    exact readValue_constant (by simp [constants]) rest
  · rw [h]
    exact readValue_constant (by simp [constants]) rest
  · rw [h]
    exact readValue_constant (by simp [constants]) rest
  · obtain ⟨integer, more, hinteger, hread⟩ := readNumber_floatToken (F := F) htoken hrest
    rw [readValue_number hinteger, hread, hvalue]

/-- Only a list that may be entered is read, by its items. -/
theorem readValue_list {text : List Char} (hbegins : Begins text) (level : ℕ)
    {items : List (JsonData F)}
    (hitems : ∀ depth, Decoder.readItems fuel depth text =
      atDepth (depthAll items) depth (items, rest)) :
    Decoder.readValue (fuel + 1) depth ('[' :: (newline level ++ text)) =
      atDepth (JsonData.list items).depth depth (.list items, rest) := by
  rw [Decoder.readValue.eq_def, JsonData.depth]
  simp only [Char.reduceEq, if_false, if_true, skipSpace_newline, hbegins.skipSpace]
  cases depth with
  | zero => rfl
  | succ depth =>
    obtain ⟨c, cs, rfl, -, hbracket⟩ := hbegins
    dsimp only
    split
    · rename_i heq
      exact absurd (List.cons.inj heq).1 hbracket
    · rw [hitems, atDepth, atDepth]
      simp only [Nat.add_le_add_iff_right]
      split <;> rfl

/-- Only a dict that may be entered is read, by its entries. -/
theorem readValue_dict {cs : List Char} (level : ℕ) {keys : List JsonString}
    {values : List (JsonData F)} (hnodup : keys.Nodup) (hlength : keys.length = values.length)
    (hentries : ∀ depth, Decoder.readEntries fuel depth ('"' :: cs) =
      atDepth (depthAll values) depth (keys.zip values, rest)) :
    Decoder.readValue (fuel + 1) depth ('\x7b' :: (newline level ++ '"' :: cs)) =
      atDepth (JsonData.dict keys values).depth depth (.dict keys values, rest) := by
  have hfst : (keys.zip values).map Prod.fst = keys := List.map_fst_zip hlength.le
  have hsnd : (keys.zip values).map Prod.snd = values := List.map_snd_zip hlength.ge
  have hdict : ofDict (Dict.ofList (keys.zip values)) = .dict keys values := by
    rw [ofDict, Dict.keys, Dict.entries_ofList (by rwa [hfst]), hfst, hsnd]
  rw [Decoder.readValue.eq_def, JsonData.depth]
  simp only [Char.reduceEq, if_false, if_true, skipSpace_newline,
    skipSpace_of_head (show isJsonSpace '"' = false by decide)]
  cases depth with
  | zero => rfl
  | succ depth =>
    dsimp only
    split
    · rename_i heq
      exact absurd (List.cons.inj heq).1 (by decide)
    · rw [hentries, atDepth, atDepth]
      simp only [Nat.add_le_add_iff_right]
      split
      · exact congrArg (fun value => Except.ok (value, rest)) hdict
      · rfl

theorem readItems_last {text : List Char} {level : ℕ} {item : JsonData F}
    (hitem : Decoder.readValue fuel depth text =
      atDepth item.depth depth (item, newline level ++ ']' :: rest)) :
    Decoder.readItems (fuel + 1) depth text = atDepth (depthAll [item]) depth ([item], rest) := by
  rw [Decoder.readItems, hitem, depthAll, depthAll, Nat.max_zero]
  by_cases hdepth : item.depth ≤ depth
  · simp only [atDepth, hdepth, if_true, skipSpace_newline,
      skipSpace_of_head (show isJsonSpace ']' = false by decide)]
  · simp only [atDepth, hdepth, if_false]

theorem readItems_cons {text text' : List Char} {level : ℕ} {item : JsonData F}
    {items : List (JsonData F)} (hbegins : Begins text')
    (hitem : Decoder.readValue fuel depth text =
      atDepth item.depth depth (item, ',' :: (newline level ++ text')))
    (hitems : Decoder.readItems fuel depth text' = atDepth (depthAll items) depth (items, rest)) :
    Decoder.readItems (fuel + 1) depth text =
      atDepth (depthAll (item :: items)) depth (item :: items, rest) := by
  rw [Decoder.readItems, hitem, depthAll]
  by_cases hdepth : item.depth ≤ depth
  · simp only [atDepth, max_le_iff, hdepth, true_and, if_true, skipSpace_newline,
      skipSpace_of_head (show isJsonSpace ',' = false by decide), hbegins.skipSpace, hitems]
    split <;> rfl
  · simp only [atDepth, max_le_iff, hdepth, false_and, if_false]

/-- A key is read with its colon. -/
theorem readKey_stringText (key : JsonString) {text : List Char} (hbegins : Begins text) :
    Decoder.readKey (stringText key ++ ':' :: ' ' :: text) = some (key, text) := by
  have htext : stringText key ++ ':' :: ' ' :: text =
      '"' :: (key.flatMap escapeUnit ++ '"' :: ':' :: ' ' :: text) := by
    rw [stringText, List.cons_append, List.append_assoc, List.singleton_append]
  have hskip : skipSpace (' ' :: text) = text :=
    (skipSpace_spaces (show ∀ c ∈ [' '], isJsonSpace c = true from List.all_eq_true.mp rfl)
      text).trans hbegins.skipSpace
  rw [htext, Decoder.readKey, scanString_flatMap]
  simp only [skipSpace_of_head (show isJsonSpace ':' = false by decide), hskip]

theorem readEntries_last {text text' : List Char} {level : ℕ} {key : JsonString}
    {value : JsonData F} (hkey : Decoder.readKey text = some (key, text'))
    (hvalue : Decoder.readValue fuel depth text' =
      atDepth value.depth depth (value, newline level ++ '\x7d' :: rest)) :
    Decoder.readEntries (fuel + 1) depth text =
      atDepth (depthAll [value]) depth ([(key, value)], rest) := by
  rw [Decoder.readEntries, hkey]
  dsimp only
  rw [hvalue, depthAll, depthAll, Nat.max_zero]
  by_cases hdepth : value.depth ≤ depth
  · simp only [atDepth, hdepth, if_true, skipSpace_newline,
      skipSpace_of_head (show isJsonSpace '\x7d' = false by decide)]
  · simp only [atDepth, hdepth, if_false]

theorem readEntries_cons {text text' text'' : List Char} {level : ℕ} {key : JsonString}
    {value : JsonData F} {values : List (JsonData F)} {entries : List (JsonString × JsonData F)}
    (hkey : Decoder.readKey text = some (key, text'))
    (hvalue : Decoder.readValue fuel depth text' =
      atDepth value.depth depth (value, ',' :: (newline level ++ text'')))
    (hskip : skipSpace text'' = text'')
    (hentries : Decoder.readEntries fuel depth text'' =
      atDepth (depthAll values) depth (entries, rest)) :
    Decoder.readEntries (fuel + 1) depth text =
      atDepth (depthAll (value :: values)) depth ((key, value) :: entries, rest) := by
  rw [Decoder.readEntries, hkey]
  dsimp only
  rw [hvalue, depthAll]
  by_cases hdepth : value.depth ≤ depth
  · simp only [atDepth, max_le_iff, hdepth, true_and, if_true, skipSpace_newline,
      skipSpace_of_head (show isJsonSpace ',' = false by decide), hskip, hentries]
    split <;> rfl
  · simp only [atDepth, max_le_iff, hdepth, false_and, if_false]

theorem length_newline_pos (level : ℕ) : 0 < (newline level).length := Nat.succ_pos _

/-- Brackets around items, each on a line of its own. -/
theorem brackets_append {opening closing : Char} {level : ℕ} {body : List Char} (hbody : body ≠ [])
    (rest : List Char) : brackets opening closing level body ++ rest =
      opening :: (newline (level + 1) ++ (body ++ (newline level ++ closing :: rest))) := by
  rw [brackets, if_neg hbody]
  simp

theorem length_brackets (opening closing : Char) (level : ℕ) {body : List Char}
    (hbody : body ≠ []) :
    body.length + 3 ≤ (brackets opening closing level body).length := by
  have hpos := length_newline_pos level
  rw [brackets, if_neg hbody]
  simp only [List.length_cons, List.length_append, List.length_nil]
  omega

mutual

/-- A value is read back, if it may be entered as deep as it is nested. -/
theorem readValue_writeValue (value : JsonData F) (hvalue : value.WellFormed)
    (hdigits : value.digitsFit maxStrDigits = true) (level : ℕ) {rest : List Char}
    (hrest : Stops rest) {fuel : ℕ} (hfuel : (writeValue level value).length ≤ fuel) (depth : ℕ) :
    Decoder.readValue fuel depth (writeValue level value ++ rest) =
      atDepth value.depth depth (value, rest) := by
  have hpos := List.length_pos_of_ne_nil (begins_writeValue level value).ne_nil
  obtain ⟨fuel, rfl⟩ : ∃ n, fuel = n + 1 := ⟨fuel - 1, by omega⟩
  cases value with
  | null =>
    rw [writeValue]
    exact readValue_constant (by simp [constants]) rest
  | bool b =>
    cases b
    · rw [writeValue]
      exact readValue_constant (by simp [constants]) rest
    · rw [writeValue]
      exact readValue_constant (by simp [constants]) rest
  | int i =>
    have hinteger := readInteger_append (readInteger_intText i) hrest.not_digit
    have hlength : (Nat.toDigits 10 i.natAbs).length ≤ maxStrDigits := of_decide_eq_true hdigits
    rw [writeValue, readValue_number hinteger, readNumber_intText hlength hrest]
    rfl
  | float f =>
    rw [writeValue]
    exact readValue_float f hrest
  | str s =>
    rw [writeValue]
    exact readValue_str s rest
  | list items =>
    rw [writeValue] at hfuel ⊢
    by_cases hne : items = []
    · subst hne
      cases depth <;> rfl
    · obtain ⟨item, items', rfl⟩ := List.exists_cons_of_ne_nil hne
      have hbegins := begins_writeItems (level + 1) item items'
      have hlength := length_brackets '[' ']' level hbegins.ne_nil
      rw [brackets_append hbegins.ne_nil]
      exact readValue_list (hbegins.append _) _ fun depth =>
        readItems_writeItems (item :: items') hne hvalue hdigits level rest (by omega) depth
  | dict keys values =>
    obtain ⟨hnodup, hkeys, hvalues⟩ := hvalue
    rw [writeValue] at hfuel ⊢
    by_cases hne : values = []
    · subst hne
      obtain rfl := List.length_eq_zero_iff.mp hkeys
      cases depth <;> rfl
    · obtain ⟨value, values', rfl⟩ := List.exists_cons_of_ne_nil hne
      obtain ⟨key, keys', rfl⟩ := List.exists_cons_of_length_eq_add_one hkeys
      obtain ⟨cs, hcs⟩ := head_writeEntries (level + 1) key keys' value values'
      have hbody : writeEntries (level + 1) (key :: keys') (value :: values') ≠ [] := by
        rw [hcs]
        exact List.cons_ne_nil _ _
      have hlength := length_brackets '\x7b' '\x7d' level hbody
      have hentries (depth : ℕ) := readEntries_writeEntries (key :: keys') (value :: values') hne
        hkeys hvalues hdigits level rest (show _ ≤ fuel by omega) depth
      rw [brackets_append hbody, hcs]
      rw [hcs] at hentries
      exact readValue_dict _ hnodup hkeys hentries
termination_by sizeOf value

/-- Items are read back up to the bracket. -/
theorem readItems_writeItems (items : List (JsonData F)) (hne : items ≠ [])
    (hitems : AllWellFormed items) (hdigits : allDigitsFit maxStrDigits items = true) (level : ℕ)
    (rest : List Char) {fuel : ℕ} (hfuel : (writeItems (level + 1) items).length + 1 ≤ fuel)
    (depth : ℕ) :
    Decoder.readItems fuel depth
        (writeItems (level + 1) items ++ (newline level ++ ']' :: rest)) =
      atDepth (depthAll items) depth (items, rest) := by
  obtain ⟨fuel, rfl⟩ : ∃ n, fuel = n + 1 := ⟨fuel - 1, by omega⟩
  cases items with
  | nil => exact absurd rfl hne
  | cons item items =>
    obtain ⟨hdigit, hdigits⟩ := (Bool.and_eq_true _ _).mp hdigits
    by_cases hnil : items = []
    · subst hnil
      rw [writeItems] at hfuel ⊢
      exact readItems_last (readValue_writeValue item hitems.1 hdigit _ (stops_newline _ _)
        (by omega) depth)
    · have hlater (hle : (writeItems (level + 1) items).length + 1 ≤ fuel) :=
        readItems_writeItems items hnil hitems.2 hdigits level rest hle depth
      have hitem (text : List Char) (hle : (writeValue (level + 1) item).length ≤ fuel) :=
        readValue_writeValue item hitems.1 hdigit (level + 1) (stops_comma text) hle depth
      obtain ⟨item', items', rfl⟩ := List.exists_cons_of_ne_nil hnil
      rw [writeItems] at hfuel ⊢
      simp only [List.length_append, List.length_cons] at hfuel
      rw [List.append_assoc, List.cons_append, List.append_assoc]
      exact readItems_cons ((begins_writeItems _ item' items').append _)
        (hitem _ (by omega)) (hlater (by omega))
termination_by sizeOf items

/-- Entries are read back up to the brace. -/
theorem readEntries_writeEntries (keys : List JsonString) (values : List (JsonData F))
    (hne : values ≠ []) (hkeys : keys.length = values.length) (hvalues : AllWellFormed values)
    (hdigits : allDigitsFit maxStrDigits values = true) (level : ℕ) (rest : List Char) {fuel : ℕ}
    (hfuel : (writeEntries (level + 1) keys values).length + 1 ≤ fuel) (depth : ℕ) :
    Decoder.readEntries fuel depth
        (writeEntries (level + 1) keys values ++ (newline level ++ '\x7d' :: rest)) =
      atDepth (depthAll values) depth (keys.zip values, rest) := by
  obtain ⟨fuel, rfl⟩ : ∃ n, fuel = n + 1 := ⟨fuel - 1, by omega⟩
  cases values with
  | nil => exact absurd rfl hne
  | cons value values =>
    obtain ⟨key, keys, rfl⟩ := List.exists_cons_of_length_eq_add_one hkeys
    obtain ⟨hdigit, hdigits⟩ := (Bool.and_eq_true _ _).mp hdigits
    have hkey (rest : List Char) :=
      readKey_stringText key ((begins_writeValue (level + 1) value).append rest)
    by_cases hnil : values = []
    · subst hnil
      obtain rfl := List.length_eq_zero_iff.mp (Nat.succ.inj hkeys)
      rw [writeEntries] at hfuel ⊢
      simp only [List.length_append, List.length_cons] at hfuel
      rw [List.append_assoc, List.cons_append, List.cons_append]
      exact readEntries_last (hkey _) (readValue_writeValue value hvalues.1 hdigit _
        (stops_newline _ _) (by omega) depth)
    · have hlater (hle : (writeEntries (level + 1) keys values).length + 1 ≤ fuel) :=
        readEntries_writeEntries keys values hnil (Nat.succ.inj hkeys) hvalues.2 hdigits level rest
          hle depth
      have hvalue (text : List Char) (hle : (writeValue (level + 1) value).length ≤ fuel) :=
        readValue_writeValue value hvalues.1 hdigit (level + 1) (stops_comma text) hle depth
      obtain ⟨value', values', rfl⟩ := List.exists_cons_of_ne_nil hnil
      obtain ⟨key', keys', rfl⟩ := List.exists_cons_of_length_eq_add_one (Nat.succ.inj hkeys)
      obtain ⟨cs, hcs⟩ := head_writeEntries (level + 1) key' keys' value' values'
      have hskip : skipSpace (writeEntries (level + 1) (key' :: keys') (value' :: values') ++
          (newline level ++ '\x7d' :: rest)) =
          writeEntries (level + 1) (key' :: keys') (value' :: values') ++
            (newline level ++ '\x7d' :: rest) := by
        rw [hcs]
        exact skipSpace_of_head (by decide)
      rw [writeEntries] at hfuel ⊢
      simp only [List.length_append, List.length_cons] at hfuel
      rw [List.append_assoc, List.cons_append, List.cons_append, List.append_assoc,
        List.cons_append, List.append_assoc]
      exact readEntries_cons (hkey _) (hvalue _ (by omega)) hskip (hlater (by omega))
termination_by sizeOf values

end

/-- What is written for a value is read back, if the limit allows its depth. -/
theorem loads_writeValue {value : JsonData F} (hvalue : value.WellFormed)
    (hdigits : value.digitsFit maxStrDigits = true) (limit : ℕ) :
    Decoder.loads limit (writeValue 0 value ++ ['\n']) = atDepth value.depth limit value := by
  have hbegins := (begins_writeValue 0 value).append ['\n']
  have hstops : Stops ['\n'] := stops_newline 0 []
  rw [Decoder.loads, hbegins.skipSpace, readValue_writeValue value hvalue hdigits 0 hstops (by
    rw [List.length_append]
    omega)]
  by_cases hdepth : value.depth ≤ limit
  · simp only [atDepth, hdepth, if_true, show skipSpace ['\n'] = [] from rfl]
  · simp only [atDepth, hdepth, if_false]

/-! ## No carriage return is written -/

theorem notMem_of_isTokenChar {text : List Char} (h : ∀ c ∈ text, isTokenChar c = true) :
    '\r' ∉ text := by
  intro hmem
  exact absurd (h _ hmem) (by decide)

theorem notMem_escapeUnit (u : UInt16) : '\r' ∉ escapeUnit u := by
  have hsmall : ∀ n : Fin 0x80, '\r' ∉ escape (Char.ofNat n) := by decide
  have hdigit : ∀ k : Fin 16, '\r' ≠ hexDigit k := by decide
  rw [escapeUnit]
  split
  · rename_i hlt
    exact hsmall ⟨u.toNat, hlt⟩
  · have hhex (n : ℕ) : '\r' ≠ hexDigit (n % 16) := hdigit ⟨n % 16, Nat.mod_lt _ (by decide)⟩
    simp [hexText, hhex]

theorem notMem_stringText (s : JsonString) : '\r' ∉ stringText s := by
  have hbody : '\r' ∉ s.flatMap escapeUnit := by
    intro hmem
    obtain ⟨u, -, hu⟩ := List.mem_flatMap.mp hmem
    exact notMem_escapeUnit u hu
  simp [stringText, hbody]

theorem digits_readUnsigned {text token rest : List Char}
    (h : readUnsigned text = some (token, rest)) : ∀ c ∈ token, c.isDigit = true := by
  cases text with
  | nil => cases h
  | cons c text =>
    rw [readUnsigned] at h
    split at h
    · rename_i hzero
      obtain ⟨rfl, -⟩ := Prod.mk.inj (Option.some.inj h)
      simp [hzero]
    · split at h
      · rename_i hdigit
        obtain ⟨rfl, -⟩ := Prod.mk.inj (Option.some.inj h)
        exact List.forall_mem_cons.mpr ⟨hdigit, fun d hd => List.mem_takeWhile_imp hd⟩
      · cases h

theorem isTokenChar_of_isDigit {c : Char} (h : c.isDigit = true) : isTokenChar c = true := by
  simp [isTokenChar, Char.isAlphanum, h]

theorem isTokenChar_readInteger {text token rest : List Char}
    (h : readInteger text = some (token, rest)) : ∀ c ∈ token, isTokenChar c = true := by
  rw [readInteger.eq_def] at h
  split at h
  · obtain ⟨⟨token', rest'⟩, hread, heq⟩ := Option.map_eq_some_iff.mp h
    obtain ⟨rfl, -⟩ := Prod.mk.inj heq
    exact List.forall_mem_cons.mpr
      ⟨by decide, fun c hc => isTokenChar_of_isDigit (digits_readUnsigned hread c hc)⟩
  · exact fun c hc => isTokenChar_of_isDigit (digits_readUnsigned h c hc)

theorem isTokenChar_readFraction (text : List Char) :
    ∀ c ∈ (readFraction text).1, isTokenChar c = true := by
  rw [readFraction.eq_def]
  split
  · split
    · rename_i hdigit
      refine List.forall_mem_cons.mpr ⟨by decide, List.forall_mem_cons.mpr
        ⟨isTokenChar_of_isDigit hdigit, fun d hd => ?_⟩⟩
      exact isTokenChar_of_isDigit (List.mem_takeWhile_imp hd)
    · exact fun c hc => absurd hc List.not_mem_nil
  · exact fun c hc => absurd hc List.not_mem_nil

theorem isTokenChar_readSign (text : List Char) :
    ∀ c ∈ (readSign text).1, isTokenChar c = true := by
  rw [readSign.eq_def]
  split <;> simp [isTokenChar]

theorem isTokenChar_readExponent (text : List Char) :
    ∀ c ∈ (readExponent text).1, isTokenChar c = true := by
  cases text with
  | nil => exact fun c hc => absurd hc List.not_mem_nil
  | cons c text =>
    rw [readExponent]
    dsimp only
    split
    · rename_i hdigits
      have hmark : isTokenChar c = true := by rcases hdigits.1 with rfl | rfl <;> decide
      refine List.forall_mem_cons.mpr ⟨hmark, fun d hd => ?_⟩
      rcases List.mem_append.mp hd with hd | hd
      · exact isTokenChar_readSign text d hd
      · exact isTokenChar_of_isDigit (List.mem_takeWhile_imp hd)
    · exact fun c hc => absurd hc List.not_mem_nil

theorem isTokenChar_floatText (f : F) : ∀ c ∈ JsonFloat.text f, isTokenChar c = true := by
  rcases JsonFloat.text_cases f with ⟨h, -⟩ | ⟨h, -⟩ | ⟨h, -⟩ | ⟨htoken, -⟩
  · rw [h]
    exact List.all_eq_true.mp rfl
  · rw [h]
    exact List.all_eq_true.mp rfl
  · rw [h]
    exact List.all_eq_true.mp rfl
  · obtain ⟨integer, fraction, exponent, heq, hinteger, hfraction, hexponent, -⟩ := htoken
    have hchars := isTokenChar_readFraction fraction
    have hchars' := isTokenChar_readExponent exponent
    rw [hfraction] at hchars
    rw [hexponent] at hchars'
    intro c hc
    rw [heq] at hc
    rcases List.mem_append.mp hc with hc | hc
    · rcases List.mem_append.mp hc with hc | hc
      · exact isTokenChar_readInteger hinteger c hc
      · exact hchars c hc
    · exact hchars' c hc

theorem notMem_newline (level : ℕ) : '\r' ∉ newline level := by
  simp [newline, List.mem_replicate]

theorem notMem_brackets {opening closing : Char} {level : ℕ} {body : List Char}
    (hopening : '\r' ≠ opening) (hclosing : '\r' ≠ closing) (hbody : '\r' ∉ body) :
    '\r' ∉ brackets opening closing level body := by
  rw [brackets]
  split
  · simp [hopening, hclosing]
  · simp [hopening, hclosing, hbody, notMem_newline]

mutual

/-- No carriage return is written for a value. -/
theorem notMem_writeValue (level : ℕ) (value : JsonData F) : '\r' ∉ writeValue level value := by
  cases value with
  | null =>
    rw [writeValue]
    decide
  | bool b =>
    cases b
    · rw [writeValue]
      decide
    · rw [writeValue]
      decide
  | int i =>
    rw [writeValue]
    exact notMem_of_isTokenChar fun c hc => isTokenChar_of_mem_intText hc
  | float f =>
    rw [writeValue]
    exact notMem_of_isTokenChar (isTokenChar_floatText f)
  | str s =>
    rw [writeValue]
    exact notMem_stringText s
  | list items =>
    rw [writeValue]
    exact notMem_brackets (by decide) (by decide) (notMem_writeItems (level + 1) items)
  | dict keys values =>
    rw [writeValue]
    exact notMem_brackets (by decide) (by decide) (notMem_writeEntries (level + 1) keys values)
termination_by sizeOf value

theorem notMem_writeItems (level : ℕ) (items : List (JsonData F)) :
    '\r' ∉ writeItems level items := by
  cases items with
  | nil => exact List.not_mem_nil
  | cons item items =>
    have hitem := notMem_writeValue level item
    have hitems := notMem_writeItems level items
    cases items with
    | nil => rwa [writeItems]
    | cons item' items =>
      rw [writeItems]
      simp [hitem, hitems, notMem_newline]
termination_by sizeOf items

theorem notMem_writeEntries (level : ℕ) (keys : List JsonString) (values : List (JsonData F)) :
    '\r' ∉ writeEntries level keys values := by
  cases values with
  | nil =>
    rw [writeEntries.eq_def]
    simp
  | cons value values =>
    have hvalue := notMem_writeValue level value
    cases keys with
    | nil =>
      rw [writeEntries.eq_def]
      simp
    | cons key keys =>
      have hentries := notMem_writeEntries level keys values
      cases values with
      | nil =>
        rw [writeEntries]
        simp [notMem_stringText, hvalue]
      | cons value' values =>
        rw [writeEntries]
        simp [notMem_stringText, hvalue, hentries, notMem_newline]
termination_by sizeOf values

end

end Values

end RelyLoop.Python.Encoder
