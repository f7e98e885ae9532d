import RelyLoop.Python.Base64
import Mathlib.Algebra.Order.Ring.Int

/-!
# `json`

`dumps` writes ASCII texts, and `loads` reads the texts of the grammar. A text that
`dumps` has written for a list of scalars is read back, with the compact separators as
well. How `float` is written is a parameter.
-/

namespace RelyLoop.Python

/-- What `loads` returns. -/
inductive Json (F : Type) where
  | null
  | bool (b : Bool)
  | int (i : ℤ)
  | float (f : F)
  | str (s : String)
  | list (items : List (Json F))
  | dict (keys : List String) (values : List (Json F))

/-- `d.get(key)` of an object; other values have no keys. -/
def Json.get? {F : Type} (key : String) : Json F → Option (Json F)
  | .dict keys values => (keys.zip values).lookup key
  | _ => none

/-! ## Numbers and constants -/

/-- `int.__repr__`. -/
def intText (i : ℤ) : List Char :=
  if i < 0 then '-' :: Nat.toDigits 10 i.natAbs else Nat.toDigits 10 i.natAbs

/-- A numeral without leading zeros. -/
def readNumeral (digits : List Char) : Option ℕ :=
  let n := Nat.ofDigitChars 10 digits 0
  if Nat.toDigits 10 n = digits then some n else none

/-- A number without fraction and exponent. -/
def readIntToken : List Char → Option ℤ
  | '-' :: digits => (readNumeral digits).map fun n : ℕ => -(n : ℤ)
  | digits => (readNumeral digits).map fun n : ℕ => (n : ℤ)

/-- The characters of numbers and constants. -/
def isTokenChar (c : Char) : Bool := c.isAlphanum || c == '+' || c == '-' || c == '.'

/-- A constant or an integer. -/
def readPlainToken {F : Type} (token : List Char) : Option (Json F) :=
  if token = "null".toList then some .null
  else if token = "true".toList then some (.bool true)
  else if token = "false".toList then some (.bool false)
  else (readIntToken token).map .int

/-- `float`, with its texts: the shortest one that is read back, or `NaN`, `Infinity` and
`-Infinity`. -/
class PyFloat (F : Type) where
  text : F → List Char
  read : List Char → Option F
  text_ne_nil : ∀ f, text f ≠ []
  isTokenChar_of_mem : ∀ f, ∀ c ∈ text f, isTokenChar c = true
  readPlainToken_text : ∀ f, readPlainToken (F := F) (text f) = none
  read_text : ∀ f, read (text f) = some f

variable {F : Type}

/-- A number or a constant. -/
def readToken [PyFloat F] (token : List Char) : Option (Json F) :=
  match readPlainToken token with
  | some value => some value
  | none => (PyFloat.read token).map .float

theorem readNumeral_toDigits (n : ℕ) : readNumeral (Nat.toDigits 10 n) = some n := by
  simp [readNumeral, Nat.ofDigitChars_ten_toDigits]

theorem isDigit_of_mem_intText {i : ℤ} {c : Char} (h : c ∈ intText i) :
    c = '-' ∨ c.isDigit = true := by
  unfold intText at h
  split at h
  · rcases List.mem_cons.mp h with rfl | hdigit
    · exact Or.inl rfl
    · exact Or.inr (Nat.isDigit_of_mem_toDigits (by decide) (by decide) hdigit)
  · exact Or.inr (Nat.isDigit_of_mem_toDigits (by decide) (by decide) h)

/-- The digits do not begin with a sign. -/
theorem head_toDigits_ne_minus {n : ℕ} {digits : List Char} :
    Nat.toDigits 10 n ≠ '-' :: digits := by
  intro h
  have hdigit : ('-').isDigit = true :=
    Nat.isDigit_of_mem_toDigits (b := 10) (n := n) (by decide) (by decide) (by simp [h])
  exact absurd hdigit (by decide)

theorem readIntToken_intText (i : ℤ) : readIntToken (intText i) = some i := by
  unfold intText
  split
  · rename_i hneg
    rw [readIntToken, readNumeral_toDigits, Option.map_some]
    congr 1
    omega
  · rename_i hnonneg
    have hread : readIntToken (Nat.toDigits 10 i.natAbs) =
        (readNumeral (Nat.toDigits 10 i.natAbs)).map fun n : ℕ => (n : ℤ) := by
      unfold readIntToken
      split
      · rename_i digits h
        exact absurd h head_toDigits_ne_minus
      · rfl
    rw [hread, readNumeral_toDigits, Option.map_some]
    congr 1
    omega

theorem readPlainToken_intText (i : ℤ) :
    readPlainToken (intText i) = some (.int i : Json F) := by
  have hletter : ∀ constant : List Char, (∃ c ∈ constant, c ≠ '-' ∧ c.isDigit = false) →
      intText i ≠ constant := by
    rintro constant ⟨c, hmem, hminus, hdigit⟩ rfl
    rcases isDigit_of_mem_intText hmem with h | h
    · exact hminus h
    · rw [h] at hdigit
      cases hdigit
  rw [readPlainToken, if_neg (hletter _ ⟨'n', by decide⟩), if_neg (hletter _ ⟨'t', by decide⟩),
    if_neg (hletter _ ⟨'f', by decide⟩), readIntToken_intText, Option.map_some]

/-! ## Strings -/

/-- A hexadecimal digit. -/
def hexDigit (n : ℕ) : Char := Nat.digitChar n

/-- The value of a hexadecimal digit. -/
def hexValue (c : Char) : Option ℕ :=
  if c.isDigit then some (c.toNat - 48)
  else if 97 ≤ c.toNat ∧ c.toNat ≤ 102 then some (c.toNat - 87)
  else if 65 ≤ c.toNat ∧ c.toNat ≤ 70 then some (c.toNat - 55)
  else none

/-- Four hexadecimal digits. -/
def hexText (n : ℕ) : List Char :=
  [hexDigit (n / 4096 % 16), hexDigit (n / 256 % 16), hexDigit (n / 16 % 16), hexDigit (n % 16)]

/-- Four hexadecimal digits and the rest of the text. -/
def readHex : List Char → Option (ℕ × List Char)
  | a :: b :: c :: d :: rest =>
    match hexValue a, hexValue b, hexValue c, hexValue d with
    | some a, some b, some c, some d => some (a * 4096 + b * 256 + c * 16 + d, rest)
    | _, _, _, _ => none
  | _ => none

/-- The letter of a short escape. -/
def shortEscape (c : Char) : Option Char :=
  if c = '"' ∨ c = '\\' then some c
  else if c = '\n' then some 'n'
  else if c = '\r' then some 'r'
  else if c = '\t' then some 't'
  else if c.toNat = 8 then some 'b'
  else if c.toNat = 12 then some 'f'
  else none

/-- A character of a string, with `ensure_ascii`. -/
def escape (c : Char) : List Char :=
  match shortEscape c with
  | some letter => ['\\', letter]
  | none =>
    if 0x20 ≤ c.toNat ∧ c.toNat < 0x7f then [c]
    else if c.toNat < 0x10000 then '\\' :: 'u' :: hexText c.toNat
    else
      '\\' :: 'u' :: hexText (0xd800 + (c.toNat - 0x10000) / 0x400) ++
        '\\' :: 'u' :: hexText (0xdc00 + (c.toNat - 0x10000) % 0x400)

/-- The character of a short escape. -/
def unescape (letter : Char) : Option Char :=
  if letter = '"' ∨ letter = '\\' ∨ letter = '/' then some letter
  else if letter = 'n' then some '\n'
  else if letter = 'r' then some '\r'
  else if letter = 't' then some '\t'
  else if letter = 'b' then some (Char.ofNat 8)
  else if letter = 'f' then some (Char.ofNat 12)
  else none

/-- The partner of a surrogate `high`. -/
def readPartner (high : ℕ) : List Char → Option (Char × List Char)
  | '\\' :: 'u' :: rest =>
    match readHex rest with
    | some (low, rest) =>
      if 0xdc00 ≤ low ∧ low ≤ 0xdfff then
        some (Char.ofNat (0x10000 + (high - 0xd800) * 0x400 + (low - 0xdc00)), rest)
      else none
    | none => none
  | _ => none

/-- A character after `\u`. A surrogate without its partner is no character of a
database. -/
def readUnicode (text : List Char) : Option (Char × List Char) :=
  match readHex text with
  | none => none
  | some (n, rest) =>
    if 0xd800 ≤ n ∧ n ≤ 0xdbff then readPartner n rest
    else if 0xdc00 ≤ n ∧ n ≤ 0xdfff then none
    else some (Char.ofNat n, rest)

/-- The next character of a string, or its end. -/
def readChar : List Char → Option (Option Char × List Char)
  | [] => none
  | c :: rest =>
    if c = '"' then some (none, rest)
    else if c = '\\' then
      match rest with
      | [] => none
      | letter :: rest =>
        if letter = 'u' then (readUnicode rest).map fun (c, rest) => (some c, rest)
        else (unescape letter).map fun c => (some c, rest)
    else if c.toNat < 0x20 then none
    else some (some c, rest)

/-- The characters of a string up to its end. -/
def readChars : ℕ → List Char → Option (List Char × List Char)
  | 0, _ => none
  | fuel + 1, text =>
    match readChar text with
    | none => none
    | some (none, rest) => some ([], rest)
    | some (some c, rest) => (readChars fuel rest).map fun (cs, rest) => (c :: cs, rest)

/-- A string with its quotes. -/
def stringText (s : String) : List Char := '"' :: (s.toList.flatMap escape ++ ['"'])

theorem hexValue_hexDigit {n : ℕ} (h : n < 16) : hexValue (hexDigit n) = some n := by
  have hall : ∀ n : Fin 16, hexValue (hexDigit n) = some n.val := by decide
  exact hall ⟨n, h⟩

theorem readHex_hexText {n : ℕ} (h : n < 0x10000) (rest : List Char) :
    readHex (hexText n ++ rest) = some (n, rest) := by
  simp only [hexText, List.cons_append, List.nil_append, readHex,
    hexValue_hexDigit (Nat.mod_lt _ (by decide : 16 > 0))]
  congr 2
  omega

/-- No character is a surrogate. -/
theorem not_surrogate (c : Char) : c.toNat < 0xd800 ∨ 0xdfff < c.toNat ∧ c.toNat < 0x110000 := by
  have hvalid : c.toNat.isValidChar := c.valid
  unfold Nat.isValidChar at hvalid
  omega

theorem readUnicode_basic {c : Char} (h : c.toNat < 0x10000) (rest : List Char) :
    readUnicode (hexText c.toNat ++ rest) = some (c, rest) := by
  have hsurrogate := not_surrogate c
  unfold readUnicode
  rw [readHex_hexText h]
  dsimp only
  rw [if_neg (by omega), if_neg (by omega), Char.ofNat_toNat]

theorem readUnicode_surrogate {n : ℕ} (h : 0xd800 ≤ n) (h' : n ≤ 0xdbff) (rest : List Char) :
    readUnicode (hexText n ++ rest) = readPartner n rest := by
  unfold readUnicode
  rw [readHex_hexText (by omega)]
  dsimp only
  rw [if_pos ⟨h, h'⟩]

theorem readPartner_hexText {high low : ℕ} (h : 0xdc00 ≤ low) (h' : low ≤ 0xdfff)
    (rest : List Char) :
    readPartner high ('\\' :: 'u' :: (hexText low ++ rest)) =
      some (Char.ofNat (0x10000 + (high - 0xd800) * 0x400 + (low - 0xdc00)), rest) := by
  rw [readPartner, readHex_hexText (by omega)]
  dsimp only
  rw [if_pos ⟨h, h'⟩]

theorem readUnicode_pair {c : Char} (h : 0x10000 ≤ c.toNat) (rest : List Char) :
    readUnicode (hexText (0xd800 + (c.toNat - 0x10000) / 0x400) ++ '\\' :: 'u' ::
      (hexText (0xdc00 + (c.toNat - 0x10000) % 0x400) ++ rest)) = some (c, rest) := by
  have hsurrogate := not_surrogate c
  obtain ⟨high, hhigh⟩ : ∃ n, n = 0xd800 + (c.toNat - 0x10000) / 0x400 := ⟨_, rfl⟩
  obtain ⟨low, hlow⟩ : ∃ n, n = 0xdc00 + (c.toNat - 0x10000) % 0x400 := ⟨_, rfl⟩
  have hcode : 0x10000 + (high - 0xd800) * 0x400 + (low - 0xdc00) = c.toNat := by omega
  rw [← hhigh, ← hlow, readUnicode_surrogate (by omega) (by omega),
    readPartner_hexText (by omega) (by omega), hcode, Char.ofNat_toNat]

theorem unescape_shortEscape {c letter : Char} (h : shortEscape c = some letter) :
    letter ≠ 'u' ∧ unescape letter = some c := by
  have hofNat : ∀ n, c.toNat = n → c = Char.ofNat n := by
    rintro n rfl
    exact (Char.ofNat_toNat c).symm
  unfold shortEscape at h
  split at h
  · rename_i hquote
    obtain rfl := Option.some.inj h
    rcases hquote with rfl | rfl <;> exact ⟨by decide, by decide⟩
  split at h
  · rename_i hc
    obtain rfl := Option.some.inj h
    exact ⟨by decide, by rw [hc]; decide⟩
  split at h
  · rename_i hc
    obtain rfl := Option.some.inj h
    exact ⟨by decide, by rw [hc]; decide⟩
  split at h
  · rename_i hc
    obtain rfl := Option.some.inj h
    exact ⟨by decide, by rw [hc]; decide⟩
  split at h
  · rename_i hc
    obtain rfl := Option.some.inj h
    exact ⟨by decide, by rw [hofNat 8 hc]; decide⟩
  split at h
  · rename_i hc
    obtain rfl := Option.some.inj h
    exact ⟨by decide, by rw [hofNat 12 hc]; decide⟩
  · cases h

/-- An escaped character is read back. -/
theorem readChar_escape (c : Char) (rest : List Char) :
    readChar (escape c ++ rest) = some (some c, rest) := by
  unfold escape
  split
  · rename_i letter hletter
    obtain ⟨hu, hunescape⟩ := unescape_shortEscape hletter
    simp [readChar, hu, hunescape]
  · rename_i hnone
    have hquote : c ≠ '"' := by
      rintro rfl
      cases hnone
    have hbackslash : c ≠ '\\' := by
      rintro rfl
      cases hnone
    split
    · rename_i hprintable
      simp only [List.cons_append, List.nil_append, readChar]
      rw [if_neg hquote, if_neg hbackslash, if_neg (by omega)]
    split
    · rename_i hbasic
      simp only [List.cons_append, readChar, readUnicode_basic hbasic]
      rfl
    · rename_i hbasic
      simp only [List.cons_append, List.append_assoc, readChar,
        readUnicode_pair (Nat.le_of_not_lt hbasic)]
      rfl

/-- The characters of a string are read back. -/
theorem readChars_flatMap_escape (cs rest : List Char) {fuel : ℕ} (h : cs.length < fuel) :
    readChars fuel (cs.flatMap escape ++ '"' :: rest) = some (cs, rest) := by
  induction cs generalizing fuel with
  | nil =>
    obtain ⟨fuel, rfl⟩ := Nat.exists_eq_succ_of_ne_zero (Nat.ne_of_gt h)
    rfl
  | cons c cs ih =>
    obtain ⟨fuel, rfl⟩ := Nat.exists_eq_succ_of_ne_zero (Nat.ne_of_gt (Nat.zero_lt_of_lt h))
    rw [List.flatMap_cons, List.append_assoc, readChars, readChar_escape]
    dsimp only
    rw [ih (Nat.lt_of_succ_lt_succ h)]
    rfl

/-! ## Values -/

/-- The whitespace of JSON. -/
def isJsonSpace (c : Char) : Bool := c == ' ' || c == '\t' || c == '\n' || c == '\r'

/-- The text after its leading whitespace. -/
def skipSpace (text : List Char) : List Char := text.dropWhile isJsonSpace

/-- The separators of `dumps`. -/
structure Separators where
  item : List Char := [',', ' ']
  key : List Char := [':', ' ']

/-- `separators=(",", ":")`. -/
def compactSeparators : Separators where
  item := [',']
  key := [':']

section Dumps

variable [PyFloat F] (separators : Separators)

mutual

/-- `dumps`. -/
def dumps : Json F → List Char
  | .null => "null".toList
  | .bool true => "true".toList
  | .bool false => "false".toList
  | .int i => intText i
  | .float f => PyFloat.text f
  | .str s => stringText s
  | .list items => '[' :: (dumpsItems items ++ [']'])
  | .dict keys values => '\x7b' :: (dumpsEntries keys values ++ ['\x7d'])

/-- The items of a list. -/
def dumpsItems : List (Json F) → List Char
  | [] => []
  | [item] => dumps item
  | item :: item' :: items => dumps item ++ separators.item ++ dumpsItems (item' :: items)

/-- The entries of a dict. -/
def dumpsEntries : List String → List (Json F) → List Char
  | key :: _, [value] => stringText key ++ separators.key ++ dumps value
  | key :: keys, value :: value' :: values =>
    stringText key ++ separators.key ++ dumps value ++ separators.item ++
      dumpsEntries keys (value' :: values)
  | _, _ => []

end

end Dumps

section Loads

variable [PyFloat F]

/-- A string after its opening quote. -/
def readString (text : List Char) : Option (String × List Char) :=
  (readChars text.length text).map fun (cs, rest) => (String.ofList cs, rest)

/-- A key of a dict, with its colon. -/
def readKey : List Char → Option (String × List Char)
  | '"' :: text =>
    match readString text with
    | some (key, rest) =>
      match skipSpace rest with
      | ':' :: rest => some (key, skipSpace rest)
      | _ => none
    | none => none
  | _ => none

/-- A later entry of a dict replaces an earlier one of its key. -/
def addEntry (key : String) (value : Json F) (entries : List (String × Json F)) :
    List (String × Json F) :=
  if entries.any fun entry => entry.1 = key then entries else (key, value) :: entries

mutual

/-- A value and the rest of the text. -/
def readValue : ℕ → List Char → Option (Json F × List Char)
  | 0, _ => none
  | fuel + 1, text =>
    match text with
    | [] => none
    | c :: rest =>
      if c = '"' then (readString rest).map fun (s, rest) => (.str s, rest)
      else if c = '[' then
        match skipSpace rest with
        | ']' :: rest => some (.list [], rest)
        | rest => (readItems fuel rest).map fun (items, rest) => (.list items, rest)
      else if c = '\x7b' then
        match skipSpace rest with
        | '\x7d' :: rest => some (.dict [] [], rest)
        | rest => (readEntries fuel rest).map fun (entries, rest) =>
          (.dict (entries.map Prod.fst) (entries.map Prod.snd), rest)
      else
        (readToken (text.takeWhile isTokenChar)).map fun value =>
          (value, text.dropWhile isTokenChar)

/-- The items of a list, with its closing bracket. -/
def readItems : ℕ → List Char → Option (List (Json F) × List Char)
  | 0, _ => none
  | fuel + 1, text =>
    match readValue fuel text with
    | none => none
    | some (item, rest) =>
      match skipSpace rest with
      | ']' :: rest => some ([item], rest)
      | ',' :: rest =>
        (readItems fuel (skipSpace rest)).map fun (items, rest) => (item :: items, rest)
      | _ => none

/-- The entries of a dict, with its closing brace. -/
def readEntries : ℕ → List Char → Option (List (String × Json F) × List Char)
  | 0, _ => none
  | fuel + 1, text =>
    match readKey text with
    | none => none
    | some (key, rest) =>
      match readValue fuel rest with
      | none => none
      | some (value, rest) =>
        match skipSpace rest with
        | '\x7d' :: rest => some ([(key, value)], rest)
        | ',' :: rest =>
          (readEntries fuel (skipSpace rest)).map fun (entries, rest) =>
            (addEntry key value entries, rest)
        | _ => none

end

/-- `loads`. -/
def loads (text : List Char) : Option (Json F) :=
  match readValue (2 * text.length + 2) (skipSpace text) with
  | some (value, rest) => if skipSpace rest = [] then some value else none
  | none => none

/-- A value that is neither a list nor a dict. -/
def Json.IsScalar : Json F → Prop
  | .list _ => False
  | .dict _ _ => False
  | _ => True

end Loads

/-! ## What is written is read back -/

section RoundTrip

variable [PyFloat F] (separators : Separators) {value : Json F} {rest : List Char}

theorem isTokenChar_of_mem_intText {i : ℤ} {c : Char} (h : c ∈ intText i) :
    isTokenChar c = true := by
  rcases isDigit_of_mem_intText h with rfl | hdigit
  · decide
  · simp [isTokenChar, Char.isAlphanum, hdigit]

theorem intText_ne_nil (i : ℤ) : intText i ≠ [] := by
  unfold intText
  split
  · exact List.cons_ne_nil _ _
  · exact Nat.toDigits_ne_nil

/-- The token of a scalar that is not a string. -/
structure IsTokenOf (value : Json F) (token : List Char) : Prop where
  ne_nil : token ≠ []
  chars : ∀ c ∈ token, isTokenChar c = true
  read : readToken token = some value

/-- A token is read up to the next character that belongs to none. -/
theorem IsTokenOf.readValue {token : List Char} (h : IsTokenOf value token)
    (hrest : ∀ c ∈ rest.head?, isTokenChar c = false) (fuel : ℕ) :
    readValue (fuel + 1) (token ++ rest) = some (value, rest) := by
  obtain ⟨c, cs, rfl⟩ := List.exists_cons_of_ne_nil h.ne_nil
  have hc := h.chars c List.mem_cons_self
  have htake : (c :: cs ++ rest).takeWhile isTokenChar = c :: cs := by
    rw [List.takeWhile_append_of_pos h.chars]
    cases rest with
    | nil => simp
    | cons d rest => simp [hrest d rfl]
  have hdrop : (c :: cs ++ rest).dropWhile isTokenChar = rest := by
    rw [List.dropWhile_append_of_pos h.chars]
    cases rest with
    | nil => rfl
    | cons d rest => simp [hrest d rfl]
  have hquote : c ≠ '"' := by
    rintro rfl
    exact absurd hc (by decide)
  have hbracket : c ≠ '[' := by
    rintro rfl
    exact absurd hc (by decide)
  have hbrace : c ≠ '\x7b' := by
    rintro rfl
    exact absurd hc (by decide)
  rw [List.cons_append] at htake hdrop ⊢
  simp only [Python.readValue, hquote, hbracket, hbrace, if_false, htake, hdrop, h.read,
    Option.map_some]

/-- A scalar is a string, or has a token. -/
theorem dumps_scalar (hscalar : value.IsScalar) :
    (∃ s, value = .str s) ∨ IsTokenOf value (dumps separators value) := by
  cases value with
  | null => exact Or.inr ⟨by simp [dumps], by simp [dumps]; decide, by simp [dumps]; rfl⟩
  | bool b =>
    cases b
    · exact Or.inr ⟨by simp [dumps], by simp [dumps]; decide, by simp [dumps]; rfl⟩
    · exact Or.inr ⟨by simp [dumps], by simp [dumps]; decide, by simp [dumps]; rfl⟩
  | int i =>
    refine Or.inr ⟨?_, fun c hc => ?_, ?_⟩
    · rw [dumps]
      exact intText_ne_nil i
    · rw [dumps] at hc
      exact isTokenChar_of_mem_intText hc
    · rw [dumps, readToken, readPlainToken_intText]
  | float f =>
    refine Or.inr ⟨?_, fun c hc => ?_, ?_⟩
    · rw [dumps]
      exact PyFloat.text_ne_nil f
    · rw [dumps] at hc
      exact PyFloat.isTokenChar_of_mem f c hc
    · rw [dumps, readToken, PyFloat.readPlainToken_text, PyFloat.read_text, Option.map_some]
  | str s => exact Or.inl ⟨s, rfl⟩
  | list items => exact hscalar.elim
  | dict keys values => exact hscalar.elim

theorem readString_stringText (s : String) (rest : List Char) :
    readString (s.toList.flatMap escape ++ '"' :: rest) = some (s, rest) := by
  have hlength : s.toList.length < (s.toList.flatMap escape ++ '"' :: rest).length := by
    have hescape : s.toList.length ≤ (s.toList.flatMap escape).length := by
      induction s.toList with
      | nil => simp
      | cons c cs ih =>
        have hc : 0 < (escape c).length := by
          unfold escape
          split
          · simp
          · split
            · simp
            · split <;> simp
        simp only [List.flatMap_cons, List.length_append, List.length_cons]
        omega
    simp only [List.length_append, List.length_cons]
    omega
  rw [readString, readChars_flatMap_escape _ _ hlength, Option.map_some]
  dsimp only
  rw [String.ofList_toList]

/-- A scalar is read up to the separator or the bracket that follows it. -/
theorem readValue_dumps (hscalar : value.IsScalar)
    (hrest : ∀ c ∈ rest.head?, isTokenChar c = false) (fuel : ℕ) :
    readValue (fuel + 1) (dumps separators value ++ rest) = some (value, rest) := by
  rcases dumps_scalar separators hscalar with ⟨s, rfl⟩ | htoken
  · have hstring := readString_stringText s rest
    simp only [dumps, stringText, List.cons_append, List.append_assoc, List.nil_append,
      readValue, if_true, hstring, Option.map_some]
  · exact htoken.readValue hrest fuel

/-- The first character of a scalar opens no list, closes none, and is no whitespace. -/
theorem head_dumps (hscalar : value.IsScalar) : ∃ c cs, dumps separators value = c :: cs ∧
    isJsonSpace c = false ∧ c ≠ ']' := by
  rcases dumps_scalar separators hscalar with ⟨s, rfl⟩ | htoken
  · exact ⟨'"', _, by rw [dumps, stringText], by decide, by decide⟩
  · obtain ⟨c, cs, hcs⟩ := List.exists_cons_of_ne_nil htoken.ne_nil
    have hc := htoken.chars c (by simp [hcs])
    refine ⟨c, cs, hcs, ?_, ?_⟩
    · by_contra hspace
      have hcases : c = ' ' ∨ c = '\t' ∨ c = '\n' ∨ c = '\r' := by
        rw [Bool.not_eq_false] at hspace
        simpa [isJsonSpace, or_assoc] using hspace
      rcases hcases with rfl | rfl | rfl | rfl <;> exact absurd hc (by decide)
    · rintro rfl
      exact absurd hc (by decide)

/-- Separators with whitespace only after the comma. -/
def Separators.IsPlain (separators : Separators) : Prop :=
  ∃ spaces, separators.item = ',' :: spaces ∧ ∀ c ∈ spaces, isJsonSpace c = true

theorem skipSpace_of_head {c : Char} {cs : List Char} (h : isJsonSpace c = false) :
    skipSpace (c :: cs) = c :: cs := by
  rw [skipSpace, List.dropWhile_cons_of_neg (by simp [h])]

theorem skipSpace_spaces {spaces : List Char} (h : ∀ c ∈ spaces, isJsonSpace c = true)
    (text : List Char) : skipSpace (spaces ++ text) = skipSpace text :=
  List.dropWhile_append_of_pos h

theorem head_dumpsItems (items : List (Json F)) (hscalar : value.IsScalar) :
    ∃ c cs, dumpsItems separators (value :: items) = c :: cs ∧ isJsonSpace c = false ∧
      c ≠ ']' := by
  obtain ⟨c, cs, hhead, hspace, hbracket⟩ := head_dumps separators hscalar
  cases items with
  | nil => exact ⟨c, cs, by rw [dumpsItems, hhead], hspace, hbracket⟩
  | cons item items =>
    refine ⟨c, cs ++ separators.item ++ dumpsItems separators (item :: items), ?_, hspace, hbracket⟩
    rw [dumpsItems, hhead, List.cons_append, List.cons_append]

/-- Every item has a character. -/
theorem length_le_dumpsItems {items : List (Json F)} (hscalar : ∀ value ∈ items, value.IsScalar) :
    items.length ≤ (dumpsItems separators items).length := by
  induction items with
  | nil => exact Nat.zero_le _
  | cons item items ih =>
    have hrest := ih fun value h => hscalar value (List.mem_cons_of_mem _ h)
    obtain ⟨c, cs, hhead, -⟩ := head_dumps separators
      (hscalar item List.mem_cons_self)
    cases items with
    | nil => simp [dumpsItems, hhead]
    | cons item' items =>
      rw [dumpsItems, hhead]
      simp only [List.length_append, List.length_cons] at hrest ⊢
      omega

/-- The items of a list of scalars are read up to its bracket. -/
theorem readItems_dumpsItems (hseparators : separators.IsPlain) (item : Json F)
    (items : List (Json F)) (hscalar : ∀ value ∈ item :: items, value.IsScalar) {fuel : ℕ}
    (hfuel : items.length + 1 < fuel) :
    readItems fuel (dumpsItems separators (item :: items) ++ ']' :: rest) =
      some (item :: items, rest) := by
  obtain ⟨spaces, hitem, hspaces⟩ := hseparators
  induction items generalizing item fuel with
  | nil =>
    obtain ⟨fuel, rfl⟩ : ∃ n, fuel = n + 2 := ⟨fuel - 2, by simp at hfuel; omega⟩
    rw [dumpsItems, readItems, readValue_dumps separators (hscalar item List.mem_cons_self) (by simp; decide)]
    rfl
  | cons item' items ih =>
    obtain ⟨fuel, rfl⟩ : ∃ n, fuel = n + 2 := ⟨fuel - 2, by simp at hfuel; omega⟩
    have hread : readValue (fuel + 1) (dumps separators item ++
        ',' :: (spaces ++ (dumpsItems separators (item' :: items) ++ ']' :: rest))) =
        some (item, ',' :: (spaces ++ (dumpsItems separators (item' :: items) ++ ']' :: rest))) :=
      readValue_dumps separators (hscalar item List.mem_cons_self) (by simp; decide) fuel
    have hnext : readItems (fuel + 1) (dumpsItems separators (item' :: items) ++ ']' :: rest) =
        some (item' :: items, rest) :=
      ih item' (fun value h => hscalar value (List.mem_cons_of_mem _ h))
        (by simp at hfuel ⊢; omega)
    obtain ⟨c, cs, hhead, hspace, -⟩ := head_dumpsItems separators items (hscalar item' (by simp))
    have hskip : skipSpace (spaces ++ (dumpsItems separators (item' :: items) ++ ']' :: rest)) =
        dumpsItems separators (item' :: items) ++ ']' :: rest := by
      rw [skipSpace_spaces hspaces, hhead, List.cons_append, skipSpace_of_head hspace]
    have htext : dumpsItems separators (item :: item' :: items) ++ ']' :: rest =
        dumps separators item ++
          ',' :: (spaces ++ (dumpsItems separators (item' :: items) ++ ']' :: rest)) := by
      simp only [dumpsItems, hitem, List.append_assoc, List.cons_append]
    rw [htext, readItems, hread]
    simp only [skipSpace_of_head (show isJsonSpace ',' = false by decide), hskip, hnext,
      Option.map_some]

/-- A list of scalars is read up to its end. -/
theorem readValue_list (hseparators : separators.IsPlain) (item : Json F)
    (items : List (Json F)) (hscalar : ∀ value ∈ item :: items, value.IsScalar) {fuel : ℕ}
    (hfuel : items.length + 1 < fuel) :
    readValue (fuel + 1) ('[' :: (dumpsItems separators (item :: items) ++ ']' :: rest)) =
      some (.list (item :: items), rest) := by
  obtain ⟨c, cs, hhead, hspace, hbracket⟩ := head_dumpsItems separators
    items (hscalar item List.mem_cons_self)
  have hread : readItems fuel (dumpsItems separators (item :: items) ++ ']' :: rest) =
      some (item :: items, rest) :=
    readItems_dumpsItems separators hseparators item items hscalar hfuel
  rw [hhead, List.cons_append] at hread ⊢
  rw [readValue]
  simp only [Char.reduceEq, if_false, if_true, skipSpace_of_head hspace]
  split
  · rename_i heq
    exact absurd (List.cons.inj heq).1 hbracket
  · rw [hread, Option.map_some]

/-- A list of scalars is read back. -/
theorem loads_dumps (hseparators : separators.IsPlain) {items : List (Json F)}
    (hscalar : ∀ value ∈ items, value.IsScalar) :
    loads (dumps separators (.list items)) = some (.list items) := by
  rw [dumps, loads, skipSpace_of_head (by decide)]
  cases items with
  | nil => rfl
  | cons item items =>
    have hlength := length_le_dumpsItems separators hscalar
    have hread : readValue
        (2 * ('[' :: (dumpsItems separators (item :: items) ++ [']'])).length + 1 + 1)
        ('[' :: (dumpsItems separators (item :: items) ++ [']'])) =
        some (.list (item :: items), []) :=
      readValue_list separators hseparators item items hscalar
        (by simp only [List.length_cons, List.length_append] at hlength ⊢; omega)
    rw [hread]
    rfl

end RoundTrip

/-! ## Tokens -/

/-- `base64.urlsafe_b64encode(json.dumps(value).encode()).decode()`. -/
def encodeToken [PyFloat F] (separators : Separators) (value : Json F) : List Char :=
  Base64.encode (String.ofList (dumps separators value)).toUTF8.data.toList

/-- `json.loads(base64.urlsafe_b64decode(raw.encode()).decode())`. -/
def decodeToken [PyFloat F] (raw : List Char) : Option (Json F) :=
  match Base64.decode raw with
  | none => none
  | some bytes =>
    match (ByteArray.mk bytes.toArray).utf8Decode? with
    | none => none
    | some text => loads text.toList

/-- The empty text is not a token. -/
theorem decodeToken_nil [PyFloat F] : decodeToken (F := F) [] = none := rfl

/-- A token is decoded when the text in it is. -/
theorem decodeToken_encodeToken_of_loads [PyFloat F] (separators : Separators)
    {value value' : Json F} (hloads : loads (dumps separators value) = some value') :
    decodeToken (encodeToken separators value) = some value' := by
  have htext : (String.ofList (dumps separators value)).toUTF8.utf8Decode? =
      some (dumps separators value).toArray := by
    rw [← List.utf8Decode?_utf8Encode]
    congr 1
  rw [decodeToken, encodeToken, Base64.decode_encode]
  simp only [Array.toArray_toList, htext]
  exact hloads

/-- The token of a list of scalars is decoded. -/
theorem decodeToken_encodeToken [PyFloat F] {separators : Separators}
    (hseparators : separators.IsPlain) {items : List (Json F)}
    (hscalar : ∀ value ∈ items, value.IsScalar) :
    decodeToken (encodeToken separators (.list items)) = some (.list items) :=
  decodeToken_encodeToken_of_loads separators (loads_dumps separators hseparators hscalar)

/-- A character has at most four bytes, and three bytes have four digits. -/
theorem length_encodeToken_le [PyFloat F] (separators : Separators) (value : Json F) :
    (encodeToken separators value).length ≤ ((dumps separators value).length * 4 + 2) / 3 * 4 := by
  have hbytes : ∀ text : List Char, text.utf8Encode.data.toList.length ≤ text.length * 4 := by
    intro text
    rw [List.utf8Encode, List.data_toByteArray, List.toList_toArray]
    induction text with
    | nil => simp
    | cons c text ih =>
      have hc := c.utf8Size_le_four
      simp only [List.flatMap_cons, List.length_append, String.length_utf8EncodeChar,
        List.length_cons]
      omega
  rw [encodeToken, Base64.length_encode]
  have h := hbytes (dumps separators value)
  have htext : (String.ofList (dumps separators value)).toUTF8 =
      (dumps separators value).utf8Encode := rfl
  rw [htext]
  omega

end RelyLoop.Python
