import RelyLoop.Python.Conversions
import RelyLoop.Python.Json
import RelyLoop.Python.JsonData

/-!
# `json.loads` and its exceptions

The decoder reads any text. Beside `JSONDecodeError` it raises the `ValueError` of an integer
with too many digits, and the `RecursionError` of a text that is nested too deep, whichever it
comes to first.
-/

namespace RelyLoop.Python.Decoder

variable {F : Type}

/-- What `json.loads` raises: `JSONDecodeError`, another `ValueError`, or `RecursionError`. -/
inductive Failure where
  | decodeError
  | valueError
  | recursionError
  deriving DecidableEq

/-! ## Numbers -/

/-- An integer without a sign. It does not begin with 0, unless it is 0. -/
def readUnsigned : List Char → Option (List Char × List Char)
  | [] => none
  | c :: text =>
    if c = '0' then some ([c], text)
    else if c.isDigit then some (c :: text.takeWhile Char.isDigit, text.dropWhile Char.isDigit)
    else none

/-- An integer and the rest of the text. -/
def readInteger : List Char → Option (List Char × List Char)
  | '-' :: text => (readUnsigned text).map fun (token, rest) => ('-' :: token, rest)
  | text => readUnsigned text

/-- A point with digits behind it, if there is one, and the rest of the text. -/
def readFraction : List Char → List Char × List Char
  | '.' :: c :: text =>
    if c.isDigit then ('.' :: c :: text.takeWhile Char.isDigit, text.dropWhile Char.isDigit)
    else ([], '.' :: c :: text)
  | text => ([], text)

/-- A sign, if there is one, and the rest of the text. -/
def readSign : List Char → List Char × List Char
  | '+' :: text => (['+'], text)
  | '-' :: text => (['-'], text)
  | text => ([], text)

/-- An exponent, if there is one, and the rest of the text. -/
def readExponent : List Char → List Char × List Char
  | [] => ([], [])
  | c :: text =>
    let (sign, digits) := readSign text
    if (c = 'e' ∨ c = 'E') ∧ digits.takeWhile Char.isDigit ≠ [] then
      (c :: (sign ++ digits.takeWhile Char.isDigit), digits.dropWhile Char.isDigit)
    else ([], c :: text)

/-- The digits of an integer. -/
def digitsOf : List Char → List Char
  | '-' :: digits => digits
  | digits => digits

/-- `int(token)`. -/
def intOf : List Char → ℤ
  | '-' :: digits => -(Nat.ofDigitChars 10 digits 0 : ℕ)
  | digits => (Nat.ofDigitChars 10 digits 0 : ℕ)

/-- The tokens that `float` is given: an integer with a fraction or an exponent. -/
def IsFloatToken (token : List Char) : Prop :=
  ∃ integer fraction exponent, token = integer ++ fraction ++ exponent ∧
    readInteger integer = some (integer, []) ∧ readFraction fraction = (fraction, []) ∧
    readExponent exponent = (exponent, []) ∧ ¬(fraction = [] ∧ exponent = [])

/-- `float` of `json`: its constants, the numbers that tokens stand for, and the text of each. -/
class JsonFloat (F : Type) where
  nan : F
  infinity : F
  negInfinity : F
  ofToken : List Char → F
  text : F → List Char
  text_cases : ∀ f, text f = "NaN".toList ∧ f = nan ∨ text f = "Infinity".toList ∧ f = infinity ∨
    text f = "-Infinity".toList ∧ f = negInfinity ∨ IsFloatToken (text f) ∧ ofToken (text f) = f

section Numbers

variable [JsonFloat F]

/-- `_match_number_unicode`. -/
def readNumber (text : List Char) : Except Failure (JsonData F × List Char) :=
  match readInteger text with
  | none => .error .decodeError
  | some (token, rest) =>
    let (fraction, rest) := readFraction rest
    let (exponent, rest) := readExponent rest
    if fraction = [] ∧ exponent = [] then
      if maxStrDigits < (digitsOf token).length then .error .valueError
      else .ok (.int (intOf token), rest)
    else .ok (.float (JsonFloat.ofToken (token ++ fraction ++ exponent)), rest)

/-- The constants. -/
def constants : List (List Char × JsonData F) :=
  [("null".toList, .null), ("true".toList, .bool true), ("false".toList, .bool false),
    ("NaN".toList, .float JsonFloat.nan), ("Infinity".toList, .float JsonFloat.infinity),
    ("-Infinity".toList, .float JsonFloat.negInfinity)]

/-- A constant and the rest of the text. -/
def readConstant (text : List Char) : Option (JsonData F × List Char) :=
  (constants.find? fun e => e.1.isPrefixOf text).map fun e => (e.2, text.drop e.1.length)

end Numbers

/-! ## Strings -/

/-- The next code units of a string, or its end. -/
def readUnits : List Char → Option (Option JsonString × List Char)
  | [] => none
  | c :: rest =>
    if c = '"' then some (none, rest)
    else if c = '\\' then
      match rest with
      | [] => none
      | letter :: rest =>
        if letter = 'u' then (readHex rest).map fun (n, rest) => (some [UInt16.ofNat n], rest)
        else (unescape letter).map fun c => (some (JsonString.ofText [c]), rest)
    else if c.toNat < 0x20 then none
    else some (some (JsonString.ofText [c]), rest)

/-- The code units of a string up to its end. -/
def readAllUnits : ℕ → List Char → Option (JsonString × List Char)
  | 0, _ => none
  | fuel + 1, text =>
    match readUnits text with
    | none => none
    | some (none, rest) => some ([], rest)
    | some (some units, rest) =>
      (readAllUnits fuel rest).map fun (more, rest) => (units ++ more, rest)

/-- `scanstring`, after the opening quote. -/
def scanString (text : List Char) : Option (JsonString × List Char) := readAllUnits text.length text

/-- A key of a dict, with its colon. -/
def readKey : List Char → Option (JsonString × List Char)
  | '"' :: text =>
    match scanString text with
    | some (key, rest) =>
      match skipSpace rest with
      | ':' :: rest => some (key, skipSpace rest)
      | _ => none
    | none => none
  | _ => none

/-! ## Values -/

section Values

variable [JsonFloat F]

mutual

/-- `scan_once`: a value and the rest of the text. The depth is how many lists and dicts may still
be entered. -/
def readValue : ℕ → ℕ → List Char → Except Failure (JsonData F × List Char)
  | 0, _, _ => .error .decodeError
  | fuel + 1, depth, text =>
    match text with
    | [] => .error .decodeError
    | c :: rest =>
      if c = '"' then
        match scanString rest with
        | none => .error .decodeError
        | some (s, rest) => .ok (.str s, rest)
      else if c = '[' then
        match depth with
        | 0 => .error .recursionError
        | depth + 1 =>
          match skipSpace rest with
          | ']' :: rest => .ok (.list [], rest)
          | rest => (readItems fuel depth rest).map fun (items, rest) => (.list items, rest)
      else if c = '\x7b' then
        match depth with
        | 0 => .error .recursionError
        | depth + 1 =>
          match skipSpace rest with
          | '\x7d' :: rest => .ok (.dict [] [], rest)
          | rest => (readEntries fuel depth rest).map fun (entries, rest) =>
            (.ofDict (Dict.ofList entries), rest)
      else
        match readConstant text with
        | some result => .ok result
        | none => readNumber text

/-- The items of a list, with its closing bracket. -/
def readItems : ℕ → ℕ → List Char → Except Failure (List (JsonData F) × List Char)
  | 0, _, _ => .error .decodeError
  | fuel + 1, depth, text =>
    match readValue fuel depth text with
    | .error e => .error e
    | .ok (item, rest) =>
      match skipSpace rest with
      | ']' :: rest => .ok ([item], rest)
      | ',' :: rest =>
        (readItems fuel depth (skipSpace rest)).map fun (items, rest) => (item :: items, rest)
      | _ => .error .decodeError

/-- The entries of a dict, with its closing brace. -/
def readEntries : ℕ → ℕ → List Char → Except Failure (List (JsonString × JsonData F) × List Char)
  | 0, _, _ => .error .decodeError
  | fuel + 1, depth, text =>
    match readKey text with
    | none => .error .decodeError
    | some (key, rest) =>
      match readValue fuel depth rest with
      | .error e => .error e
      | .ok (value, rest) =>
        match skipSpace rest with
        | '\x7d' :: rest => .ok ([(key, value)], rest)
        | ',' :: rest =>
          (readEntries fuel depth (skipSpace rest)).map fun (entries, rest) =>
            ((key, value) :: entries, rest)
        | _ => .error .decodeError

end

/-- `json.loads`, for a limit of the nesting. -/
def loads (limit : ℕ) (text : List Char) : Except Failure (JsonData F) :=
  match readValue (2 * text.length + 2) limit (skipSpace text) with
  | .error e => .error e
  | .ok (value, rest) => if skipSpace rest = [] then .ok value else .error .decodeError

/-! ## Values are well formed -/

variable {fuel depth : ℕ} {text rest : List Char} {value : JsonData F}

theorem wellFormed_of_readConstant (h : readConstant text = some (value, rest)) :
    value.WellFormed := by
  obtain ⟨e, hfind, heq⟩ := Option.map_eq_some_iff.mp h
  obtain ⟨rfl, -⟩ := Prod.mk.inj heq
  have hall : ∀ e ∈ (constants : List (List Char × JsonData F)), e.2.WellFormed := by
    simp [constants, JsonData.WellFormed]
  exact hall e (List.mem_of_find?_eq_some hfind)

theorem wellFormed_of_readNumber (h : readNumber text = .ok (value, rest)) : value.WellFormed := by
  rw [readNumber] at h
  split at h
  · cases h
  · dsimp only at h
    split at h
    · split at h
      · cases h
      · obtain ⟨rfl, -⟩ := Prod.mk.inj (Except.ok.inj h)
        trivial
    · obtain ⟨rfl, -⟩ := Prod.mk.inj (Except.ok.inj h)
      trivial

/-- A result that is mapped comes from one. -/
theorem exists_of_map_eq_ok {ε α β : Type} {f : α → β} {x : Except ε α} {b : β}
    (h : x.map f = .ok b) : ∃ a, x = .ok a ∧ f a = b := by
  cases x with
  | error e => cases h
  | ok a => exact ⟨a, rfl, Except.ok.inj h⟩

/-- What is read is well formed: a dict has the last value of each of its keys. -/
theorem wellFormed_of_read (fuel : ℕ) :
    (∀ depth text (value : JsonData F) rest,
      readValue fuel depth text = .ok (value, rest) → value.WellFormed) ∧
    (∀ depth text (items : List (JsonData F)) rest,
      readItems fuel depth text = .ok (items, rest) → JsonData.AllWellFormed items) ∧
    (∀ depth text (entries : List (JsonString × JsonData F)) rest,
      readEntries fuel depth text = .ok (entries, rest) → ∀ e ∈ entries, e.2.WellFormed) := by
  induction fuel with
  | zero =>
    refine ⟨fun _ _ _ _ h => ?_, fun _ _ _ _ h => ?_, fun _ _ _ _ h => ?_⟩
    · rw [readValue] at h
      cases h
    · rw [readItems] at h
      cases h
    · rw [readEntries] at h
      cases h
  | succ fuel ih =>
    obtain ⟨ihValue, ihItems, ihEntries⟩ := ih
    refine ⟨fun depth text value rest h => ?_, fun depth text items rest h => ?_,
      fun depth text entries rest h => ?_⟩
    · rw [readValue.eq_def] at h
      dsimp only at h
      split at h
      · cases h
      · split at h
        · split at h
          · cases h
          · obtain ⟨rfl, -⟩ := Prod.mk.inj (Except.ok.inj h)
            trivial
        split at h
        · split at h
          · cases h
          · split at h
            · obtain ⟨rfl, -⟩ := Prod.mk.inj (Except.ok.inj h)
              trivial
            · obtain ⟨⟨items, rest'⟩, hitems, heq⟩ := exists_of_map_eq_ok h
              obtain ⟨rfl, -⟩ := Prod.mk.inj heq
              exact ihItems _ _ _ _ hitems
        split at h
        · split at h
          · cases h
          · split at h
            · obtain ⟨rfl, -⟩ := Prod.mk.inj (Except.ok.inj h)
              exact ⟨List.nodup_nil, rfl, trivial⟩
            · obtain ⟨⟨entries, rest'⟩, hentries, heq⟩ := exists_of_map_eq_ok h
              obtain ⟨rfl, -⟩ := Prod.mk.inj heq
              refine JsonData.wellFormed_ofDict.mpr fun e he => ?_
              exact ihEntries _ _ _ _ hentries e
                (Dict.mem_of_get?_ofList ((Dict.get?_eq_some_iff _ _ _).mpr he))
        · split at h
          · rename_i result hconstant
            obtain rfl := Except.ok.inj h
            exact wellFormed_of_readConstant hconstant
          · exact wellFormed_of_readNumber h
    · rw [readItems] at h
      split at h
      · cases h
      · rename_i item rest' hitem
        split at h
        · obtain ⟨rfl, -⟩ := Prod.mk.inj (Except.ok.inj h)
          exact ⟨ihValue _ _ _ _ hitem, trivial⟩
        · obtain ⟨⟨items', rest'⟩, hitems, heq⟩ := exists_of_map_eq_ok h
          obtain ⟨rfl, -⟩ := Prod.mk.inj heq
          exact ⟨ihValue _ _ _ _ hitem, ihItems _ _ _ _ hitems⟩
        · cases h
    · rw [readEntries] at h
      split at h
      · cases h
      · split at h
        · cases h
        · rename_i value rest' hvalue
          split at h
          · obtain ⟨rfl, -⟩ := Prod.mk.inj (Except.ok.inj h)
            simpa using ihValue _ _ _ _ hvalue
          · obtain ⟨⟨entries', rest'⟩, hentries, heq⟩ := exists_of_map_eq_ok h
            obtain ⟨rfl, -⟩ := Prod.mk.inj heq
            exact List.forall_mem_cons.mpr
              ⟨ihValue _ _ _ _ hvalue, ihEntries _ _ _ _ hentries⟩
          · cases h

/-- `json.loads` returns well-formed values. -/
theorem loads_wellFormed {limit : ℕ} (h : loads limit text = .ok value) : value.WellFormed := by
  rw [loads] at h
  split at h
  · cases h
  · rename_i value' rest hread
    split at h
    · obtain rfl := Except.ok.inj h
      exact (wellFormed_of_read _).1 _ _ _ _ hread
    · cases h

end Values

end RelyLoop.Python.Decoder
