import RelyLoop.EcmaScript.JsonTrees
import RelyLoop.Python.JsonDecoder

/-!
# The tokens of a JSON text

The strings and numbers of JSON over code units, as `JSON.parse` reads them and `JSON.stringify`
writes them, and the tokens of a text for a given reader of atoms. A text that spells tokens, with
whitespace between them, has these tokens.
-/

namespace RelyLoop.EcmaScript

open Python JsonTree

/-- The character of a code unit. -/
def unitChar (u : UInt16) : Char := Char.ofNat u.toNat

/-! ## Strings -/

/-- The text of a string up to its closing quote, and the rest behind it. -/
def closeString : JsString → Option (JsString × JsString)
  | [] => none
  | u :: text =>
    if u = unit '"' then some ([], text)
    else if u = unit '\\' then
      match text with
      | [] => none
      | v :: text => (closeString text).map fun (body, rest) => (u :: v :: body, rest)
    else (closeString text).map fun (body, rest) => (u :: body, rest)

/-- The code units that the text of a string stands for. -/
def unescapeUnits : JsString → Option JsString
  | [] => some []
  | u :: text =>
    if u = unit '\\' then
      match text with
      | [] => none
      | letter :: text =>
        if letter = unit 'u' then
          match text with
          | a :: b :: c :: d :: text =>
            match readHex ([a, b, c, d].map unitChar) with
            | some (n, _) => (unescapeUnits text).map (UInt16.ofNat n :: ·)
            | none => none
          | _ => none
        else
          match unescape (unitChar letter) with
          | some c => (unescapeUnits text).map (unit c :: ·)
          | none => none
    else if u.toNat < 0x20 then none
    else (unescapeUnits text).map (u :: ·)

/-- A code unit of a string, for one that is no half of a pair. -/
def quoteUnit (u : UInt16) : JsString :=
  match shortEscape (unitChar u) with
  | some letter => [unit '\\', unit letter]
  | none =>
    if u.toNat < 0x20 ∨ 0xD800 ≤ u.toNat ∧ u.toNat < 0xE000 then
      unit '\\' :: unit 'u' :: (hexText u.toNat).map unit
    else [u]

/-- The code units of a string. -/
def quoteUnits : JsString → JsString
  | [] => []
  | [u] => quoteUnit u
  | u :: v :: s =>
    if 0xD800 ≤ u.toNat ∧ u.toNat < 0xDC00 ∧ 0xDC00 ≤ v.toNat ∧ v.toNat < 0xE000 then
      u :: v :: quoteUnits s
    else quoteUnit u ++ quoteUnits (v :: s)

/-- `QuoteJSONString`. -/
def quote (s : JsString) : JsString := unit '"' :: (quoteUnits s ++ [unit '"'])

/-! ## Atoms -/

/-- A constant, a number as it is spelled, or a string. -/
inductive Atom where
  | null
  | bool (b : Bool)
  | number (token : JsString)
  | str (s : JsString)
  deriving DecidableEq

/-- The code units of numbers and constants. -/
def isTokenUnit (u : UInt16) : Bool := isTokenChar (unitChar u)

/-- A number of JSON. -/
def isNumber (token : JsString) : Bool :=
  match Decoder.readInteger (token.map unitChar) with
  | none => false
  | some (_, rest) => (Decoder.readExponent (Decoder.readFraction rest).2).2.isEmpty

/-- A constant or a number. -/
def readScalar (token : JsString) : Option Atom :=
  if token = units "null" then some .null
  else if token = units "true" then some (.bool true)
  else if token = units "false" then some (.bool false)
  else if isNumber token then some (.number token)
  else none

/-- An atom and the rest of the text. -/
def readAtom : JsString → Option (Atom × JsString)
  | [] => none
  | u :: text =>
    if u = unit '"' then
      match closeString text with
      | none => none
      | some (body, rest) => (unescapeUnits body).map fun s => (.str s, rest)
    else
      (readScalar ((u :: text).takeWhile isTokenUnit)).map fun a =>
        (a, (u :: text).dropWhile isTokenUnit)

/-- An atom as it is spelled, and a string as `JSON.stringify` spells it. -/
def Atom.text : Atom → JsString
  | null => units "null"
  | bool true => units "true"
  | bool false => units "false"
  | number token => token
  | str s => quote s

/-! ## Tokens -/

/-- The whitespace of JSON. -/
def isJsonSpace (u : UInt16) : Bool :=
  u = unit ' ' || u = unit '\t' || u = unit '\n' || u = unit '\r'

variable {A : Type}

/-- The token of a punctuator. -/
def punctuator? (u : UInt16) : Option (Token A) :=
  if u = unit '\x7b' then some .lbrace
  else if u = unit '\x7d' then some .rbrace
  else if u = unit '[' then some .lbracket
  else if u = unit ']' then some .rbracket
  else if u = unit ':' then some .colon
  else if u = unit ',' then some .comma
  else none

/-- The tokens of a text. -/
def lex (readAtom : JsString → Option (A × JsString)) : ℕ → JsString → Option (List (Token A))
  | 0, _ => none
  | _ + 1, [] => some []
  | fuel + 1, u :: text =>
    match readAtom (u :: text) with
    | some (a, rest) => (lex readAtom fuel rest).map (.atom a :: ·)
    | none =>
      if isJsonSpace u then lex readAtom fuel text
      else
        match punctuator? u with
        | some token => (lex readAtom fuel text).map (token :: ·)
        | none => none

/-! ## Strings are read back -/

/-- A part of the text of a string, which does not close it. -/
def Inside (w : JsString) : Prop :=
  ∀ rest, closeString (w ++ rest) =
    (closeString rest).map fun (body, after) => (w ++ body, after)

theorem inside_nil : Inside [] := by
  intro rest
  rw [List.nil_append]
  cases closeString rest <;> rfl

theorem Inside.append {w w' : JsString} (h : Inside w) (h' : Inside w') : Inside (w ++ w') := by
  intro rest
  rw [List.append_assoc, h, h', Option.map_map]
  refine congrArg (fun k => (closeString rest).map k) (funext fun result => ?_)
  simp only [Function.comp_apply, List.append_assoc]

theorem inside_singleton {u : UInt16} (hquote : u ≠ unit '"') (hbackslash : u ≠ unit '\\') :
    Inside [u] := by
  intro rest
  rw [List.singleton_append, closeString.eq_def]
  simp only [hquote, hbackslash, if_false]
  rfl

theorem inside_escape (v : UInt16) : Inside [unit '\\', v] := by
  intro rest
  rw [List.cons_append, List.singleton_append, closeString.eq_def]
  simp only [show unit '\\' ≠ unit '"' by decide, if_false, if_true]
  rfl

/-- Code units that stand for themselves. -/
def IsPlain (w : JsString) : Prop :=
  ∀ u ∈ w, u ≠ unit '"' ∧ u ≠ unit '\\' ∧ ¬u.toNat < 0x20

theorem IsPlain.inside {w : JsString} (h : IsPlain w) : Inside w := by
  induction w with
  | nil => exact inside_nil
  | cons u w ih =>
    obtain ⟨⟨hquote, hbackslash, -⟩, hw⟩ := List.forall_mem_cons.mp h
    exact (inside_singleton hquote hbackslash).append (ih hw)

theorem IsPlain.unescapeUnits_append {w : JsString} (h : IsPlain w) (rest : JsString) :
    unescapeUnits (w ++ rest) = (unescapeUnits rest).map (w ++ ·) := by
  induction w with
  | nil => simp
  | cons u w ih =>
    obtain ⟨⟨-, hbackslash, hcontrol⟩, hw⟩ := List.forall_mem_cons.mp h
    rw [List.cons_append, unescapeUnits.eq_def]
    simp only [hbackslash, hcontrol, if_false, ih hw, Option.map_map]
    rfl

theorem closeString_append {w : JsString} (h : Inside w) (rest : JsString) :
    closeString (w ++ unit '"' :: rest) = some (w, rest) := by
  have hclose : closeString (unit '"' :: rest) = some ([], rest) := by
    rw [closeString.eq_def]
    exact if_pos rfl
  rw [h, hclose, Option.map_some]
  simp only [List.append_nil]

theorem shortEscape_eq_none {c : Char} (h : 0x80 ≤ c.toNat) : shortEscape c = none := by
  have hne : ∀ d : Char, d.toNat < 0x80 → c ≠ d := by
    rintro d hd rfl
    omega
  rw [shortEscape, if_neg (not_or.mpr ⟨hne _ (by decide), hne _ (by decide)⟩),
    if_neg (hne _ (by decide)), if_neg (hne _ (by decide)), if_neg (hne _ (by decide)),
    if_neg (by omega), if_neg (by omega)]

theorem unitChar_toNat {u : UInt16} (h : ¬(0xD800 ≤ u.toNat ∧ u.toNat < 0xE000)) :
    (unitChar u).toNat = u.toNat := by
  refine Text.toNat_charOfNat ?_
  have hlt := u.toNat_lt
  unfold Nat.isValidChar
  omega

theorem unit_unitChar {u : UInt16} (h : ¬(0xD800 ≤ u.toNat ∧ u.toNat < 0xE000)) :
    unit (unitChar u) = u := by
  rw [unit, unitChar_toNat h, UInt16.ofNat_toNat]

theorem unitChar_of_surrogate {u : UInt16} (h : 0xD800 ≤ u.toNat ∧ u.toNat < 0xE000) :
    unitChar u = Char.ofNat 0 := by
  have hinvalid : ¬u.toNat.isValidChar := by
    unfold Nat.isValidChar
    omega
  rw [unitChar, Char.ofNat, dif_neg hinvalid]
  rfl

/-- Only code units of ASCII have short escapes, whose letters are read as they should. -/
theorem shortEscape_unitChar {u : UInt16} {letter : Char}
    (h : shortEscape (unitChar u) = some letter) :
    unit (unitChar u) = u ∧ unit letter ≠ unit 'u' ∧ unitChar (unit letter) = letter := by
  have hsurrogate : ¬(0xD800 ≤ u.toNat ∧ u.toNat < 0xE000) := by
    intro hsurrogate
    rw [unitChar_of_surrogate hsurrogate] at h
    cases h
  have hsmall : u.toNat < 0x80 := by
    by_contra hlarge
    rw [shortEscape_eq_none (by rw [unitChar_toNat hsurrogate]; omega)] at h
    cases h
  have hall : ∀ n : Fin 0x80, (shortEscape (Char.ofNat n)).all (fun letter =>
      decide (unit letter ≠ unit 'u' ∧ unitChar (unit letter) = letter)) = true := by decide
  have hletter := (Option.all_eq_true _ _).mp (hall ⟨u.toNat, hsmall⟩) letter h
  exact ⟨unit_unitChar hsurrogate, of_decide_eq_true hletter⟩

/-- The hexadecimal digits of a code unit. -/
theorem unescapeUnits_hex (u : UInt16) (rest : JsString) :
    unescapeUnits (unit '\\' :: unit 'u' :: ((hexText u.toNat).map unit ++ rest)) =
      (unescapeUnits rest).map (u :: ·) := by
  have hdigit : ∀ k : Fin 16, unitChar (unit (hexDigit k)) = hexDigit k := by decide
  have hread := readHex_hexText u.toNat_lt []
  have hchars (n : ℕ) : unitChar (unit (hexDigit (n % 16))) = hexDigit (n % 16) :=
    hdigit ⟨n % 16, Nat.mod_lt _ (by decide)⟩
  rw [unescapeUnits.eq_def]
  simp only [hexText, List.append_nil] at hread
  simp only [hexText, List.map_cons, List.map_nil, List.cons_append, List.nil_append, if_true,
    hchars, hread, UInt16.ofNat_toNat]

theorem inside_hex (n : ℕ) : Inside (unit '\\' :: unit 'u' :: (hexText n).map unit) := by
  have hdigit : ∀ k : Fin 16, unit (hexDigit k) ≠ unit '"' ∧ unit (hexDigit k) ≠ unit '\\' := by
    decide
  have hinside (n : ℕ) : Inside [unit (hexDigit (n % 16))] :=
    inside_singleton (hdigit ⟨n % 16, Nat.mod_lt _ (by decide)⟩).1
      (hdigit ⟨n % 16, Nat.mod_lt _ (by decide)⟩).2
  exact (inside_escape (unit 'u')).append
    ((hinside _).append ((hinside _).append ((hinside _).append (hinside _))))

/-- A code unit is inside of a string, and read back. -/
theorem quoteUnit_spec (u : UInt16) : Inside (quoteUnit u) ∧ ∀ rest,
    unescapeUnits (quoteUnit u ++ rest) = (unescapeUnits rest).map (u :: ·) := by
  rw [quoteUnit]
  split
  · rename_i letter hletter
    obtain ⟨hunit, hu, hchar⟩ := shortEscape_unitChar hletter
    have hunescape := (unescape_shortEscape hletter).2
    refine ⟨inside_escape _, fun rest => ?_⟩
    rw [List.cons_append, List.singleton_append, unescapeUnits.eq_def]
    simp only [if_true, hu, if_false, hchar, hunescape, hunit]
  · rename_i hnone
    split
    · exact ⟨inside_hex _, fun rest => unescapeUnits_hex u rest⟩
    · rename_i hraw
      have hplain : IsPlain [u] := by
        intro v hv
        obtain rfl := List.mem_singleton.mp hv
        refine ⟨?_, ?_, fun h => hraw (Or.inl h)⟩
        · rintro rfl
          cases hnone
        · rintro rfl
          cases hnone
      exact ⟨hplain.inside, fun rest => hplain.unescapeUnits_append rest⟩

theorem isPlain_pair {u v : UInt16} (h : 0xD800 ≤ u.toNat ∧ u.toNat < 0xDC00 ∧ 0xDC00 ≤ v.toNat ∧
    v.toNat < 0xE000) : IsPlain [u, v] := by
  have hne (w : UInt16) (hw : 0xD800 ≤ w.toNat) :
      w ≠ unit '"' ∧ w ≠ unit '\\' ∧ ¬w.toNat < 0x20 := by
    refine ⟨?_, ?_, by omega⟩
    · rintro rfl
      exact absurd hw (by decide)
    · rintro rfl
      exact absurd hw (by decide)
  intro w hw
  simp only [List.mem_cons, List.not_mem_nil, or_false] at hw
  rcases hw with rfl | rfl
  · exact hne w h.1
  · exact hne w (by omega)

/-- The code units of a string are inside of it, and read back. -/
theorem quoteUnits_spec (s : JsString) : Inside (quoteUnits s) ∧ ∀ rest,
    unescapeUnits (quoteUnits s ++ rest) = (unescapeUnits rest).map (s ++ ·) := by
  induction s using quoteUnits.induct with
  | case1 => exact ⟨inside_nil, fun rest => by simp [quoteUnits]⟩
  | case2 u => exact quoteUnit_spec u
  | case3 u v s hpair ih =>
    have hplain := isPlain_pair hpair
    rw [quoteUnits, if_pos hpair]
    refine ⟨hplain.inside.append ih.1, fun rest => ?_⟩
    have hrest := hplain.unescapeUnits_append (quoteUnits s ++ rest)
    rw [ih.2, Option.map_map] at hrest
    exact hrest
  | case4 u v s hpair ih =>
    obtain ⟨hinside, hread⟩ := quoteUnit_spec u
    rw [quoteUnits, if_neg hpair]
    refine ⟨hinside.append ih.1, fun rest => ?_⟩
    rw [List.append_assoc, hread, ih.2, Option.map_map]
    rfl

/-- Code units that need no escape are those of the string. -/
theorem quoteUnits_eq_self {s : JsString} (h : ∀ u ∈ s, u.toNat < 0xD800 ∧ quoteUnit u = [u]) :
    quoteUnits s = s := by
  induction s using quoteUnits.induct with
  | case1 => rfl
  | case2 u => exact (h u List.mem_cons_self).2
  | case3 u v s hpair ih => exact absurd (h u List.mem_cons_self).1 (by omega)
  | case4 u v s hpair ih =>
    rw [quoteUnits, if_neg hpair, (h u List.mem_cons_self).2,
      ih fun w hw => h w (List.mem_cons_of_mem u hw), List.singleton_append]

/-- A string is read back. -/
theorem readAtom_quote (s rest : JsString) : readAtom (quote s ++ rest) = some (.str s, rest) := by
  obtain ⟨hinside, hread⟩ := quoteUnits_spec s
  have hunescape := hread []
  rw [List.append_nil] at hunescape
  rw [quote, List.cons_append, List.append_assoc, List.singleton_append, readAtom, if_pos rfl,
    closeString_append hinside]
  simp [hunescape, unescapeUnits]

/-! ## Quotes in strings -/

/-- A part of a string that fails if what follows fails. -/
def Passes (w : JsString) : Prop :=
  Inside w ∧ ∀ rest, unescapeUnits rest = none → unescapeUnits (w ++ rest) = none

theorem passes_of_spec {w s : JsString} (h : Inside w ∧ ∀ rest,
    unescapeUnits (w ++ rest) = (unescapeUnits rest).map (s ++ ·)) : Passes w := by
  refine ⟨h.1, fun rest hrest => ?_⟩
  rw [h.2, hrest, Option.map_none]

theorem passes_quoteUnit (u : UInt16) : Passes (quoteUnit u) :=
  passes_of_spec (s := [u]) (quoteUnit_spec u)

theorem Passes.append {w w' : JsString} (h : Passes w) (h' : Passes w') : Passes (w ++ w') := by
  refine ⟨h.1.append h'.1, fun rest hrest => ?_⟩
  rw [List.append_assoc]
  exact h.2 _ (h'.2 rest hrest)

theorem quoteUnit_of_mem {u : UInt16} (h : unit '"' ∈ quoteUnit u) :
    quoteUnit u = [unit '\\', unit '"'] := by
  rw [quoteUnit] at h ⊢
  split at h
  · rename_i letter hletter
    rw [List.mem_cons, List.mem_singleton] at h
    exact congrArg (fun v => [unit '\\', v]) (h.resolve_left (by decide)).symm
  · rename_i hnone
    split at h
    · have hdigit : ∀ k : Fin 16, unit (hexDigit k) ≠ unit '"' := by decide
      have hne (n : ℕ) : unit '"' ≠ unit (hexDigit (n % 16)) :=
        (hdigit ⟨n % 16, Nat.mod_lt _ (by decide)⟩).symm
      have hopen : unit '"' ≠ unit '\\' ∧ unit '"' ≠ unit 'u' := by decide
      simp [hexText, hne, hopen] at h
    · obtain rfl := List.mem_singleton.mp h
      cases hnone

/-- Before a quote in the text of a string stands its escape. -/
theorem exists_passes_of_chunk {chunk more x : JsString} (hchunk : Passes chunk)
    (hquote : unit '"' ∈ chunk → chunk = [unit '\\', unit '"'])
    (hmore : ∀ x', x' ++ [unit '"'] <+: more → ∃ w, x' = w ++ [unit '\\'] ∧ Passes w)
    (h : x ++ [unit '"'] <+: chunk ++ more) : ∃ w, x = w ++ [unit '\\'] ∧ Passes w := by
  have hlater (x' : JsString) (hx : x = chunk ++ x') (hbegins : x' ++ [unit '"'] <+: more) :
      ∃ w, x = w ++ [unit '\\'] ∧ Passes w := by
    obtain ⟨w, rfl, hw⟩ := hmore x' hbegins
    exact ⟨chunk ++ w, by rw [hx, List.append_assoc], hchunk.append hw⟩
  obtain ⟨after, hafter⟩ := h
  rw [List.append_assoc, List.singleton_append] at hafter
  rcases List.append_eq_append_iff.mp hafter with ⟨between, hx, hbetween⟩ | ⟨x', hx, hx'⟩
  · cases between with
    | nil =>
      rw [List.append_nil] at hx
      rw [List.nil_append] at hbetween
      exact hlater [] (by rw [hx, List.append_nil]) ⟨after, hbetween⟩
    | cons v between =>
      obtain ⟨rfl, -⟩ := List.cons.inj hbetween
      have hescape := hquote (by rw [hx]; simp)
      rw [hescape] at hx
      cases x with
      | nil => exact absurd (List.cons.inj hx).1 (by decide)
      | cons v x =>
        obtain ⟨rfl, -⟩ := List.cons.inj hx
        have hlength := congrArg List.length hx
        simp only [List.length_append, List.length_cons, List.length_nil] at hlength
        obtain rfl : x = [] := List.eq_nil_of_length_eq_zero (by omega)
        exact ⟨[], rfl, passes_of_spec (s := []) ⟨inside_nil, fun rest => by simp⟩⟩
  · exact hlater x' hx ⟨after, by rw [hx', List.append_assoc, List.singleton_append]⟩

/-- A quote in the text of a string is escaped, and what stands before its escape is text. -/
theorem exists_passes_of_prefix {s x : JsString} (h : x ++ [unit '"'] <+: quoteUnits s) :
    ∃ w, x = w ++ [unit '\\'] ∧ Passes w := by
  induction s using quoteUnits.induct generalizing x with
  | case1 =>
    rw [quoteUnits, List.prefix_nil] at h
    exact absurd h (by simp)
  | case2 u =>
    rw [quoteUnits, ← List.append_nil (quoteUnit u)] at h
    refine exists_passes_of_chunk (passes_quoteUnit u) quoteUnit_of_mem (fun x' h' => ?_) h
    exact absurd (List.prefix_nil.mp h') (by simp)
  | case3 u v s hpair ih =>
    have hplain := isPlain_pair hpair
    have hspec : Inside [u, v] ∧ ∀ rest,
        unescapeUnits ([u, v] ++ rest) = (unescapeUnits rest).map ([u, v] ++ ·) :=
      ⟨hplain.inside, hplain.unescapeUnits_append⟩
    rw [quoteUnits, if_pos hpair] at h
    refine exists_passes_of_chunk (passes_of_spec hspec) (fun hmem => ?_) (fun _ => ih) h
    exact absurd rfl (hplain _ hmem).1
  | case4 u v s hpair ih =>
    rw [quoteUnits, if_neg hpair] at h
    exact exists_passes_of_chunk (passes_quoteUnit u) quoteUnit_of_mem (fun _ => ih) h

/-- A string with an escape that there is not is no atom. -/
theorem readAtom_of_passes {w : JsString} (h : Passes w) {v : UInt16} (hv : v ≠ unit 'u')
    (hnone : unescape (unitChar v) = none) (more : JsString) :
    readAtom (unit '"' :: (w ++ unit '\\' :: v :: more)) = none := by
  have hbody (body : JsString) : unescapeUnits (unit '\\' :: v :: body) = none := by
    rw [unescapeUnits.eq_def]
    simp only [if_true, if_neg hv, hnone]
  have hclose := inside_escape v more
  rw [List.cons_append, List.singleton_append] at hclose
  rw [readAtom, if_pos rfl, h.1, hclose, Option.map_map]
  cases closeString more with
  | none => rfl
  | some result => simp [h.2 _ (hbody result.1)]

/-! ## Atoms are read back -/

/-- The text goes on with no code unit of a number or a constant. -/
def Stops (rest : JsString) : Prop := ∀ u ∈ rest.head?, isTokenUnit u = false

/-- A number is one of JSON. -/
def Atom.Valid : Atom → Prop
  | number token => readScalar token = some (.number token) ∧ ∀ u ∈ token, isTokenUnit u = true
  | _ => True

theorem readScalar_nil : readScalar [] = none := rfl

/-- A run of code units of numbers and constants ends where the text stops. -/
theorem takeWhile_token {token rest : JsString} (htoken : ∀ u ∈ token, isTokenUnit u = true)
    (hrest : Stops rest) : (token ++ rest).takeWhile isTokenUnit = token ∧
      (token ++ rest).dropWhile isTokenUnit = rest := by
  have hstop : rest.takeWhile isTokenUnit = [] ∧ rest.dropWhile isTokenUnit = rest := by
    cases rest with
    | nil => exact ⟨rfl, rfl⟩
    | cons u rest =>
      have hu : isTokenUnit u = false := hrest u rfl
      exact ⟨List.takeWhile_cons_of_neg (by simp [hu]), List.dropWhile_cons_of_neg (by simp [hu])⟩
  rw [List.takeWhile_append_of_pos htoken, List.dropWhile_append_of_pos htoken, hstop.1, hstop.2,
    List.append_nil]
  exact ⟨rfl, rfl⟩

/-- A constant or a number is read up to a code unit of none. -/
theorem readAtom_token {token rest : JsString} {a : Atom} (hread : readScalar token = some a)
    (htoken : ∀ u ∈ token, isTokenUnit u = true) (hrest : Stops rest) :
    readAtom (token ++ rest) = some (a, rest) := by
  obtain ⟨htake, hdrop⟩ := takeWhile_token htoken hrest
  cases token with
  | nil => cases hread
  | cons u token =>
    have hquote : u ≠ unit '"' := by
      rintro rfl
      exact absurd (htoken _ List.mem_cons_self) (by decide)
    rw [List.cons_append] at htake hdrop ⊢
    rw [readAtom, if_neg hquote, htake, hdrop, hread, Option.map_some]

/-- What is spelled for an atom is read back. -/
theorem Atom.readAtom_text {a : Atom} (h : a.Valid) {rest : JsString} (hrest : Stops rest) :
    readAtom (a.text ++ rest) = some (a, rest) := by
  cases a with
  | null => exact readAtom_token rfl (List.all_eq_true.mp rfl) hrest
  | bool b =>
    cases b
    · exact readAtom_token rfl (List.all_eq_true.mp rfl) hrest
    · exact readAtom_token rfl (List.all_eq_true.mp rfl) hrest
  | number token => exact readAtom_token h.1 h.2 hrest
  | str s => exact readAtom_quote s rest

theorem readScalar_cases {token : JsString} {a : Atom} (h : readScalar token = some a) :
    a = .null ∨ (∃ b, a = .bool b) ∨ a = .number token := by
  rw [readScalar] at h
  split at h
  · exact Or.inl (Option.some.inj h).symm
  split at h
  · exact Or.inr (Or.inl ⟨_, (Option.some.inj h).symm⟩)
  split at h
  · exact Or.inr (Or.inl ⟨_, (Option.some.inj h).symm⟩)
  split at h
  · exact Or.inr (Or.inr (Option.some.inj h).symm)
  · cases h

/-- Atoms are read with numbers of JSON. -/
theorem valid_of_readAtom {text rest : JsString} {a : Atom} (h : readAtom text = some (a, rest)) :
    a.Valid := by
  cases text with
  | nil => cases h
  | cons u text =>
    rw [readAtom] at h
    split at h
    · split at h
      · cases h
      · obtain ⟨s, -, heq⟩ := Option.map_eq_some_iff.mp h
        obtain ⟨rfl, -⟩ := Prod.mk.inj heq
        trivial
    · obtain ⟨a', hread, heq⟩ := Option.map_eq_some_iff.mp h
      obtain ⟨rfl, -⟩ := Prod.mk.inj heq
      rcases readScalar_cases hread with rfl | ⟨b, rfl⟩ | rfl
      · trivial
      · trivial
      · exact ⟨hread, fun u hu => List.mem_takeWhile_imp hu⟩

/-! ## Texts of tokens -/

theorem lex_of_atom {readAtom : JsString → Option (A × JsString)} {text rest : JsString} {a : A}
    (hne : text ≠ []) (h : readAtom text = some (a, rest)) (fuel : ℕ) :
    lex readAtom (fuel + 1) text = (lex readAtom fuel rest).map (.atom a :: ·) := by
  obtain ⟨u, text, rfl⟩ := List.exists_cons_of_ne_nil hne
  rw [lex, h]

theorem lex_of_none {readAtom : JsString → Option (A × JsString)} {u : UInt16} {text : JsString}
    (h : readAtom (u :: text) = none) (fuel : ℕ) :
    lex readAtom (fuel + 1) (u :: text) =
      if isJsonSpace u then lex readAtom fuel text
      else (punctuator? u).bind fun token => (lex readAtom fuel text).map (token :: ·) := by
  rw [lex, h]
  dsimp only
  cases punctuator? (A := A) u <;> rfl

/-- Punctuators are the same for all atoms. -/
theorem punctuator?_map {A' : Type} (f : A → A') (u : UInt16) :
    punctuator? u = (punctuator? u).map (Token.map f) := by
  unfold punctuator?
  split_ifs <;> rfl

/-- The token of a punctuator is its own. -/
theorem punctuator?_ne_atom {u : UInt16} {a : A} : punctuator? u ≠ some (.atom a) := by
  unfold punctuator?
  split_ifs <;> simp

theorem punctuator?_of_isJsonSpace {u : UInt16} (h : isJsonSpace u = true) :
    punctuator? (A := A) u = none := by
  simp only [isJsonSpace, Bool.or_eq_true, decide_eq_true_eq, or_assoc] at h
  rcases h with rfl | rfl | rfl | rfl <;> rfl

/-- An atom at the head of the text is at the head of the tokens. -/
theorem head_of_readAtom {readAtom : JsString → Option (A × JsString)} {fuel : ℕ}
    {text rest : JsString} {found : List (Token A)} {a : A} (hne : text ≠ [])
    (hread : readAtom text = some (a, rest)) (h : lex readAtom fuel text = some found) :
    found.head? = some (.atom a) := by
  cases fuel with
  | zero => cases h
  | succ fuel =>
    rw [lex_of_atom hne hread] at h
    obtain ⟨found', -, rfl⟩ := Option.map_eq_some_iff.mp h
    rfl

/-- An atom at the head of the tokens is read at the head of the text. -/
theorem readAtom_of_head {readAtom : JsString → Option (A × JsString)} {fuel : ℕ} {u : UInt16}
    {text : JsString} {found : List (Token A)} {a : A}
    (h : lex readAtom fuel (u :: text) = some found) (hspace : isJsonSpace u = false)
    (hhead : found.head? = some (.atom a)) :
    ∃ rest, readAtom (u :: text) = some (a, rest) := by
  cases fuel with
  | zero => cases h
  | succ fuel =>
    cases hatom : readAtom (u :: text) with
    | some result =>
      obtain ⟨a', rest⟩ := result
      rw [lex_of_atom (List.cons_ne_nil u text) hatom] at h
      obtain ⟨found', -, rfl⟩ := Option.map_eq_some_iff.mp h
      obtain rfl := Token.atom.inj (Option.some.inj hhead)
      exact ⟨rest, rfl⟩
    | none =>
      rw [lex_of_none hatom, if_neg (by simp [hspace])] at h
      obtain ⟨token, htoken, hrest⟩ := Option.bind_eq_some_iff.mp h
      obtain ⟨found', -, rfl⟩ := Option.map_eq_some_iff.mp hrest
      obtain rfl := Option.some.inj hhead
      exact absurd htoken punctuator?_ne_atom

/-- What holds of every atom that is read holds of the atoms of a text. -/
theorem forall_of_lex {readAtom : JsString → Option (A × JsString)} {P : A → Prop}
    (hread : ∀ text a rest, readAtom text = some (a, rest) → P a) {fuel : ℕ} {text : JsString}
    {tokens : List (Token A)} (h : lex readAtom fuel text = some tokens) :
    ∀ a, .atom a ∈ tokens → P a := by
  induction fuel generalizing text tokens with
  | zero => cases h
  | succ fuel ih =>
    cases text with
    | nil =>
      obtain rfl := Option.some.inj h
      exact fun a ha => absurd ha List.not_mem_nil
    | cons u text =>
      cases hatom : readAtom (u :: text) with
      | some result =>
        obtain ⟨a, rest⟩ := result
        rw [lex_of_atom (List.cons_ne_nil u text) hatom] at h
        obtain ⟨tokens', htokens', rfl⟩ := Option.map_eq_some_iff.mp h
        intro b hb
        rcases List.mem_cons.mp hb with heq | hb
        · obtain rfl := Token.atom.inj heq
          exact hread _ _ _ hatom
        · exact ih htokens' b hb
      | none =>
        rw [lex_of_none hatom] at h
        split at h
        · exact ih h
        · obtain ⟨token, htoken, hrest⟩ := Option.bind_eq_some_iff.mp h
          obtain ⟨tokens', htokens', rfl⟩ := Option.map_eq_some_iff.mp hrest
          intro b hb
          rcases List.mem_cons.mp hb with rfl | hb
          · exact absurd htoken punctuator?_ne_atom
          · exact ih htokens' b hb

section Spells

variable (text : A → JsString)

/-- A text of tokens, with whitespace between them. Braces are not doubled, and atoms end. -/
inductive Spells : List (Token A) → JsString → Prop
  | nil : Spells [] []
  | space {u : UInt16} {tokens : List (Token A)} {rest : JsString} (hspace : isJsonSpace u = true)
      (hrest : Spells tokens rest) : Spells tokens (u :: rest)
  | punctuator {u : UInt16} {token : Token A} {tokens : List (Token A)} {rest : JsString}
      (htoken : punctuator? u = some token)
      (hbrace : u = unit '\x7b' → rest.head? ≠ some (unit '\x7b'))
      (hrest : Spells tokens rest) : Spells (token :: tokens) (u :: rest)
  | atom {a : A} {tokens : List (Token A)} {rest : JsString} (hstops : Stops rest)
      (hrest : Spells tokens rest) : Spells (.atom a :: tokens) (text a ++ rest)

variable {text} {readAtom : JsString → Option (A × JsString)}

/-- The tokens of a text that spells them. -/
theorem lex_of_spells {tokens : List (Token A)} {x : JsString} (h : Spells text tokens x)
    (hatom : ∀ a, .atom a ∈ tokens → text a ≠ [] ∧
      ∀ rest, Stops rest → readAtom (text a ++ rest) = some (a, rest))
    (hmark : ∀ u rest, isJsonSpace u = true ∨ punctuator? (A := A) u ≠ none →
      (u = unit '\x7b' → rest.head? ≠ some (unit '\x7b')) → readAtom (u :: rest) = none)
    {fuel : ℕ} (hfuel : x.length < fuel) : lex readAtom fuel x = some tokens := by
  induction h generalizing fuel with
  | nil =>
    obtain ⟨fuel, rfl⟩ := Nat.exists_eq_succ_of_ne_zero (Nat.ne_of_gt hfuel)
    rfl
  | @space u tokens rest hspace _ ih =>
    obtain ⟨fuel, rfl⟩ := Nat.exists_eq_succ_of_ne_zero (Nat.ne_of_gt (Nat.zero_lt_of_lt hfuel))
    have hbrace : u = unit '\x7b' → rest.head? ≠ some (unit '\x7b') := by
      rintro rfl
      exact absurd hspace (by decide)
    rw [lex_of_none (hmark u rest (Or.inl hspace) hbrace), if_pos hspace]
    exact ih hatom (Nat.lt_of_succ_lt_succ hfuel)
  | @punctuator u token tokens rest htoken hbrace _ ih =>
    obtain ⟨fuel, rfl⟩ := Nat.exists_eq_succ_of_ne_zero (Nat.ne_of_gt (Nat.zero_lt_of_lt hfuel))
    have hsome : punctuator? (A := A) u ≠ none := by
      rw [htoken]
      exact Option.some_ne_none _
    have hspace : ¬isJsonSpace u = true := fun hspace => hsome (punctuator?_of_isJsonSpace hspace)
    rw [lex_of_none (hmark u rest (Or.inr hsome) hbrace), if_neg hspace, htoken, Option.bind_some,
      ih (fun a ha => hatom a (List.mem_cons_of_mem _ ha)) (Nat.lt_of_succ_lt_succ hfuel)]
    rfl
  | @atom a tokens rest hstops _ ih =>
    obtain ⟨hne, hread⟩ := hatom a List.mem_cons_self
    obtain ⟨fuel, rfl⟩ := Nat.exists_eq_succ_of_ne_zero (Nat.ne_of_gt (Nat.zero_lt_of_lt hfuel))
    have hpos := List.length_pos_of_ne_nil hne
    have happend : text a ++ rest ≠ [] := List.append_ne_nil_of_left_ne_nil hne rest
    rw [List.length_append] at hfuel
    rw [lex_of_atom happend (hread rest hstops),
      ih (fun a ha => hatom a (List.mem_cons_of_mem _ ha)) (by omega)]
    rfl

/-- In a text that spells tokens, all atoms are read back, or lexing comes to the first that is
not. -/
theorem lex_of_spells_or {B : Type} {text : B → JsString} {decode : B → A} {good : B → Prop}
    {tokens : List (Token B)} {x : JsString} (h : Spells text tokens x)
    (hatom : ∀ b, .atom b ∈ tokens → good b → text b ≠ [] ∧
      ∀ rest, Stops rest → readAtom (text b ++ rest) = some (decode b, rest))
    (hmark : ∀ u rest, isJsonSpace u = true ∨ punctuator? (A := A) u ≠ none →
      (u = unit '\x7b' → rest.head? ≠ some (unit '\x7b')) → readAtom (u :: rest) = none)
    {fuel : ℕ} (hfuel : x.length < fuel) {found : List (Token A)}
    (hfound : lex readAtom fuel x = some found) :
    (∀ b, .atom b ∈ tokens → good b) ∧ found = tokens.map (Token.map decode) ∨
      ∃ b rest fuel' found', .atom b ∈ tokens ∧ ¬good b ∧ Stops rest ∧
        lex readAtom fuel' (text b ++ rest) = some found' ∧
        (found = tokens.map (Token.map decode) → found'.head? = some (.atom (decode b))) := by
  induction h generalizing fuel found with
  | nil =>
    obtain ⟨fuel, rfl⟩ := Nat.exists_eq_succ_of_ne_zero (Nat.ne_of_gt hfuel)
    obtain rfl := Option.some.inj hfound
    exact Or.inl ⟨fun b hb => absurd hb List.not_mem_nil, rfl⟩
  | @space u tokens rest hspace _ ih =>
    obtain ⟨fuel, rfl⟩ := Nat.exists_eq_succ_of_ne_zero (Nat.ne_of_gt (Nat.zero_lt_of_lt hfuel))
    have hbrace : u = unit '\x7b' → rest.head? ≠ some (unit '\x7b') := by
      rintro rfl
      exact absurd hspace (by decide)
    rw [lex_of_none (hmark u rest (Or.inl hspace) hbrace), if_pos hspace] at hfound
    exact ih hatom (Nat.lt_of_succ_lt_succ hfuel) hfound
  | @punctuator u token tokens rest htoken hbrace _ ih =>
    obtain ⟨fuel, rfl⟩ := Nat.exists_eq_succ_of_ne_zero (Nat.ne_of_gt (Nat.zero_lt_of_lt hfuel))
    have htoken' : punctuator? u = some (token.map decode) := by
      rw [punctuator?_map decode, htoken, Option.map_some]
    have hsome : punctuator? (A := A) u ≠ none := by
      rw [htoken']
      exact Option.some_ne_none _
    have hspace : ¬isJsonSpace u = true := fun hspace => hsome (punctuator?_of_isJsonSpace hspace)
    rw [lex_of_none (hmark u rest (Or.inr hsome) hbrace), if_neg hspace, htoken',
      Option.bind_some] at hfound
    obtain ⟨found', hfound', rfl⟩ := Option.map_eq_some_iff.mp hfound
    have hne (b : B) : token ≠ .atom b := by
      rintro rfl
      exact punctuator?_ne_atom htoken
    rcases ih (fun b hb => hatom b (List.mem_cons_of_mem _ hb)) (Nat.lt_of_succ_lt_succ hfuel)
      hfound' with ⟨hgood, rfl⟩ | ⟨b, after, fuel', found'', hb, hrest⟩
    · refine Or.inl ⟨fun b hb => ?_, rfl⟩
      exact hgood b ((List.mem_cons.mp hb).resolve_left fun heq => hne b heq.symm)
    · obtain ⟨hbad, hstops, hlex, hhead⟩ := hrest
      refine Or.inr ⟨b, after, fuel', found'', List.mem_cons_of_mem _ hb, hbad, hstops, hlex, ?_⟩
      exact fun heq => hhead (List.cons.inj heq).2
  | @atom b tokens rest hstops _ ih =>
    by_cases hgood : good b
    · obtain ⟨hne, hread⟩ := hatom b List.mem_cons_self hgood
      obtain ⟨fuel, rfl⟩ := Nat.exists_eq_succ_of_ne_zero (Nat.ne_of_gt (Nat.zero_lt_of_lt hfuel))
      have hpos := List.length_pos_of_ne_nil hne
      have happend : text b ++ rest ≠ [] := List.append_ne_nil_of_left_ne_nil hne rest
      rw [List.length_append] at hfuel
      rw [lex_of_atom happend (hread rest hstops)] at hfound
      obtain ⟨found', hfound', rfl⟩ := Option.map_eq_some_iff.mp hfound
      rcases ih (fun b hb => hatom b (List.mem_cons_of_mem _ hb)) (by omega) hfound' with
        ⟨hall, rfl⟩ | ⟨b', after, fuel', found'', hb, hrest⟩
      · refine Or.inl ⟨fun b' hb => ?_, rfl⟩
        rcases List.mem_cons.mp hb with heq | hb
        · rwa [Token.atom.inj heq]
        · exact hall b' hb
      · obtain ⟨hbad, hstops', hlex, hhead⟩ := hrest
        exact Or.inr ⟨b', after, fuel', found'', List.mem_cons_of_mem _ hb, hbad, hstops', hlex,
          fun heq => hhead (List.cons.inj heq).2⟩
    · refine Or.inr ⟨b, rest, fuel, found, List.mem_cons_self, hgood, hstops, hfound, ?_⟩
      rintro rfl
      rfl

theorem spells_newline {tokens : List (Token A)} {rest : JsString} (h : Spells text tokens rest)
    (level : ℕ) : Spells text tokens (newline level ++ rest) := by
  have hspaces (n : ℕ) : Spells text tokens (List.replicate n (unit ' ') ++ rest) := by
    induction n with
    | zero => exact h
    | succ n ih => exact Spells.space (by decide) ih
  exact Spells.space (by decide) (hspaces _)

/-- Behind a tree there is nothing, a line break, a comma or a colon. -/
def Ends (rest : JsString) : Prop :=
  ∀ u ∈ rest.head?, u = unit '\n' ∨ u = unit ',' ∨ u = unit ':'

theorem Ends.stops {rest : JsString} (h : Ends rest) : Stops rest := by
  intro u hu
  rcases h u hu with rfl | rfl | rfl <;> decide

theorem ends_cons {u : UInt16} (h : u = unit '\n' ∨ u = unit ',' ∨ u = unit ':')
    (rest : JsString) : Ends (u :: rest) := by
  intro v hv
  obtain rfl : u = v := Option.some.inj hv
  exact h

theorem ends_newline (level : ℕ) (rest : JsString) : Ends (newline level ++ rest) :=
  ends_cons (Or.inl rfl) _

/-- Brackets around a text of tokens. -/
theorem spells_brackets {opening closing : Char} {left right : Token A} {level : ℕ}
    {isEmpty : Bool} {body : JsString} {inner tokens : List (Token A)} {rest : JsString}
    (hopening : punctuator? (unit opening) = some left)
    (hclosing : punctuator? (unit closing) = some right)
    (hbrace : unit closing ≠ unit '\x7b') (hempty : isEmpty = true → inner = [])
    (hbody : ∀ tokens rest, Spells text tokens rest → Ends rest →
      Spells text (inner ++ tokens) (body ++ rest))
    (hrest : Spells text tokens rest) :
    Spells text (left :: (inner ++ right :: tokens))
      (brackets opening closing level isEmpty body ++ rest) := by
  have hclose : Spells text (right :: tokens) (unit closing :: rest) :=
    Spells.punctuator hclosing (fun h => absurd h hbrace) hrest
  rw [brackets]
  split
  · rename_i htrue
    rw [hempty htrue]
    refine Spells.punctuator hopening (fun _ hhead => ?_) hclose
    exact hbrace (Option.some.inj hhead)
  · have hinner := hbody _ _ (spells_newline hclose level) (ends_newline level _)
    have houter := spells_newline hinner (level + 1)
    simp only [List.cons_append, List.append_assoc, List.nil_append]
    refine Spells.punctuator hopening (fun _ hhead => ?_) houter
    exact absurd (Option.some.inj hhead) (by decide)

variable {K : Type} {atomOf : K → A}

mutual

/-- What is written for a tree spells its tokens. -/
theorem spells_write (level : ℕ) (tree : JsonTree K A) {tokens : List (Token A)} {rest : JsString}
    (hrest : Spells text tokens rest) (hends : Ends rest) :
    Spells text (tree.tokens atomOf ++ tokens)
      (write (fun key => text (atomOf key)) text level tree ++ rest) := by
  cases tree with
  | atom a =>
    rw [write]
    exact Spells.atom hends.stops hrest
  | array items =>
    rw [write, JsonTree.tokens, List.cons_append, List.append_assoc]
    refine spells_brackets rfl rfl (by decide) (fun hempty => ?_)
      (fun tokens rest hrest hends => ?_) hrest
    · rw [List.isEmpty_iff.mp hempty, itemTokens]
    · exact spells_writeItems (level + 1) items hrest hends
  | object keys values =>
    rw [write, JsonTree.tokens, List.cons_append, List.append_assoc]
    refine spells_brackets rfl rfl (by decide) (fun hempty => ?_)
      (fun tokens rest hrest hends => ?_) hrest
    · rw [List.isEmpty_iff.mp hempty]
      cases keys <;> rfl
    · exact spells_writeMembers (level + 1) keys values hrest hends
termination_by sizeOf tree

theorem spells_writeItems (level : ℕ) (items : List (JsonTree K A)) {tokens : List (Token A)}
    {rest : JsString} (hrest : Spells text tokens rest) (hends : Ends rest) :
    Spells text (itemTokens atomOf items ++ tokens)
      (writeItems (fun key => text (atomOf key)) text level items ++ rest) := by
  cases items with
  | nil => exact hrest
  | cons item items =>
    have hitems := spells_writeItems level items hrest hends
    cases items with
    | nil =>
      rw [writeItems, itemTokens]
      exact spells_write level item hrest hends
    | cons item' items =>
      rw [writeItems, itemTokens, List.append_assoc, List.append_assoc, List.cons_append,
        List.cons_append, List.append_assoc]
      refine spells_write level item ?_ (ends_cons (Or.inr (Or.inl rfl)) _)
      exact Spells.punctuator rfl (fun h => absurd h (by decide)) (spells_newline hitems level)
termination_by sizeOf items

theorem spells_writeMembers (level : ℕ) (keys : List K) (values : List (JsonTree K A))
    {tokens : List (Token A)} {rest : JsString} (hrest : Spells text tokens rest)
    (hends : Ends rest) :
    Spells text (memberTokens atomOf keys values ++ tokens)
      (writeMembers (fun key => text (atomOf key)) text level keys values ++ rest) := by
  cases values with
  | nil =>
    rw [writeMembers_nil]
    cases keys <;> exact hrest
  | cons value values =>
    cases keys with
    | nil => exact hrest
    | cons key keys =>
      -- a key, with its colon
      have hkey {tokens : List (Token A)} {rest : JsString} (h : Spells text tokens rest) :
          Spells text (.atom (atomOf key) :: .colon :: tokens)
            (text (atomOf key) ++ unit ':' :: unit ' ' :: rest) :=
        Spells.atom (ends_cons (Or.inr (Or.inr rfl)) _).stops
          (Spells.punctuator rfl (fun h => absurd h (by decide)) (Spells.space (by decide) h))
      have hmembers := spells_writeMembers level keys values hrest hends
      cases values with
      | nil =>
        rw [writeMembers, memberTokens, List.append_assoc, List.cons_append, List.cons_append]
        exact hkey (spells_write level value hrest hends)
      | cons value' values =>
        rw [writeMembers, memberTokens]
        simp only [List.append_assoc, List.cons_append]
        refine hkey (spells_write level value ?_ (ends_cons (Or.inr (Or.inl rfl)) _))
        exact Spells.punctuator rfl (fun h => absurd h (by decide)) (spells_newline hmembers level)
termination_by sizeOf values

end

/-- What is written for a tree alone. -/
theorem spells_of_write (text : A → JsString) (atomOf : K → A) (tree : JsonTree K A) :
    Spells text (tree.tokens atomOf) (write (fun key => text (atomOf key)) text 0 tree) := by
  have h : Spells text (tree.tokens atomOf ++ [])
      (write (fun key => text (atomOf key)) text 0 tree ++ []) :=
    spells_write 0 tree Spells.nil fun u hu => by cases hu
  rwa [List.append_nil, List.append_nil] at h

end Spells

end RelyLoop.EcmaScript
