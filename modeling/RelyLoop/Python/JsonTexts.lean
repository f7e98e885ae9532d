import RelyLoop.Python.Json

/-!
# Texts of nested values

`loads` reads back what `dumps` has written for any value. The characters of a string may be
written in another way, as long as they are read as they should.
-/

namespace RelyLoop.Python

/-! ## Strings -/

/-- A text that is read as some characters of a string. -/
inductive Spelled : List Char → List Char → Prop
  | nil : Spelled [] []
  | cons {u text cs : List Char} {c : Char}
      (hread : ∀ rest, readChar (u ++ rest) = some (some c, rest)) (hspelled : Spelled text cs) :
      Spelled (u ++ text) (c :: cs)

theorem Spelled.append {text text' cs cs' : List Char} (h : Spelled text cs)
    (h' : Spelled text' cs') : Spelled (text ++ text') (cs ++ cs') := by
  induction h with
  | nil => exact h'
  | cons hread _ ih =>
    rw [List.append_assoc]
    exact Spelled.cons hread ih

theorem Spelled.length_le {text cs : List Char} (h : Spelled text cs) :
    cs.length ≤ text.length := by
  induction h with
  | nil => exact le_rfl
  | @cons u text cs c hread _ ih =>
    have hpos : 0 < u.length := by
      apply List.length_pos_of_ne_nil
      rintro rfl
      exact absurd (hread []) (by simp [readChar])
    rw [List.length_append, List.length_cons]
    omega

/-- The characters are read up to the closing quote. -/
theorem Spelled.readChars {text cs : List Char} (h : Spelled text cs) (rest : List Char)
    {fuel : ℕ} (hfuel : cs.length < fuel) :
    readChars fuel (text ++ '"' :: rest) = some (cs, rest) := by
  induction h generalizing fuel with
  | nil =>
    obtain ⟨fuel, rfl⟩ := Nat.exists_eq_succ_of_ne_zero (Nat.ne_of_gt hfuel)
    rfl
  | @cons u text cs c hread _ ih =>
    obtain ⟨fuel, rfl⟩ := Nat.exists_eq_succ_of_ne_zero (Nat.ne_of_gt (Nat.zero_lt_of_lt hfuel))
    rw [List.append_assoc, Python.readChars, hread]
    dsimp only
    rw [ih (Nat.lt_of_succ_lt_succ hfuel)]
    rfl

theorem Spelled.readString {text : List Char} {s : String} (h : Spelled text s.toList)
    (rest : List Char) : readString (text ++ '"' :: rest) = some (s, rest) := by
  have hlength := h.length_le
  have hfuel : s.toList.length < (text ++ '"' :: rest).length := by
    rw [List.length_append, List.length_cons]
    omega
  rw [Python.readString, h.readChars rest hfuel, Option.map_some]
  dsimp only
  rw [String.ofList_toList]

/-- An escaped text is read as it is. -/
theorem spelled_escape (cs : List Char) : Spelled (cs.flatMap escape) cs := by
  induction cs with
  | nil => exact Spelled.nil
  | cons c cs ih => exact Spelled.cons (readChar_escape c) ih

/-! ## Values -/

variable {F : Type} [PyFloat F]

section

variable (body : String → List Char)

mutual

/-- `dumps`, with another way to write what stands between the quotes of a string. -/
def dumpsWith : Json F → List Char
  | .null => "null".toList
  | .bool true => "true".toList
  | .bool false => "false".toList
  | .int i => intText i
  | .float f => PyFloat.text f
  | .str s => '"' :: (body s ++ ['"'])
  | .list items => '[' :: (dumpsItemsWith items ++ [']'])
  | .dict keys values => '\x7b' :: (dumpsEntriesWith keys values ++ ['\x7d'])

/-- The items of a list. -/
def dumpsItemsWith : List (Json F) → List Char
  | [] => []
  | [item] => dumpsWith item
  | item :: item' :: items => dumpsWith item ++ ',' :: ' ' :: dumpsItemsWith (item' :: items)

/-- The entries of a dict. -/
def dumpsEntriesWith : List String → List (Json F) → List Char
  | key :: _, [value] => '"' :: (body key ++ '"' :: ':' :: ' ' :: dumpsWith value)
  | key :: keys, value :: value' :: values =>
    '"' :: (body key ++ '"' :: ':' :: ' ' :: (dumpsWith value ++
      ',' :: ' ' :: dumpsEntriesWith keys (value' :: values)))
  | _, _ => []

end

end

mutual

/-- `dumps` writes the escaped characters of a string. -/
theorem dumps_eq_dumpsWith (value : Json F) :
    dumps {} value = dumpsWith (fun s => s.toList.flatMap escape) value := by
  cases value with
  | null => rw [dumps, dumpsWith]
  | bool b => cases b <;> rw [dumps, dumpsWith]
  | int i => rw [dumps, dumpsWith]
  | float f => rw [dumps, dumpsWith]
  | str s => rw [dumps, dumpsWith, stringText]
  | list items => rw [dumps, dumpsWith, dumpsItems_eq_dumpsItemsWith]
  | dict keys values => rw [dumps, dumpsWith, dumpsEntries_eq_dumpsEntriesWith]

theorem dumpsItems_eq_dumpsItemsWith (items : List (Json F)) :
    dumpsItems {} items = dumpsItemsWith (fun s => s.toList.flatMap escape) items := by
  cases items with
  | nil => rw [dumpsItems, dumpsItemsWith]
  | cons item items =>
    cases items with
    | nil => rw [dumpsItems, dumpsItemsWith, dumps_eq_dumpsWith]
    | cons item' items =>
      rw [dumpsItems, dumpsItemsWith, dumps_eq_dumpsWith, dumpsItems_eq_dumpsItemsWith]
      simp

theorem dumpsEntries_eq_dumpsEntriesWith (keys : List String) (values : List (Json F)) :
    dumpsEntries {} keys values =
      dumpsEntriesWith (fun s => s.toList.flatMap escape) keys values := by
  cases keys with
  | nil => cases values <;> simp [dumpsEntries, dumpsEntriesWith]
  | cons key keys =>
    cases values with
    | nil => simp [dumpsEntries, dumpsEntriesWith]
    | cons value values =>
      cases values with
      | nil =>
        rw [dumpsEntries, dumpsEntriesWith, dumps_eq_dumpsWith, stringText]
        simp
      | cons value' values =>
        rw [dumpsEntries, dumpsEntriesWith, dumps_eq_dumpsWith, stringText,
          dumpsEntries_eq_dumpsEntriesWith]
        simp

end

mutual

/-- Each key of a dict is there once and has its value. -/
def Json.WellFormed : Json F → Prop
  | .list items => Json.AllWellFormed items
  | .dict keys values => keys.Nodup ∧ keys.length = values.length ∧ Json.AllWellFormed values
  | _ => True

/-- All values are well formed. -/
def Json.AllWellFormed : List (Json F) → Prop
  | [] => True
  | value :: values => value.WellFormed ∧ Json.AllWellFormed values

end

variable {body : String → List Char} {value : Json F} {rest : List Char}

/-! ## Heads -/

/-- A list or a dict begins with its bracket. -/
theorem dumpsWith_cases (body : String → List Char) (value : Json F) :
    (∃ s, value = .str s) ∨ (∃ items, value = .list items) ∨
      (∃ keys values, value = .dict keys values) ∨ IsTokenOf value (dumpsWith body value) := by
  have htoken (hscalar : value.IsScalar) (hstring : ∀ s, value ≠ .str s) :
      IsTokenOf value (dumps {} value) :=
    (dumps_scalar {} hscalar).resolve_left fun ⟨s, hs⟩ => hstring s hs
  cases value with
  | str s => exact Or.inl ⟨s, rfl⟩
  | list items => exact Or.inr (Or.inl ⟨items, rfl⟩)
  | dict keys values => exact Or.inr (Or.inr (Or.inl ⟨keys, values, rfl⟩))
  | null =>
    have h := htoken trivial fun s => by simp
    rw [dumps_eq_dumpsWith, dumpsWith] at h
    exact Or.inr (Or.inr (Or.inr (by rwa [dumpsWith])))
  | bool b =>
    have h := htoken trivial fun s => by simp
    cases b
    · rw [dumps_eq_dumpsWith, dumpsWith] at h
      exact Or.inr (Or.inr (Or.inr (by rwa [dumpsWith])))
    · rw [dumps_eq_dumpsWith, dumpsWith] at h
      exact Or.inr (Or.inr (Or.inr (by rwa [dumpsWith])))
  | int i =>
    have h := htoken trivial fun s => by simp
    rw [dumps_eq_dumpsWith, dumpsWith] at h
    exact Or.inr (Or.inr (Or.inr (by rwa [dumpsWith])))
  | float f =>
    have h := htoken trivial fun s => by simp
    rw [dumps_eq_dumpsWith, dumpsWith] at h
    exact Or.inr (Or.inr (Or.inr (by rwa [dumpsWith])))

/-- The first character of a token is no whitespace and no bracket. -/
theorem isTokenChar_ne {c : Char} (h : isTokenChar c = true) :
    isJsonSpace c = false ∧ c ≠ ']' := by
  constructor
  · by_contra hspace
    have hcases : c = ' ' ∨ c = '\t' ∨ c = '\n' ∨ c = '\r' := by
      rw [Bool.not_eq_false] at hspace
      simpa [isJsonSpace, or_assoc] using hspace
    rcases hcases with rfl | rfl | rfl | rfl <;> exact absurd h (by decide)
  · rintro rfl
    exact absurd h (by decide)

theorem head_dumpsWith (body : String → List Char) (value : Json F) :
    ∃ c cs, dumpsWith body value = c :: cs ∧ isJsonSpace c = false ∧ c ≠ ']' := by
  rcases dumpsWith_cases body value with ⟨s, rfl⟩ | ⟨items, rfl⟩ | ⟨keys, values, rfl⟩ | htoken
  · exact ⟨'"', _, by rw [dumpsWith], by decide, by decide⟩
  · exact ⟨'[', _, by rw [dumpsWith], by decide, by decide⟩
  · exact ⟨'\x7b', _, by rw [dumpsWith], by decide, by decide⟩
  · obtain ⟨c, cs, hcs⟩ := List.exists_cons_of_ne_nil htoken.ne_nil
    have hc := htoken.chars c (by rw [hcs]; exact List.mem_cons_self)
    exact ⟨c, cs, hcs, isTokenChar_ne hc⟩

theorem head_dumpsItemsWith (body : String → List Char) (value : Json F)
    (items : List (Json F)) : ∃ c cs, dumpsItemsWith body (value :: items) = c :: cs ∧
      isJsonSpace c = false ∧ c ≠ ']' := by
  obtain ⟨c, cs, hhead, hc⟩ := head_dumpsWith body value
  cases items with
  | nil => exact ⟨c, cs, by rw [dumpsItemsWith, hhead], hc⟩
  | cons item items => exact ⟨c, _, by rw [dumpsItemsWith, hhead, List.cons_append], hc⟩

theorem length_dumpsWith_pos (body : String → List Char) (value : Json F) :
    0 < (dumpsWith body value).length := by
  obtain ⟨c, cs, hhead, -⟩ := head_dumpsWith body value
  rw [hhead]
  exact Nat.succ_pos _

/-! ## Reading -/

/-- A text without leading whitespace is not skipped. -/
theorem skipSpace_dumpsWith (body : String → List Char) (value : Json F) (rest : List Char) :
    skipSpace (dumpsWith body value ++ rest) = dumpsWith body value ++ rest := by
  obtain ⟨c, cs, hhead, hspace, -⟩ := head_dumpsWith body value
  rw [hhead, List.cons_append, skipSpace_of_head hspace]

theorem skipSpace_dumpsItemsWith (body : String → List Char) (value : Json F)
    (items : List (Json F)) (rest : List Char) :
    skipSpace (' ' :: (dumpsItemsWith body (value :: items) ++ rest)) =
      dumpsItemsWith body (value :: items) ++ rest := by
  obtain ⟨c, cs, hhead, hspace, -⟩ := head_dumpsItemsWith body value items
  have hskip := skipSpace_spaces (show ∀ c ∈ [' '], isJsonSpace c = true from List.all_eq_true.mp rfl)
    (dumpsItemsWith body (value :: items) ++ rest)
  rw [hhead] at hskip ⊢
  exact hskip.trans (skipSpace_of_head hspace)

/-- A key is read with its colon. -/
theorem readKey_spelled (hbody : ∀ s, Spelled (body s) s.toList) (key : String)
    (value : Json F) (rest : List Char) :
    readKey ('"' :: (body key ++ '"' :: ':' :: ' ' :: (dumpsWith body value ++ rest))) =
      some (key, dumpsWith body value ++ rest) := by
  have hskip := skipSpace_spaces (show ∀ c ∈ [' '], isJsonSpace c = true from List.all_eq_true.mp rfl)
    (dumpsWith body value ++ rest)
  rw [skipSpace_dumpsWith] at hskip
  have hcolon : skipSpace (':' :: ' ' :: (dumpsWith body value ++ rest)) =
      ':' :: ' ' :: (dumpsWith body value ++ rest) := skipSpace_of_head (by decide)
  simp only [readKey, (hbody key).readString, hcolon]
  exact congrArg some (Prod.ext rfl hskip)

theorem readItems_cons {fuel : ℕ} {text rest : List Char} {item : Json F}
    {items : List (Json F)} {text' : List Char}
    (hitem : readValue fuel text = some (item, ',' :: text'))
    (hitems : readItems fuel (skipSpace text') = some (items, rest)) :
    readItems (fuel + 1) text = some (item :: items, rest) := by
  rw [readItems, hitem]
  simp only [skipSpace_of_head (show isJsonSpace ',' = false by decide), hitems, Option.map_some]

theorem readItems_last {fuel : ℕ} {text rest : List Char} {item : Json F}
    (hitem : readValue fuel text = some (item, ']' :: rest)) :
    readItems (fuel + 1) text = some ([item], rest) := by
  rw [readItems, hitem]
  simp only [skipSpace_of_head (show isJsonSpace ']' = false by decide)]

theorem readEntries_cons {fuel : ℕ} {text text' text'' rest : List Char} {key : String}
    {item : Json F} {entries : List (String × Json F)}
    (hkey : readKey text = some (key, text'))
    (hitem : readValue fuel text' = some (item, ',' :: text''))
    (hentries : readEntries fuel (skipSpace text'') = some (entries, rest))
    (hnew : key ∉ entries.map Prod.fst) :
    readEntries (fuel + 1) text = some ((key, item) :: entries, rest) := by
  have hadd : addEntry key item entries = (key, item) :: entries := by
    rw [addEntry, if_neg]
    intro hany
    obtain ⟨e, he, heq⟩ := List.any_eq_true.mp hany
    exact hnew (List.mem_map.mpr ⟨e, he, by simpa using heq⟩)
  rw [readEntries, hkey]
  simp only [hitem, skipSpace_of_head (show isJsonSpace ',' = false by decide), hentries,
    Option.map_some, hadd]

theorem readEntries_last {fuel : ℕ} {text text' rest : List Char} {key : String} {item : Json F}
    (hkey : readKey text = some (key, text'))
    (hitem : readValue fuel text' = some (item, '\x7d' :: rest)) :
    readEntries (fuel + 1) text = some ([(key, item)], rest) := by
  rw [readEntries, hkey]
  simp only [hitem, skipSpace_of_head (show isJsonSpace '\x7d' = false by decide)]

/-- A list is read by its items. -/
theorem readValue_list_of_items {fuel : ℕ} {c : Char} {cs : List Char} {items : List (Json F)}
    (hspace : isJsonSpace c = false) (hbracket : c ≠ ']')
    (hitems : readItems fuel (c :: cs) = some (items, rest)) :
    readValue (fuel + 1) ('[' :: c :: cs) = some (.list items, rest) := by
  rw [readValue]
  simp only [Char.reduceEq, if_false, if_true, skipSpace_of_head hspace]
  split
  · rename_i heq
    exact absurd (List.cons.inj heq).1 hbracket
  · rw [hitems, Option.map_some]

/-- A dict is read by its entries. -/
theorem readValue_dict_of_entries {fuel : ℕ} {cs : List Char} {entries : List (String × Json F)}
    (hentries : readEntries fuel ('"' :: cs) = some (entries, rest)) :
    readValue (fuel + 1) ('\x7b' :: '"' :: cs) =
      some (.dict (entries.map Prod.fst) (entries.map Prod.snd), rest) := by
  rw [readValue]
  simp only [Char.reduceEq, if_false, if_true,
    skipSpace_of_head (show isJsonSpace '"' = false by decide)]
  split
  · rename_i heq
    exact absurd (List.cons.inj heq).1 (by decide)
  · rw [hentries, Option.map_some]

/-- A number or a constant is read by its token. -/
theorem readValue_of_token (body : String → List Char) (hstr : ∀ s, value ≠ .str s)
    (hlist : ∀ items, value ≠ .list items) (hdict : ∀ keys values, value ≠ .dict keys values)
    (hrest : ∀ c ∈ rest.head?, isTokenChar c = false) (fuel : ℕ) :
    readValue (fuel + 1) (dumpsWith body value ++ rest) = some (value, rest) := by
  rcases dumpsWith_cases body value with ⟨s, h⟩ | ⟨items, h⟩ | ⟨keys, values, h⟩ | htoken
  · exact absurd h (hstr s)
  · exact absurd h (hlist items)
  · exact absurd h (hdict keys values)
  · exact htoken.readValue hrest fuel

/-- The entries of a dict begin with a quote. -/
theorem head_dumpsEntriesWith (body : String → List Char) (key : String) (keys : List String)
    (value : Json F) (values : List (Json F)) :
    ∃ cs, dumpsEntriesWith body (key :: keys) (value :: values) = '"' :: cs := by
  cases values <;> exact ⟨_, by rw [dumpsEntriesWith]⟩

mutual

/-- A value is read up to the separator or the bracket that follows it. -/
theorem readValue_dumpsWith (hbody : ∀ s, Spelled (body s) s.toList) (value : Json F)
    (hvalue : value.WellFormed) (rest : List Char)
    (hrest : ∀ c ∈ rest.head?, isTokenChar c = false) (fuel : ℕ)
    (hfuel : (dumpsWith body value).length ≤ fuel) :
    readValue fuel (dumpsWith body value ++ rest) = some (value, rest) := by
  have hpos := length_dumpsWith_pos body value
  obtain ⟨fuel, rfl⟩ : ∃ n, fuel = n + 1 := ⟨fuel - 1, by omega⟩
  cases value with
  | null => exact readValue_of_token body (by simp) (by simp) (by simp) hrest fuel
  | bool b => exact readValue_of_token body (by simp) (by simp) (by simp) hrest fuel
  | int i => exact readValue_of_token body (by simp) (by simp) (by simp) hrest fuel
  | float f => exact readValue_of_token body (by simp) (by simp) (by simp) hrest fuel
  | str s =>
    have hstring := (hbody s).readString rest
    simp only [dumpsWith, List.cons_append, List.append_assoc, List.nil_append,
      readValue, if_true, hstring, Option.map_some]
  | list items =>
    rw [dumpsWith] at hfuel ⊢
    simp only [List.length_cons, List.length_append, List.length_nil] at hfuel
    by_cases hne : items = []
    · subst hne
      rfl
    · have hitems := readItems_dumpsItemsWith hbody items hne hvalue rest fuel (by omega)
      obtain ⟨item, items', rfl⟩ := List.exists_cons_of_ne_nil hne
      obtain ⟨c, cs, hhead, hspace, hbracket⟩ := head_dumpsItemsWith body item items'
      rw [hhead] at hitems
      rw [hhead, List.cons_append, List.append_assoc]
      exact readValue_list_of_items hspace hbracket hitems
  | dict keys values =>
    obtain ⟨hnodup, hlength, hvalues⟩ := hvalue
    rw [dumpsWith] at hfuel ⊢
    simp only [List.length_cons, List.length_append, List.length_nil] at hfuel
    by_cases hne : values = []
    · subst hne
      obtain rfl := List.length_eq_zero_iff.mp hlength
      rfl
    · have hentries := readEntries_dumpsEntriesWith hbody keys values hne hnodup hlength hvalues
        rest fuel (by omega)
      have hfst : (keys.zip values).map Prod.fst = keys := List.map_fst_zip (by omega)
      have hsnd : (keys.zip values).map Prod.snd = values := List.map_snd_zip (by omega)
      obtain ⟨value, values', rfl⟩ := List.exists_cons_of_ne_nil hne
      obtain ⟨key, keys', rfl⟩ : ∃ key keys', keys = key :: keys' := by
        apply List.exists_cons_of_ne_nil
        rintro rfl
        cases hlength
      obtain ⟨cs, hcs⟩ := head_dumpsEntriesWith body key keys' value values'
      rw [hcs] at hentries
      rw [hcs, List.cons_append, List.append_assoc]
      have hread := readValue_dict_of_entries hentries
      rwa [hfst, hsnd] at hread

/-- Items are read up to the bracket. -/
theorem readItems_dumpsItemsWith (hbody : ∀ s, Spelled (body s) s.toList)
    (items : List (Json F)) (hne : items ≠ []) (hitems : Json.AllWellFormed items)
    (rest : List Char) (fuel : ℕ) (hfuel : (dumpsItemsWith body items).length + 1 ≤ fuel) :
    readItems fuel (dumpsItemsWith body items ++ ']' :: rest) = some (items, rest) := by
  obtain ⟨fuel, rfl⟩ : ∃ n, fuel = n + 1 := ⟨fuel - 1, by omega⟩
  cases items with
  | nil => exact absurd rfl hne
  | cons item items =>
    have hitem (rest : List Char) (hrest : ∀ c ∈ rest.head?, isTokenChar c = false)
        (hle : (dumpsWith body item).length ≤ fuel) :=
      readValue_dumpsWith hbody item hitems.1 rest hrest fuel hle
    by_cases hnil : items = []
    · subst hnil
      rw [dumpsItemsWith] at hfuel ⊢
      exact readItems_last (hitem _ (by simp; decide) (by omega))
    · have hlater (hle : (dumpsItemsWith body items).length + 1 ≤ fuel) :=
        readItems_dumpsItemsWith hbody items hnil hitems.2 rest fuel hle
      obtain ⟨item', items', rfl⟩ := List.exists_cons_of_ne_nil hnil
      rw [dumpsItemsWith] at hfuel ⊢
      simp only [List.length_append, List.length_cons] at hfuel
      rw [List.append_assoc, List.cons_append, List.cons_append]
      apply readItems_cons (hitem _ (by simp; decide) (by omega))
      rw [skipSpace_dumpsItemsWith]
      exact hlater (by omega)

/-- Entries are read up to the brace. -/
theorem readEntries_dumpsEntriesWith (hbody : ∀ s, Spelled (body s) s.toList)
    (keys : List String) (values : List (Json F)) (hne : values ≠ []) (hnodup : keys.Nodup)
    (hlength : keys.length = values.length) (hvalues : Json.AllWellFormed values)
    (rest : List Char) (fuel : ℕ)
    (hfuel : (dumpsEntriesWith body keys values).length + 1 ≤ fuel) :
    readEntries fuel (dumpsEntriesWith body keys values ++ '\x7d' :: rest) =
      some (keys.zip values, rest) := by
  obtain ⟨fuel, rfl⟩ : ∃ n, fuel = n + 1 := ⟨fuel - 1, by omega⟩
  cases values with
  | nil => exact absurd rfl hne
  | cons value values =>
    have hvalue (rest : List Char) (hrest : ∀ c ∈ rest.head?, isTokenChar c = false)
        (hle : (dumpsWith body value).length ≤ fuel) :=
      readValue_dumpsWith hbody value hvalues.1 rest hrest fuel hle
    obtain ⟨key, keys, rfl⟩ : ∃ key keys', keys = key :: keys' := by
      apply List.exists_cons_of_ne_nil
      rintro rfl
      cases hlength
    obtain ⟨hnew, hnodup⟩ := List.nodup_cons.mp hnodup
    by_cases hnil : values = []
    · subst hnil
      obtain rfl := List.length_eq_zero_iff.mp (Nat.succ.inj hlength)
      rw [dumpsEntriesWith] at hfuel ⊢
      simp only [List.length_append, List.length_cons] at hfuel
      have hread := readEntries_last (readKey_spelled hbody key value ('\x7d' :: rest))
        (hvalue ('\x7d' :: rest) (by simp; decide) (by omega))
      simpa using hread
    · have hlater (hle : (dumpsEntriesWith body keys values).length + 1 ≤ fuel) :=
        readEntries_dumpsEntriesWith hbody keys values hnil hnodup (Nat.succ.inj hlength)
          hvalues.2 rest fuel hle
      have hzip : (keys.zip values).map Prod.fst = keys :=
        List.map_fst_zip (by simp at hlength; omega)
      obtain ⟨value', values', rfl⟩ := List.exists_cons_of_ne_nil hnil
      rw [dumpsEntriesWith] at hfuel ⊢
      simp only [List.length_append, List.length_cons] at hfuel
      have hquote : skipSpace (' ' :: (dumpsEntriesWith body keys (value' :: values') ++
          '\x7d' :: rest)) = dumpsEntriesWith body keys (value' :: values') ++ '\x7d' :: rest := by
        obtain ⟨key', keys', rfl⟩ : ∃ key keys', keys = key :: keys' := by
          apply List.exists_cons_of_ne_nil
          rintro rfl
          simp at hlength
        obtain ⟨cs, hcs⟩ := head_dumpsEntriesWith body key' keys' value' values'
        rw [hcs]
        rfl
      have hnext := hlater (by omega)
      rw [← hquote] at hnext
      have hread := readEntries_cons (readKey_spelled hbody key value _)
        (hvalue _ (by simp; decide) (by omega)) hnext (by rwa [hzip])
      simpa using hread

end

/-- What is written for a value is read back, with whitespace around it. -/
theorem loads_dumpsWith (hbody : ∀ s, Spelled (body s) s.toList) (value : Json F)
    (hvalue : value.WellFormed) {before after : List Char}
    (hbefore : ∀ c ∈ before, isJsonSpace c = true) (hafter : ∀ c ∈ after, isJsonSpace c = true) :
    loads (before ++ dumpsWith body value ++ after) = some value := by
  have hrest : ∀ c ∈ after.head?, isTokenChar c = false := by
    intro c hc
    have hspace := hafter c (List.mem_of_mem_head? hc)
    by_contra htoken
    rw [Bool.not_eq_false] at htoken
    rw [(isTokenChar_ne htoken).1] at hspace
    cases hspace
  have hskip : skipSpace (before ++ dumpsWith body value ++ after) =
      dumpsWith body value ++ after := by
    rw [List.append_assoc, skipSpace_spaces hbefore, skipSpace_dumpsWith]
  have hend : skipSpace after = [] := by
    have h := skipSpace_spaces hafter []
    rwa [List.append_nil] at h
  rw [loads, hskip, readValue_dumpsWith hbody value hvalue after hrest _ (by
    simp only [List.length_append]
    omega)]
  dsimp only
  rw [if_pos hend]

end RelyLoop.Python
