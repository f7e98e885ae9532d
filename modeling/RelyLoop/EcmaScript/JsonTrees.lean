import RelyLoop.Python.Replace
import Mathlib.Data.Nat.Notation

/-!
# Trees of tokens

JSON apart from its strings and numbers. A list of tokens is read as a tree, which has the tokens it
was read from. A tree is written in the layout of `JSON.stringify`, by the texts of its keys and
atoms, and a replacement in the whole is one in these texts.
-/

namespace RelyLoop.EcmaScript

open Python

/-- A string, by its code units. -/
abbrev JsString := List UInt16

/-- The code unit of a character of the basic plane. -/
def unit (c : Char) : UInt16 := UInt16.ofNat c.toNat

/-- The code units of such characters. -/
def units (text : String) : JsString := text.toList.map unit

/-- A token: punctuation, or an atom. -/
inductive Token (A : Type) where
  | lbrace
  | rbrace
  | lbracket
  | rbracket
  | colon
  | comma
  | atom (a : A)
  deriving DecidableEq

/-- A tree, with the keys of each object in the order of the text. -/
inductive JsonTree (K A : Type) where
  | atom (a : A)
  | array (items : List (JsonTree K A))
  | object (keys : List K) (values : List (JsonTree K A))

variable {K K' A A' : Type}

/-- A token with another atom. -/
def Token.map (f : A → A') : Token A → Token A'
  | lbrace => lbrace
  | rbrace => rbrace
  | lbracket => lbracket
  | rbracket => rbracket
  | colon => colon
  | comma => comma
  | atom a => atom (f a)

namespace JsonTree

mutual

/-- A tree with other keys and atoms. -/
def map (g : K → K') (f : A → A') : JsonTree K A → JsonTree K' A'
  | atom a => atom (f a)
  | array items => array (mapAll g f items)
  | object keys values => object (keys.map g) (mapAll g f values)

/-- The trees with other keys and atoms. -/
def mapAll (g : K → K') (f : A → A') : List (JsonTree K A) → List (JsonTree K' A')
  | [] => []
  | tree :: trees => tree.map g f :: mapAll g f trees

end

mutual

/-- Each key of an object has a value. -/
def WellFormed : JsonTree K A → Prop
  | atom _ => True
  | array items => AllWellFormed items
  | object keys values => keys.length = values.length ∧ AllWellFormed values

/-- All trees are well formed. -/
def AllWellFormed : List (JsonTree K A) → Prop
  | [] => True
  | tree :: trees => tree.WellFormed ∧ AllWellFormed trees

end

theorem allWellFormed_iff {trees : List (JsonTree K A)} :
    AllWellFormed trees ↔ ∀ tree ∈ trees, tree.WellFormed := by
  induction trees with
  | nil => exact ⟨fun _ tree htree => absurd htree List.not_mem_nil, fun _ => trivial⟩
  | cons tree trees ih => rw [AllWellFormed, ih, List.forall_mem_cons]

mutual

/-- All keys and all atoms have a property each. -/
def All (P : K → Prop) (Q : A → Prop) : JsonTree K A → Prop
  | atom a => Q a
  | array items => AllIn P Q items
  | object keys values => (∀ key ∈ keys, P key) ∧ AllIn P Q values

/-- All keys and all atoms of the trees have a property each. -/
def AllIn (P : K → Prop) (Q : A → Prop) : List (JsonTree K A) → Prop
  | [] => True
  | tree :: trees => tree.All P Q ∧ AllIn P Q trees

end

section Tokens

variable (atomOf : K → A)

mutual

/-- The tokens of a tree. -/
def tokens : JsonTree K A → List (Token A)
  | atom a => [.atom a]
  | array items => .lbracket :: (itemTokens items ++ [.rbracket])
  | object keys values => .lbrace :: (memberTokens keys values ++ [.rbrace])

/-- The tokens of items. -/
def itemTokens : List (JsonTree K A) → List (Token A)
  | [] => []
  | [item] => item.tokens
  | item :: item' :: items => item.tokens ++ .comma :: itemTokens (item' :: items)

/-- The tokens of members. -/
def memberTokens : List K → List (JsonTree K A) → List (Token A)
  | key :: _, [value] => .atom (atomOf key) :: .colon :: value.tokens
  | key :: keys, value :: value' :: values =>
    .atom (atomOf key) :: .colon :: (value.tokens ++ .comma :: memberTokens keys (value' :: values))
  | _, _ => []

end

end Tokens

/-! ## Reading -/

section Read

variable (keyOf? : A → Option K)

mutual

/-- A tree and the rest of the tokens. -/
def readValue : ℕ → List (Token A) → Option (JsonTree K A × List (Token A))
  | 0, _ => none
  | _ + 1, .atom a :: rest => some (.atom a, rest)
  | _ + 1, .lbracket :: .rbracket :: rest => some (.array [], rest)
  | fuel + 1, .lbracket :: rest =>
    (readItems fuel rest).map fun (items, rest) => (.array items, rest)
  | _ + 1, .lbrace :: .rbrace :: rest => some (.object [] [], rest)
  | fuel + 1, .lbrace :: rest =>
    (readMembers fuel rest).map fun ((keys, values), rest) => (.object keys values, rest)
  | _ + 1, _ => none

/-- Items, with their closing bracket. -/
def readItems : ℕ → List (Token A) → Option (List (JsonTree K A) × List (Token A))
  | 0, _ => none
  | fuel + 1, tokens =>
    match readValue fuel tokens with
    | some (item, .rbracket :: rest) => some ([item], rest)
    | some (item, .comma :: rest) =>
      (readItems fuel rest).map fun (items, rest) => (item :: items, rest)
    | _ => none

/-- Members, with their closing brace. -/
def readMembers : ℕ → List (Token A) → Option ((List K × List (JsonTree K A)) × List (Token A))
  | fuel + 1, .atom a :: .colon :: rest =>
    match keyOf? a, readValue fuel rest with
    | some key, some (value, .rbrace :: rest) => some (([key], [value]), rest)
    | some key, some (value, .comma :: rest) =>
      (readMembers fuel rest).map fun ((keys, values), rest) =>
        ((key :: keys, value :: values), rest)
    | _, _ => none
  | _, _ => none

end

/-- The tree that the tokens spell, to the last one. -/
def read (tokens : List (Token A)) : Option (JsonTree K A) :=
  match readValue keyOf? (2 * tokens.length + 2) tokens with
  | some (tree, []) => some tree
  | _ => none

variable {keyOf?} {fuel : ℕ} {rest : List (Token A)}

theorem readValue_lbracket (h : ∀ after, rest ≠ .rbracket :: after) :
    readValue keyOf? (fuel + 1) (.lbracket :: rest) =
      (readItems keyOf? fuel rest).map fun (items, rest) => (.array items, rest) := by
  rw [readValue]
  exact h

theorem readValue_lbrace (h : ∀ after, rest ≠ .rbrace :: after) :
    readValue keyOf? (fuel + 1) (.lbrace :: rest) =
      (readMembers keyOf? fuel rest).map fun ((keys, values), rest) =>
        (.object keys values, rest) := by
  rw [readValue]
  exact h

end Read

/-! ## Other keys and atoms -/

section Map

variable {keyOf? : A → Option K} {keyOf?' : A' → Option K'} {g : K → K'} {f : A → A'}

@[simp] theorem mapAll_eq_map (trees : List (JsonTree K A)) :
    mapAll g f trees = trees.map (map g f) := by
  induction trees with
  | nil => rfl
  | cons tree trees ih => rw [mapAll, ih, List.map_cons]

theorem map_ne_cons {rest : List (Token A)} {token : Token A} (hne : ∀ after, rest ≠ token :: after)
    (hsame : ∀ t : Token A, t.map f = token.map f → t = token) (after : List (Token A')) :
    rest.map (Token.map f) ≠ token.map f :: after := by
  intro heq
  obtain ⟨t, rest', hrest, ht, -⟩ := List.map_eq_cons_iff.mp heq
  rw [hsame t ht] at hrest
  exact hne rest' hrest

/-- Other atoms are read as the same trees, with other atoms. -/
theorem read_map_all (hkey : ∀ a, keyOf?' (f a) = (keyOf? a).map g) (fuel : ℕ) :
    (∀ tokens : List (Token A), readValue keyOf?' fuel (tokens.map (Token.map f)) =
      (readValue keyOf? fuel tokens).map fun (tree, rest) =>
        (tree.map g f, rest.map (Token.map f))) ∧
    (∀ tokens : List (Token A), readItems keyOf?' fuel (tokens.map (Token.map f)) =
      (readItems keyOf? fuel tokens).map fun (items, rest) =>
        (items.map (map g f), rest.map (Token.map f))) ∧
    (∀ tokens : List (Token A), readMembers keyOf?' fuel (tokens.map (Token.map f)) =
      (readMembers keyOf? fuel tokens).map fun ((keys, values), rest) =>
        ((keys.map g, values.map (map g f)), rest.map (Token.map f))) := by
  induction fuel with
  | zero =>
    refine ⟨fun tokens => ?_, fun tokens => ?_, fun tokens => ?_⟩
    · rw [readValue, readValue, Option.map_none]
    · rw [readItems, readItems, Option.map_none]
    · rw [readMembers.eq_def, readMembers.eq_def]
      rfl
  | succ fuel ih =>
    obtain ⟨ihValue, ihItems, ihMembers⟩ := ih
    refine ⟨fun tokens => ?_, fun tokens => ?_, fun tokens => ?_⟩
    · cases tokens with
      | nil => rfl
      | cons token rest =>
        cases token with
        | lbracket =>
          by_cases hclose : ∃ after, rest = .rbracket :: after
          · obtain ⟨after, rfl⟩ := hclose
            rfl
          · rw [not_exists] at hclose
            have hclose' := map_ne_cons (f := f) hclose fun t ht => by
              cases t <;> first | rfl | cases ht
            rw [readValue_lbracket hclose, List.map_cons, Token.map, readValue_lbracket hclose',
              ihItems, Option.map_map, Option.map_map]
            refine congrArg (fun k => (readItems keyOf? fuel rest).map k) (funext fun result => ?_)
            simp [map]
        | lbrace =>
          by_cases hclose : ∃ after, rest = .rbrace :: after
          · obtain ⟨after, rfl⟩ := hclose
            rfl
          · rw [not_exists] at hclose
            have hclose' := map_ne_cons (f := f) hclose fun t ht => by
              cases t <;> first | rfl | cases ht
            rw [readValue_lbrace hclose, List.map_cons, Token.map, readValue_lbrace hclose',
              ihMembers, Option.map_map, Option.map_map]
            refine congrArg (fun k => (readMembers keyOf? fuel rest).map k)
              (funext fun result => ?_)
            simp [map]
        | _ => rfl
    · rw [readItems, readItems, ihValue]
      cases readValue keyOf? fuel tokens with
      | none => rfl
      | some result =>
        obtain ⟨item, after⟩ := result
        cases after with
        | nil => rfl
        | cons token rest =>
          cases token with
          | comma =>
            simp only [Option.map_some, List.map_cons, Token.map, ihItems, Option.map_map]
            rfl
          | _ => rfl
    · rw [readMembers.eq_def, readMembers.eq_def]
      cases tokens with
      | nil => rfl
      | cons token tokens =>
        cases token with
        | atom a =>
          cases tokens with
          | nil => rfl
          | cons token rest =>
            cases token with
            | colon =>
              simp only [List.map_cons, Token.map, hkey, ihValue]
              cases keyOf? a with
              | none => rfl
              | some key =>
                cases readValue keyOf? fuel rest with
                | none => rfl
                | some result =>
                  obtain ⟨value, after⟩ := result
                  cases after with
                  | nil => rfl
                  | cons token rest =>
                    cases token with
                    | comma =>
                      simp only [Option.map_some, List.map_cons, Token.map, ihMembers,
                        Option.map_map]
                      rfl
                    | _ => rfl
            | _ => rfl
        | _ => rfl

/-- Other atoms are read as the same tree, with other atoms. -/
theorem read_map (hkey : ∀ a, keyOf?' (f a) = (keyOf? a).map g) (tokens : List (Token A)) :
    read keyOf?' (tokens.map (Token.map f)) = (read keyOf? tokens).map (map g f) := by
  rw [read, read, List.length_map, (read_map_all hkey _).1]
  cases readValue keyOf? (2 * tokens.length + 2) tokens with
  | none => rfl
  | some result =>
    obtain ⟨tree, rest⟩ := result
    cases rest <;> rfl

end Map

/-! ## What is read -/

section Sound

variable {keyOf? : A → Option K} {atomOf : K → A}

/-- What is read has the tokens that it was read from. -/
theorem tokens_of_read_all (hkey : ∀ a key, keyOf? a = some key → atomOf key = a) (fuel : ℕ) :
    (∀ (toks : List (Token A)) (tree : JsonTree K A) rest,
      readValue keyOf? fuel toks = some (tree, rest) →
        toks = tree.tokens atomOf ++ rest ∧ tree.WellFormed) ∧
    (∀ (toks : List (Token A)) (items : List (JsonTree K A)) rest,
      readItems keyOf? fuel toks = some (items, rest) →
        toks = itemTokens atomOf items ++ .rbracket :: rest ∧ AllWellFormed items ∧ items ≠ []) ∧
    (∀ (toks : List (Token A)) keys (values : List (JsonTree K A)) rest,
      readMembers keyOf? fuel toks = some ((keys, values), rest) →
        toks = memberTokens atomOf keys values ++ .rbrace :: rest ∧ AllWellFormed values ∧
          keys.length = values.length ∧ values ≠ []) := by
  induction fuel with
  | zero =>
    refine ⟨fun _ _ _ h => ?_, fun _ _ _ h => ?_, fun _ _ _ _ h => ?_⟩
    · rw [readValue] at h
      cases h
    · rw [readItems] at h
      cases h
    · rw [readMembers.eq_def] at h
      cases h
  | succ fuel ih =>
    obtain ⟨ihValue, ihItems, ihMembers⟩ := ih
    refine ⟨fun toks tree rest h => ?_, fun toks items rest h => ?_,
      fun toks keys values rest h => ?_⟩
    · cases toks with
      | nil =>
        rw [readValue.eq_def] at h
        cases h
      | cons token toks =>
        cases token with
        | atom a =>
          obtain ⟨rfl, rfl⟩ := Prod.mk.inj (Option.some.inj h)
          exact ⟨rfl, trivial⟩
        | lbracket =>
          by_cases hclose : ∃ after, toks = .rbracket :: after
          · obtain ⟨after, rfl⟩ := hclose
            obtain ⟨rfl, rfl⟩ := Prod.mk.inj (Option.some.inj h)
            exact ⟨rfl, trivial⟩
          · rw [readValue_lbracket (not_exists.mp hclose)] at h
            obtain ⟨⟨items, after⟩, hitems, heq⟩ := Option.map_eq_some_iff.mp h
            obtain ⟨rfl, rfl⟩ := Prod.mk.inj heq
            obtain ⟨rfl, hall, -⟩ := ihItems _ _ _ hitems
            exact ⟨by simp [tokens], hall⟩
        | lbrace =>
          by_cases hclose : ∃ after, toks = .rbrace :: after
          · obtain ⟨after, rfl⟩ := hclose
            obtain ⟨rfl, rfl⟩ := Prod.mk.inj (Option.some.inj h)
            exact ⟨rfl, rfl, trivial⟩
          · rw [readValue_lbrace (not_exists.mp hclose)] at h
            obtain ⟨⟨⟨keys, values⟩, after⟩, hmembers, heq⟩ := Option.map_eq_some_iff.mp h
            obtain ⟨rfl, rfl⟩ := Prod.mk.inj heq
            obtain ⟨rfl, hall, hlength, -⟩ := ihMembers _ _ _ _ hmembers
            exact ⟨by simp [tokens], hlength, hall⟩
        | _ => cases h
    · rw [readItems] at h
      split at h
      · rename_i item after hitem
        obtain ⟨rfl, rfl⟩ := Prod.mk.inj (Option.some.inj h)
        obtain ⟨rfl, hwell⟩ := ihValue _ _ _ hitem
        exact ⟨rfl, ⟨hwell, trivial⟩, List.cons_ne_nil _ _⟩
      · rename_i item after hitem
        obtain ⟨⟨items, after'⟩, hitems, heq⟩ := Option.map_eq_some_iff.mp h
        obtain ⟨rfl, rfl⟩ := Prod.mk.inj heq
        obtain ⟨rfl, hwell⟩ := ihValue _ _ _ hitem
        obtain ⟨rfl, hall, hne⟩ := ihItems _ _ _ hitems
        obtain ⟨item', items, rfl⟩ := List.exists_cons_of_ne_nil hne
        exact ⟨by simp [itemTokens], ⟨hwell, hall⟩, List.cons_ne_nil _ _⟩
      · cases h
    · cases toks with
      | nil =>
        rw [readMembers.eq_def] at h
        cases h
      | cons token toks =>
        cases token with
        | atom a =>
          cases toks with
          | nil => cases h
          | cons token after =>
            cases token with
            | colon =>
              rw [readMembers] at h
              split at h
              · rename_i key value after' hkeyOf hvalue
                obtain ⟨hmembers, rfl⟩ := Prod.mk.inj (Option.some.inj h)
                obtain ⟨rfl, rfl⟩ := Prod.mk.inj hmembers
                obtain ⟨rfl, hwell⟩ := ihValue _ _ _ hvalue
                refine ⟨?_, ⟨hwell, trivial⟩, rfl, List.cons_ne_nil _ _⟩
                rw [memberTokens, hkey _ _ hkeyOf]
                rfl
              · rename_i key value after' hkeyOf hvalue
                obtain ⟨⟨⟨keys', values'⟩, after''⟩, hmembers, heq⟩ := Option.map_eq_some_iff.mp h
                obtain ⟨hpair, rfl⟩ := Prod.mk.inj heq
                obtain ⟨rfl, rfl⟩ := Prod.mk.inj hpair
                obtain ⟨rfl, hwell⟩ := ihValue _ _ _ hvalue
                obtain ⟨rfl, hall, hlength, hne⟩ := ihMembers _ _ _ _ hmembers
                obtain ⟨value', values', rfl⟩ := List.exists_cons_of_ne_nil hne
                refine ⟨?_, ⟨hwell, hall⟩, congrArg Nat.succ hlength, List.cons_ne_nil _ _⟩
                rw [memberTokens, hkey _ _ hkeyOf]
                simp
              · cases h
            | _ => cases h
        | _ => cases h

/-- What is read has the tokens that it was read from. -/
theorem tokens_of_read (hkey : ∀ a key, keyOf? a = some key → atomOf key = a)
    {toks : List (Token A)} {tree : JsonTree K A} (h : read keyOf? toks = some tree) :
    tree.tokens atomOf = toks ∧ tree.WellFormed := by
  rw [read] at h
  split at h
  · rename_i tree' hread
    obtain rfl := Option.some.inj h
    obtain ⟨htoks, hwell⟩ := (tokens_of_read_all hkey _).1 _ _ _ hread
    rw [List.append_nil] at htoks
    exact ⟨htoks.symm, hwell⟩
  · cases h

end Sound

/-! ## Writing -/

/-- A line break, and the indentation of a level. -/
def newline (level : ℕ) : JsString := unit '\n' :: List.replicate (2 * level) (unit ' ')

/-- The items of an array or an object in their brackets. -/
def brackets (opening closing : Char) (level : ℕ) (isEmpty : Bool) (body : JsString) : JsString :=
  if isEmpty then [unit opening, unit closing]
  else unit opening :: (newline (level + 1) ++ body ++ newline level ++ [unit closing])

section Write

variable (keyText : K → JsString) (atomText : A → JsString)

mutual

/-- `SerializeJSONProperty`, with an indentation of 2. -/
def write : ℕ → JsonTree K A → JsString
  | _, atom a => atomText a
  | level, array items => brackets '[' ']' level items.isEmpty (writeItems (level + 1) items)
  | level, object keys values =>
    brackets '\x7b' '\x7d' level values.isEmpty (writeMembers (level + 1) keys values)

/-- The items of an array. -/
def writeItems : ℕ → List (JsonTree K A) → JsString
  | _, [] => []
  | level, [item] => write level item
  | level, item :: item' :: items =>
    write level item ++ unit ',' :: (newline level ++ writeItems level (item' :: items))

/-- The members of an object. -/
def writeMembers : ℕ → List K → List (JsonTree K A) → JsString
  | level, key :: _, [value] => keyText key ++ unit ':' :: unit ' ' :: write level value
  | level, key :: keys, value :: value' :: values =>
    keyText key ++ unit ':' :: unit ' ' :: (write level value ++
      unit ',' :: (newline level ++ writeMembers level keys (value' :: values)))
  | _, _, _ => []

end

theorem writeMembers_nil (level : ℕ) (keys : List K) :
    writeMembers keyText atomText level keys ([] : List (JsonTree K A)) = [] := by
  cases keys <;> rfl

end Write

/-! ## The texts of keys and atoms -/

section Texts

variable (g : K → K') (f : A → A') (keyText : K' → JsString) (atomText : A' → JsString)

mutual

/-- Other keys and atoms are written by their texts. -/
theorem write_map (level : ℕ) (tree : JsonTree K A) :
    write keyText atomText level (tree.map g f) =
      write (fun key => keyText (g key)) (fun a => atomText (f a)) level tree := by
  cases tree with
  | atom a => rw [map, write, write]
  | array items =>
    have hempty : (items.map (map g f)).isEmpty = items.isEmpty := List.isEmpty_map
    have hitems := writeItems_map (level + 1) items
    rw [map, mapAll_eq_map, write, write, hempty, ← hitems]
  | object keys values =>
    have hempty : (values.map (map g f)).isEmpty = values.isEmpty := List.isEmpty_map
    have hmembers := writeMembers_map (level + 1) keys values
    rw [map, mapAll_eq_map, write, write, hempty, ← hmembers]
termination_by sizeOf tree

theorem writeItems_map (level : ℕ) (items : List (JsonTree K A)) :
    writeItems keyText atomText level (items.map (map g f)) =
      writeItems (fun key => keyText (g key)) (fun a => atomText (f a)) level items := by
  cases items with
  | nil => rfl
  | cons item items =>
    have hitem := write_map level item
    have hitems := writeItems_map level items
    cases items with
    | nil =>
      rw [List.map_cons, List.map_nil, writeItems, writeItems, hitem]
    | cons item' items =>
      rw [List.map_cons, List.map_cons, writeItems, writeItems, hitem, ← hitems, List.map_cons]
termination_by sizeOf items

theorem writeMembers_map (level : ℕ) (keys : List K) (values : List (JsonTree K A)) :
    writeMembers keyText atomText level (keys.map g) (values.map (map g f)) =
      writeMembers (fun key => keyText (g key)) (fun a => atomText (f a)) level keys values := by
  cases values with
  | nil => rw [List.map_nil, writeMembers_nil, writeMembers_nil]
  | cons value values =>
    have hvalue := write_map level value
    cases keys with
    | nil => rfl
    | cons key keys =>
      have hmembers := writeMembers_map level keys values
      cases values with
      | nil =>
        rw [List.map_cons, List.map_cons, List.map_nil, writeMembers, writeMembers, hvalue]
      | cons value' values =>
        rw [List.map_cons, List.map_cons, List.map_cons, writeMembers, writeMembers, hvalue,
          ← hmembers, List.map_cons]
termination_by sizeOf values

end

end Texts

section Congr

variable {keyText keyText' : K → JsString} {atomText atomText' : A → JsString}

mutual

/-- Only the texts of the keys and atoms of a tree matter. -/
theorem write_congr {tree : JsonTree K A}
    (h : tree.All (fun key => keyText key = keyText' key) (fun a => atomText a = atomText' a))
    (level : ℕ) : write keyText atomText level tree = write keyText' atomText' level tree := by
  cases tree with
  | atom a =>
    rw [write, write]
    exact h
  | array items => rw [write, write, writeItems_congr h]
  | object keys values => rw [write, write, writeMembers_congr h.1 h.2]
termination_by sizeOf tree

theorem writeItems_congr {items : List (JsonTree K A)}
    (h : AllIn (fun key => keyText key = keyText' key) (fun a => atomText a = atomText' a) items)
    (level : ℕ) :
    writeItems keyText atomText level items = writeItems keyText' atomText' level items := by
  cases items with
  | nil => rfl
  | cons item items =>
    have hitem := write_congr h.1 level
    have hitems := writeItems_congr h.2 level
    cases items with
    | nil => rw [writeItems, writeItems, hitem]
    | cons item' items => rw [writeItems, writeItems, hitem, hitems]
termination_by sizeOf items

theorem writeMembers_congr {keys : List K} {values : List (JsonTree K A)}
    (hkeys : ∀ key ∈ keys, keyText key = keyText' key)
    (h : AllIn (fun key => keyText key = keyText' key) (fun a => atomText a = atomText' a) values)
    (level : ℕ) :
    writeMembers keyText atomText level keys values =
      writeMembers keyText' atomText' level keys values := by
  cases values with
  | nil => rw [writeMembers_nil, writeMembers_nil]
  | cons value values =>
    have hvalue := write_congr h.1 level
    cases keys with
    | nil => rfl
    | cons key keys =>
      obtain ⟨hkey, hkeys⟩ := List.forall_mem_cons.mp hkeys
      have hmembers := writeMembers_congr hkeys h.2 level
      cases values with
      | nil => rw [writeMembers, writeMembers, hkey, hvalue]
      | cons value' values => rw [writeMembers, writeMembers, hkey, hvalue, hmembers]
termination_by sizeOf values

end

end Congr

section AllTokens

variable {atomOf : K → A} {Q : A → Prop}

mutual

/-- What holds of the tokens holds of the keys and atoms. -/
theorem all_of_tokens {tree : JsonTree K A} (hwell : tree.WellFormed)
    (h : ∀ a, .atom a ∈ tree.tokens atomOf → Q a) : tree.All (fun key => Q (atomOf key)) Q := by
  cases tree with
  | atom a => exact h a List.mem_cons_self
  | array items => exact allIn_of_itemTokens hwell fun a ha => h a (by simp [tokens, ha])
  | object keys values =>
    exact all_of_memberTokens hwell.1 hwell.2 fun a ha => h a (by simp [tokens, ha])
termination_by sizeOf tree

theorem allIn_of_itemTokens {items : List (JsonTree K A)} (hwell : AllWellFormed items)
    (h : ∀ a, .atom a ∈ itemTokens atomOf items → Q a) :
    AllIn (fun key => Q (atomOf key)) Q items := by
  cases items with
  | nil => trivial
  | cons item items =>
    cases items with
    | nil => exact ⟨all_of_tokens hwell.1 h, trivial⟩
    | cons item' items =>
      exact ⟨all_of_tokens hwell.1 fun a ha => h a (by simp [itemTokens, ha]),
        allIn_of_itemTokens hwell.2 fun a ha => h a (by simp [itemTokens, ha])⟩
termination_by sizeOf items

theorem all_of_memberTokens {keys : List K} {values : List (JsonTree K A)}
    (hlength : keys.length = values.length) (hwell : AllWellFormed values)
    (h : ∀ a, .atom a ∈ memberTokens atomOf keys values → Q a) :
    (∀ key ∈ keys, Q (atomOf key)) ∧ AllIn (fun key => Q (atomOf key)) Q values := by
  cases values with
  | nil =>
    obtain rfl := List.length_eq_zero_iff.mp hlength
    exact ⟨fun key hkey => absurd hkey List.not_mem_nil, trivial⟩
  | cons value values =>
    obtain ⟨key, keys, rfl⟩ := List.exists_cons_of_length_eq_add_one hlength
    rw [List.forall_mem_cons]
    cases values with
    | nil =>
      obtain rfl := List.length_eq_zero_iff.mp (Nat.succ.inj hlength)
      exact ⟨⟨h _ (by simp [memberTokens]), fun key hkey => absurd hkey List.not_mem_nil⟩,
        all_of_tokens hwell.1 fun a ha => h a (by simp [memberTokens, ha]), trivial⟩
    | cons value' values =>
      obtain ⟨hkeys, hvalues⟩ := all_of_memberTokens (Nat.succ.inj hlength) hwell.2
        fun a ha => h a (by simp [memberTokens, ha])
      exact ⟨⟨h _ (by simp [memberTokens]), hkeys⟩,
        all_of_tokens hwell.1 fun a ha => h a (by simp [memberTokens, ha]), hvalues⟩
termination_by sizeOf values

end

end AllTokens

/-! ## Replacing in what is written -/

section Replace

variable {part : JsString}

/-- The part has none of the characters between keys and atoms. -/
structure Unmarked (part : JsString) : Prop where
  ne_nil : part ≠ []
  marks : ∀ u ∈ units "[]\x7b\x7d:, \n", u ∉ part

theorem Unmarked.replaceAll_cons (h : Unmarked part) {c : UInt16} (hc : c ∈ units "[]\x7b\x7d:, \n")
    (new rest : JsString) : replaceAll part new (c :: rest) = c :: replaceAll part new rest := by
  have hsplit := replaceAll_append_cons h.ne_nil (h.marks c hc) new [] rest
  rwa [replaceAll_nil, List.nil_append, List.nil_append] at hsplit

theorem Unmarked.replaceAll_append (h : Unmarked part) {c : UInt16}
    (hc : c ∈ units "[]\x7b\x7d:, \n") (new u rest : JsString) :
    replaceAll part new (u ++ c :: rest) = replaceAll part new u ++ c :: replaceAll part new rest :=
  replaceAll_append_cons h.ne_nil (h.marks c hc) new u rest

theorem Unmarked.replaceAll_spaces (h : Unmarked part) (n : ℕ) (new rest : JsString) :
    replaceAll part new (List.replicate n (unit ' ') ++ rest) =
      List.replicate n (unit ' ') ++ replaceAll part new rest := by
  induction n with
  | zero => rfl
  | succ n ih =>
    rw [List.replicate_succ, List.cons_append, h.replaceAll_cons (by decide), ih, List.cons_append]

/-- A line break is copied, and what stands before it is replaced on its own. -/
theorem Unmarked.replaceAll_newline (h : Unmarked part) (level : ℕ) (new u rest : JsString) :
    replaceAll part new (u ++ (newline level ++ rest)) =
      replaceAll part new u ++ (newline level ++ replaceAll part new rest) := by
  rw [newline, List.cons_append, h.replaceAll_append (by decide), h.replaceAll_spaces,
    List.cons_append]

theorem Unmarked.replaceAll_brackets (h : Unmarked part) {opening closing : Char}
    (hopening : unit opening ∈ units "[]\x7b\x7d:, \n")
    (hclosing : unit closing ∈ units "[]\x7b\x7d:, \n") (level : ℕ) (isEmpty : Bool)
    (new body : JsString) :
    replaceAll part new (brackets opening closing level isEmpty body) =
      brackets opening closing level isEmpty (replaceAll part new body) := by
  rw [brackets, brackets]
  split
  · rw [h.replaceAll_cons hopening, h.replaceAll_cons hclosing, replaceAll_nil]
  · have hline := h.replaceAll_newline (level + 1) new []
      (body ++ (newline level ++ [unit closing]))
    rw [replaceAll_nil, List.nil_append, List.nil_append] at hline
    rw [h.replaceAll_cons hopening, List.append_assoc, List.append_assoc, hline,
      h.replaceAll_newline, h.replaceAll_cons hclosing, replaceAll_nil, List.append_assoc,
      List.append_assoc]

variable (keyText : K → JsString) (atomText : A → JsString)

mutual

/-- A replacement in the whole is one in the keys and atoms. -/
theorem replaceAll_write (h : Unmarked part) (new : JsString) (level : ℕ) (tree : JsonTree K A) :
    replaceAll part new (write keyText atomText level tree) =
      write (fun key => replaceAll part new (keyText key))
        (fun a => replaceAll part new (atomText a)) level tree := by
  cases tree with
  | atom a => rw [write, write]
  | array items =>
    rw [write, write, h.replaceAll_brackets (by decide) (by decide),
      replaceAll_writeItems h new (level + 1) items]
  | object keys values =>
    rw [write, write, h.replaceAll_brackets (by decide) (by decide),
      replaceAll_writeMembers h new (level + 1) keys values]
termination_by sizeOf tree

theorem replaceAll_writeItems (h : Unmarked part) (new : JsString) (level : ℕ)
    (items : List (JsonTree K A)) :
    replaceAll part new (writeItems keyText atomText level items) =
      writeItems (fun key => replaceAll part new (keyText key))
        (fun a => replaceAll part new (atomText a)) level items := by
  cases items with
  | nil => exact replaceAll_nil part new
  | cons item items =>
    have hitem := replaceAll_write h new level item
    have hitems := replaceAll_writeItems h new level items
    cases items with
    | nil => rw [writeItems, writeItems, hitem]
    | cons item' items =>
      have hline := h.replaceAll_newline level new []
        (writeItems keyText atomText level (item' :: items))
      rw [replaceAll_nil, List.nil_append, List.nil_append] at hline
      rw [writeItems, writeItems, h.replaceAll_append (by decide), hitem, hline, hitems]
termination_by sizeOf items

theorem replaceAll_writeMembers (h : Unmarked part) (new : JsString) (level : ℕ) (keys : List K)
    (values : List (JsonTree K A)) :
    replaceAll part new (writeMembers keyText atomText level keys values) =
      writeMembers (fun key => replaceAll part new (keyText key))
        (fun a => replaceAll part new (atomText a)) level keys values := by
  cases values with
  | nil => rw [writeMembers_nil, writeMembers_nil, replaceAll_nil]
  | cons value values =>
    have hvalue := replaceAll_write h new level value
    cases keys with
    | nil => exact replaceAll_nil part new
    | cons key keys =>
      have hmembers := replaceAll_writeMembers h new level keys values
      cases values with
      | nil =>
        rw [writeMembers, writeMembers, h.replaceAll_append (by decide),
          h.replaceAll_cons (by decide), hvalue]
      | cons value' values =>
        have hline := h.replaceAll_newline level new []
          (writeMembers keyText atomText level keys (value' :: values))
        rw [replaceAll_nil, List.nil_append, List.nil_append] at hline
        rw [writeMembers, writeMembers, h.replaceAll_append (by decide),
          h.replaceAll_cons (by decide), h.replaceAll_append (by decide), hvalue, hline, hmembers]
termination_by sizeOf values

end

end Replace

end JsonTree

end RelyLoop.EcmaScript
