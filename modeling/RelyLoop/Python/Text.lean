import RelyLoop.Python.Conversions
import Mathlib.Data.List.Defs

/-!
# Texts and regular expressions

What the modelled code uses of `str` and `re`. Only the existence of a match is
asked for, so a pattern is a set of runs over a text, and the order in which `re`
tries them plays no role. The Unicode tables are a parameter.
-/

namespace RelyLoop.Python

/-- The Unicode data that `str.lower` and `re` read. -/
structure CharacterTable where
  /-- `str.lower`. -/
  lower : List Char → List Char
  /-- `\w`. -/
  isWord : Char → Bool
  /-- Equality of characters under `re.IGNORECASE`. -/
  sameIgnoringCase : Char → Char → Bool

/-- The tables on ASCII texts. -/
def asciiTable : CharacterTable where
  lower := List.map Char.toLower
  isWord c := c.isAlphanum || c == '_'
  sameIgnoringCase c d := c.toLower == d.toLower

/-- `str.isspace` of a character, and `\s`. -/
def isWhitespace (c : Char) : Bool := isSpace c || (0x1c ≤ c.toNat && c.toNat ≤ 0x1f)

/-- `str.strip`. -/
def strip (text : List Char) : List Char :=
  (text.dropWhile isWhitespace).rdropWhile isWhitespace

/-- `part in text`. -/
def isSubstring (part text : List Char) : Bool := text.tails.any part.isPrefixOf

/-- A regular expression. -/
inductive Regex where
  | empty
  /-- One character of a class. -/
  | char (accepts : Char → Bool)
  /-- `\b`. -/
  | boundary
  | seq (r r' : Regex)
  | alt (r r' : Regex)
  | star (r : Regex)

/-- A position in a text: the character before it and the text from there on. -/
structure Cursor where
  before : Option Char
  rest : List Char

/-- All positions in a text. -/
def cursors : Option Char → List Char → List Cursor
  | before, [] => [⟨before, []⟩]
  | before, c :: cs => ⟨before, c :: cs⟩ :: cursors (some c) cs

/-- The positions that are reached by repeating a step that consumes characters. -/
def repeated (step : Cursor → List Cursor) : ℕ → Cursor → List Cursor
  | 0, p => [p]
  | fuel + 1, p =>
    p :: ((step p).filter fun p' => p'.rest.length < p.rest.length).flatMap (repeated step fuel)

namespace Regex

/-- The positions where a match that begins at a position may end. -/
def ends (isWord : Char → Bool) : Regex → Cursor → List Cursor
  | empty, p => [p]
  | char accepts, p =>
    match p.rest with
    | [] => []
    | c :: cs => if accepts c then [⟨some c, cs⟩] else []
  | boundary, p => if p.before.any isWord != p.rest.head?.any isWord then [p] else []
  | seq r r', p => (ends isWord r p).flatMap (ends isWord r')
  | alt r r', p => ends isWord r p ++ ends isWord r' p
  | star r, p => repeated (ends isWord r) p.rest.length p

/-- `Pattern.match`: a match that begins at the start of the text. -/
def matchesStart (table : CharacterTable) (r : Regex) (text : List Char) : Bool :=
  !(r.ends table.isWord ⟨none, text⟩).isEmpty

/-- `Pattern.search`: a match that begins anywhere. -/
def search (table : CharacterTable) (r : Regex) (text : List Char) : Bool :=
  (cursors none text).any fun p => !(r.ends table.isWord p).isEmpty

/-- The concatenation of patterns. -/
def chain (rs : List Regex) : Regex := rs.foldr seq empty

/-- `(?:r|r'|…)`. -/
def anyOf : List Regex → Regex
  | [] => char fun _ => false
  | [r] => r
  | r :: rs => alt r (anyOf rs)

/-- `r?`. -/
def opt (r : Regex) : Regex := alt r empty

/-- `r+`. -/
def plus (r : Regex) : Regex := seq r (star r)

/-- `r{0,n}`. -/
def upTo : ℕ → Regex → Regex
  | 0, _ => empty
  | n + 1, r => opt (seq r (upTo n r))

/-- A text, letter for letter under the given equality. -/
def lit (same : Char → Char → Bool) (text : String) : Regex :=
  chain (text.toList.map fun c => char (same c))

/-- `\s`. -/
def space : Regex := char isWhitespace

/-- `\w`. -/
def word (table : CharacterTable) : Regex := char table.isWord

/-- `\W`. -/
def nonWord (table : CharacterTable) : Regex := char fun c => !table.isWord c

end Regex

/-- `set(re.findall(r"[a-z]+", text))`, as a list. -/
def lowercaseWords (text : List Char) : List (List Char) :=
  (text.splitOnP fun c => !('a' ≤ c && c ≤ 'z')).filter fun run => !run.isEmpty

end RelyLoop.Python

/-!
## Text files

`Path.read_text` and `Path.write_text`, with UTF-8. A file is read with universal newlines, and
what is written ends its lines with `\n` alone.
-/

namespace RelyLoop.Python

/-- Universal newlines. -/
def universalNewlines : List Char → List Char
  | [] => []
  | '\r' :: '\n' :: text => '\n' :: universalNewlines text
  | c :: text => (if c = '\r' then '\n' else c) :: universalNewlines text

/-- `Path.read_text` of the bytes of a file. -/
def readText (content : List UInt8) : Option (List Char) :=
  (ByteArray.mk content.toArray).utf8Decode?.map fun text => universalNewlines text.toList

/-- The bytes that `Path.write_text` leaves. -/
def writeText (text : List Char) : List UInt8 := (String.ofList text).toUTF8.data.toList

theorem universalNewlines_eq_self {text : List Char} (h : '\r' ∉ text) :
    universalNewlines text = text := by
  induction text with
  | nil => rfl
  | cons c text ih =>
    have hc : c ≠ '\r' := by
      rintro rfl
      exact h List.mem_cons_self
    rw [universalNewlines.eq_def]
    split
    · rename_i heq
      exact heq.symm
    · rename_i heq
      exact absurd (List.cons.inj heq).1 hc
    · rename_i heq
      obtain ⟨rfl, rfl⟩ := List.cons.inj heq
      rw [if_neg hc, ih fun hmem => h (List.mem_cons_of_mem _ hmem)]

/-- What is written is read, if it has no carriage return. -/
theorem readText_writeText {text : List Char} (h : '\r' ∉ text) :
    readText (writeText text) = some text := by
  have htext : (String.ofList text).toUTF8.utf8Decode? = some text.toArray := by
    rw [← List.utf8Decode?_utf8Encode]
    congr 1
  rw [readText, writeText, Array.toArray_toList, htext, Option.map_some, List.toList_toArray,
    universalNewlines_eq_self h]

end RelyLoop.Python
