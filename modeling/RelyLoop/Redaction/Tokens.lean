import RelyLoop.Python.Text
import RelyLoop.Text.Substitution

/-!
# Redaction of tokens

`redact_token` replaces three kinds of secrets in a text, one after the other: GitHub tokens,
OpenAI keys, and the passwords of connection URIs. The log processor applies it to the texts of an
event.
-/

namespace RelyLoop.Redaction

open Python Text

/-! ## Patterns -/

/-- `[A-Za-z0-9_]`. -/
def ghChar (c : Char) : Bool := c.isAlphanum || c == '_'

/-- `_GH_TOKEN_PATTERN`, with its placeholder. -/
def ghTokenRule : Rule where
  bounded := false
  alternatives :=
    [.seq (.lit "github_pat_".toList) (.atLeast 20 ghChar),
      .chain [.lit "gh".toList, .one Char.isLower, .one (· == '_'), .atLeast 36 ghChar]]
  replacement := fun _ => "[REDACTED-GH-TOKEN]".toList

/-- `[A-Za-z0-9_-]`. -/
def keyChar (c : Char) : Bool := c.isAlphanum || c == '_' || c == '-'

/-- `_OPENAI_KEY_PATTERN`, with its placeholder. -/
def openAiKeyRule : Rule where
  bounded := true
  alternatives := [.seq (.lit "sk-".toList) (.atLeast 20 keyChar)]
  replacement := fun _ => "[REDACTED-OPENAI-KEY]".toList

/-- `[a-z]` under `re.IGNORECASE`: four characters beyond ASCII have a letter as another case. -/
def schemeStart (c : Char) : Bool :=
  c.isAlpha || c.toNat == 0x130 || c.toNat == 0x131 || c.toNat == 0x17f || c.toNat == 0x212a

/-- `[a-z0-9+.\-]` under `re.IGNORECASE`. -/
def schemeChar (c : Char) : Bool := schemeStart c || c.isDigit || c == '+' || c == '.' || c == '-'

/-- `[^\s:/@]`. -/
def userChar (c : Char) : Bool := !isWhitespace c && c != ':' && c != '/' && c != '@'

/-- `[^\s@/\]]`. -/
def passwordChar (c : Char) : Bool := !isWhitespace c && c != '@' && c != '/' && c != ']'

/-- `_DSN_PASSWORD_PATTERN`, with its placeholder. -/
def dsnPasswordRule : Rule where
  bounded := false
  alternatives :=
    [.chain
      [.group 1 (.chain [.one schemeStart, .star schemeChar, .lit "://".toList, .star userChar,
        .lit ":".toList]),
      .plus passwordChar, .group 2 (.lit "@".toList)]]
  replacement := fun q => q.group 1 ++ "[REDACTED-URL-PASSWORD]".toList ++ q.group 2

/-- `redact_token` on a text. -/
def redactToken (isWord : Char → Bool) (text : List Char) : List Char :=
  let redacted := ghTokenRule.sub isWord text
  let redacted := openAiKeyRule.sub isWord redacted
  dsnPasswordRule.sub isWord redacted

/-- The three rules. -/
def tokenRules : List Rule := [ghTokenRule, openAiKeyRule, dsnPasswordRule]

/-! ## Events -/

/-- A value of an event. Values of other types are passed through. -/
inductive Value (κ α : Type) where
  | str (text : List Char)
  | dict (entries : List (κ × Value κ α))
  | list (items : List (Value κ α))
  | tuple (items : List (Value κ α))
  | other (a : α)

variable {κ α : Type}

mutual

/-- `_redact_value`. -/
def redactValue (isWord : Char → Bool) : Value κ α → Value κ α
  | .str text => .str (redactToken isWord text)
  | .dict entries => .dict (redactEntries isWord entries)
  | .list items => .list (redactItems isWord items)
  | .tuple items => .tuple (redactItems isWord items)
  | .other a => .other a

/-- The items of a list or a tuple. -/
def redactItems (isWord : Char → Bool) : List (Value κ α) → List (Value κ α)
  | [] => []
  | item :: items => redactValue isWord item :: redactItems isWord items

/-- The entries of a dictionary. -/
def redactEntries (isWord : Char → Bool) : List (κ × Value κ α) → List (κ × Value κ α)
  | [] => []
  | (key, value) :: entries => (key, redactValue isWord value) :: redactEntries isWord entries

end

/-- `RedactTokensProcessor.__call__`. -/
def redactTokensProcessor (isWord : Char → Bool) (eventDict : List (κ × Value κ α)) :
    List (κ × Value κ α) :=
  redactEntries isWord eventDict

end RelyLoop.Redaction
