import RelyLoop.Python.Text

/-!
# The confirmation guard

`agent/confirmation.py` and `_is_authorized_mutation`: a mutating tool may run when
the assistant's last message names that tool alone, does not negate it, and the user
answers affirmatively. Both tests are heuristics on texts.
-/

namespace RelyLoop.Agent

open Python

/-- `MUTATING_TOOL_NAMES`. -/
def mutatingToolNames : List String :=
  ["import_queries_from_csv", "generate_judgments_llm", "generate_judgments_from_ubi",
    "create_study", "cancel_study", "create_proposal_from_study", "create_proposal_manual",
    "open_pr"]

/-- `_AFFIRMATIVE_TOKENS`. -/
def affirmativeTokens : List String :=
  ["yes", "y", "yep", "yeah", "ok", "okay", "go", "confirm", "confirmed", "proceed"]

/-- `_AFFIRMATIVE_PHRASES`. -/
def affirmativePhrases : List String := ["go ahead", "do it", "ship it"]

/-- `_NEGATION_TOKENS`. -/
def negationTokens : List String :=
  ["no", "not", "don", "dont", "doesn", "doesnt", "won", "wont", "cancel", "stop", "abort", "wait",
    "nope", "never", "cant", "cannot", "couldnt", "maybe", "later"]

/-- `_NEGATION_CONTRACTIONS`. -/
def negationContractions : List String := ["can't", "couldn't"]

/-- `_APOSTROPHE_FOLD`, applied by `str.translate`. -/
def foldApostrophes (text : List Char) : List Char :=
  text.map fun c =>
    if [0x2019, 0x2018, 0x2bc, 0x2b9, 0x2032, 0xff07].contains c.toNat then Char.ofNat 0x27 else c

section Guard

variable (table : CharacterTable)

/-- `text.lower().translate(_APOSTROPHE_FOLD)`. -/
def folded (text : String) : List Char := foldApostrophes (table.lower text.toList)

/-- A text under `re.IGNORECASE`. -/
def litIgnoringCase (text : String) : Regex := Regex.lit table.sameIgnoringCase text

/-- `_LEADING_AFFIRMATIVE_PHRASE`; `matchesStart` is its anchor. -/
def leadingAffirmativePhrase : Regex :=
  Regex.chain [Regex.star (Regex.nonWord table),
    Regex.anyOf (affirmativePhrases.map (litIgnoringCase table)), Regex.boundary]

/-- `is_affirmative`. -/
def isAffirmative (text : String) : Bool :=
  if text.isEmpty then false
  else
    let lowered := folded table text
    let words := lowercaseWords lowered
    if negationContractions.any fun neg => isSubstring neg.toList lowered then false
    else if negationTokens.any fun token => words.contains token.toList then false
    else if (leadingAffirmativePhrase table).matchesStart table lowered then true
    else affirmativeTokens.any fun token => words.contains token.toList

/-- `tool_name.replace("_", " ")`. -/
def spaced (toolName : String) : String :=
  String.ofList (toolName.toList.map fun c => if c = '_' then ' ' else c)

/-- `_tool_name_pattern`. -/
def toolNamePattern (toolName : String) : Regex :=
  Regex.anyOf ([toolName, spaced toolName].map fun form =>
    Regex.chain [Regex.boundary, Regex.lit (· == ·) form, Regex.boundary])

/-- `_NEG_BEFORE_TOOL`. -/
def negBeforeTool : Regex :=
  let lit := litIgnoringCase table
  Regex.chain [Regex.boundary,
    Regex.anyOf [lit "not", lit "never",
      Regex.chain [lit "won", Regex.opt (lit "'"), lit "t"],
      Regex.chain [lit "can", Regex.opt (lit "'"), lit "t"],
      lit "cannot",
      Regex.chain [lit "do", Regex.opt (lit "es"), lit "n", Regex.opt (lit "'"), lit "t"],
      Regex.chain [lit "would", Regex.star Regex.space, lit "n", Regex.opt (lit "'"), lit "t"],
      Regex.chain [lit "instead", Regex.plus Regex.space, lit "of"],
      Regex.chain [lit "rather", Regex.plus Regex.space, lit "than"],
      Regex.chain [lit "no", Regex.plus Regex.space, lit "need", Regex.plus Regex.space, lit "to"]],
    Regex.boundary]

/-- `_negated_tool_pattern`. -/
def negatedToolPattern (toolName : String) : Regex :=
  Regex.chain [negBeforeTool table,
    Regex.upTo 3 (Regex.seq (Regex.plus Regex.space) (Regex.plus (Regex.word table))),
    Regex.plus Regex.space,
    Regex.anyOf ([toolName, spaced toolName].map (litIgnoringCase table)), Regex.boundary]

/-- The assistant's folded text names the tool as a whole word. -/
def mentions (assistantLower : List Char) (toolName : String) : Bool :=
  (toolNamePattern toolName).search table assistantLower

/-- `_tool_mention_is_negated`. -/
def toolMentionIsNegated (assistantLower : List Char) (toolName : String) : Bool :=
  (negatedToolPattern table toolName).search table assistantLower

/-- `_is_authorized_mutation`. -/
def isAuthorizedMutation (toolName : String) (lastAssistantText : Option String)
    (lastUserText : String) : Bool :=
  match lastAssistantText with
  | none => false
  | some text =>
    if text.isEmpty then false
    else
      let assistantLower := folded table text
      let matchingTools := mutatingToolNames.filter (mentions table assistantLower)
      if matchingTools ≠ [toolName] then false
      else if toolMentionIsNegated table assistantLower toolName then false
      else isAffirmative table lastUserText

end Guard

/-- What the guard means: the text names this mutating tool and no other, does not
negate it, and the user's answer is affirmative. -/
structure Confirmed (table : CharacterTable) (toolName assistantText userText : String) : Prop where
  named : mentions table (folded table assistantText) toolName = true
  alone : ∀ other ∈ mutatingToolNames, mentions table (folded table assistantText) other = true →
    other = toolName
  positive : toolMentionIsNegated table (folded table assistantText) toolName = false
  affirmed : isAffirmative table userText = true

variable {table : CharacterTable} {toolName other userText text : String}
  {lastAssistantText : Option String}

/-- The guard lets a tool pass only when it is confirmed. -/
theorem confirmed_of_isAuthorizedMutation
    (h : isAuthorizedMutation table toolName lastAssistantText userText = true) :
    ∃ text, lastAssistantText = some text ∧ Confirmed table toolName text userText := by
  cases lastAssistantText with
  | none => simp [isAuthorizedMutation] at h
  | some text =>
    simp only [isAuthorizedMutation, Bool.if_false_left, Bool.and_eq_true, Bool.not_eq_true',
      decide_eq_false_iff_not, not_not] at h
    obtain ⟨-, hmatching, hpositive, haffirmed⟩ := h
    have hmem : ∀ other, other ∈ mutatingToolNames ∧
        mentions table (folded table text) other = true ↔ other = toolName := by
      intro other
      rw [← List.mem_filter, hmatching, List.mem_singleton]
    exact ⟨text, rfl, ((hmem toolName).mpr rfl).2,
      fun other hother hmention => (hmem other).mp ⟨hother, hmention⟩, by simpa using hpositive,
      haffirmed⟩

/-- One pair of texts authorizes one tool at most. -/
theorem isAuthorizedMutation_unique
    (h : isAuthorizedMutation table toolName lastAssistantText userText = true)
    (h' : isAuthorizedMutation table other lastAssistantText userText = true)
    (hother : other ∈ mutatingToolNames) : other = toolName := by
  obtain ⟨text, rfl, hconfirmed⟩ := confirmed_of_isAuthorizedMutation h
  obtain ⟨text', htext', hconfirmed'⟩ := confirmed_of_isAuthorizedMutation h'
  obtain rfl := Option.some.inj htext'
  exact hconfirmed.alone other hother hconfirmed'.named

/-- A proposal of one tool that is affirmed. -/
example : isAuthorizedMutation asciiTable "create_study"
    (some "Shall I call create_study now?") "Yes!" = true := by decide +kernel

end RelyLoop.Agent
