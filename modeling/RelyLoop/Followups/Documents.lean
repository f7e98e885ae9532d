import RelyLoop.Spaces.Defaults
import RelyLoop.Spaces.Midpoints

/-!
# Stored follow-ups

The typed follow-ups with the documents that they are stored as: `model_dump`, and the
validation that Pydantic does on the way back. A document is read field by field; what
Pydantic makes of a scalar of another type is a parameter, and so is the text of its errors.
-/

/-!
## Follow-ups of a digest

The items of `digests.suggested_followups`, how they are read back from the column, and which
one the `follow_suggestions` strategy runs. Template ids are natural numbers. What Pydantic makes
of one item is a parameter.
-/

namespace RelyLoop.Followups

open Python Spaces

/-- `FollowupItem`. -/
inductive FollowupItem where
  | narrow (rationale : String) (space : SearchSpace)
  | widen (rationale : String) (space : SearchSpace)
  | text (rationale : String)
  | swapTemplate (rationale : String) (templateId : ℕ) (space : SearchSpace)

/-- `SELECTED_FOLLOWUP_KIND_VALUES`. -/
inductive SelectedKind where
  | narrowDefault
  | narrow
  | widen
  | swapTemplate
  deriving DecidableEq, Repr

/-- The search space of an item. -/
def FollowupItem.space? : FollowupItem → Option SearchSpace
  | narrow _ space | widen _ space | swapTemplate _ _ space => some space
  | text _ => none

/-- The template that an item runs on, for a study of the given template. -/
def FollowupItem.target (templateId : ℕ) : FollowupItem → ℕ
  | swapTemplate _ target _ => target
  | narrow _ _ | widen _ _ | text _ => templateId

/-- What a study that runs the item records. -/
def FollowupItem.selectedKind : FollowupItem → SelectedKind
  | narrow _ _ => .narrow
  | widen _ _ => .widen
  | swapTemplate _ _ _ => .swapTemplate
  | text _ => .narrowDefault

/-! ## Reading the column -/

/-- `_TRUNCATE_LIMIT`. -/
def truncateLimit : ℕ := 200

/-- `truncate_validation_error`. -/
def truncateValidationError (text : List Char) : List Char :=
  if text.length ≤ 2 * truncateLimit then text
  else text.take truncateLimit ++ "...[truncated]...".toList ++
    text.drop (text.length - truncateLimit)

/-- `_try_text_only`. -/
def tryTextOnly (item : Json ℚ) (validationError : String) : Option FollowupItem :=
  match item.get? "rationale" with
  | some (.str rationale) =>
    if strip rationale.toList = [] then none
    else
      let error := String.ofList (truncateValidationError validationError.toList)
      some (.text ("[validation failed: " ++ error ++ "] " ++ rationale))
  | _ => none

/-- One item of `parse_followup_list`; `none` drops it. -/
def parseFollowup (validate : Json ℚ → Except String FollowupItem) :
    Json ℚ → Option FollowupItem
  | .str rationale => some (.text rationale)
  | .dict keys values =>
    match validate (.dict keys values) with
    | .ok item => some item
    | .error e => tryTextOnly (.dict keys values) e
  | _ => none

/-- `parse_followup_list`. -/
def parseFollowupList (validate : Json ℚ → Except String FollowupItem) :
    Json ℚ → List FollowupItem
  | .list items => items.filterMap (parseFollowup validate)
  | _ => []

/-! ## The selection -/

/-- The two filters of the selection: text is not executable, and neither is a swap to a visited
template. -/
def isExecutable (visited : List ℕ) : FollowupItem → Bool
  | .narrow _ _ | .widen _ _ => true
  | .text _ => false
  | .swapTemplate _ templateId _ => templateId ∉ visited

/-- The template of a swap that the cycle guard drops. -/
def droppedTemplateId (visited : List ℕ) : FollowupItem → Option ℕ
  | .swapTemplate _ templateId _ => if templateId ∈ visited then some templateId else none
  | _ => none

/-- `SelectionOutcome`. -/
structure SelectionOutcome where
  selected : Option FollowupItem
  sourceIndex : Option ℕ
  candidateCount : ℕ
  droppedTemplateIds : List ℕ

/-- `select_executable_followup`. -/
def selectExecutableFollowup (followups : List FollowupItem) (visited : List ℕ) :
    SelectionOutcome :=
  let candidates := followups.zipIdx.filter fun e => isExecutable visited e.1
  { selected := candidates.head?.map Prod.fst
    sourceIndex := candidates.head?.map Prod.snd
    candidateCount := candidates.length
    droppedTemplateIds :=
      (followups.filterMap (droppedTemplateId visited)).insertionSort (· ≤ ·) }

/-- The selection is the first executable item. -/
theorem selected_eq_find? (followups : List FollowupItem) (visited : List ℕ) :
    (selectExecutableFollowup followups visited).selected =
      followups.find? (isExecutable visited) := by
  have hzip : ∀ start, ((followups.zipIdx start).filter
      fun e => isExecutable visited e.1).head?.map Prod.fst =
        followups.find? (isExecutable visited) := by
    induction followups with
    | nil => exact fun _ => rfl
    | cons item followups ih =>
      intro start
      rw [List.zipIdx_cons, List.filter_cons, List.find?_cons]
      cases isExecutable visited item with
      | true => rfl
      | false => exact ih (start + 1)
  exact hzip 0

/-- The cycle guard: an executable swap leads to a template that was not visited. -/
theorem not_mem_of_isExecutable {visited : List ℕ} {item : FollowupItem}
    (h : isExecutable visited item = true) (hkind : item.selectedKind = .swapTemplate)
    (templateId : ℕ) : item.target templateId ∉ visited := by
  cases item with
  | swapTemplate rationale target space => simpa [isExecutable, FollowupItem.target] using h
  | narrow rationale space => cases hkind
  | widen rationale space => cases hkind
  | text rationale => cases hkind

/-- Only a swap leaves the template. -/
theorem FollowupItem.target_eq {item : FollowupItem} (h : item.selectedKind ≠ .swapTemplate)
    (templateId : ℕ) : item.target templateId = templateId := by
  cases item with
  | swapTemplate rationale target space => exact absurd rfl h
  | narrow rationale space => rfl
  | widen rationale space => rfl
  | text rationale => rfl

end RelyLoop.Followups

/-! ## Documents -/

namespace RelyLoop.Followups

open Python Spaces

/-! ## Typed follow-ups -/

/-- A template id of `Field(min_length=36, max_length=36)`. -/
abbrev TemplateId := {id : String // id.length = 36}

/-- `NarrowFollowup`, `WidenFollowup`, `TextFollowup` and `SwapTemplateFollowup`. -/
inductive TypedFollowup where
  | narrow (rationale : String) (space : SearchSpace)
  | widen (rationale : String) (space : SearchSpace)
  | text (rationale : String)
  | swapTemplate (rationale : String) (templateId : TemplateId) (space : SearchSpace)

/-- `NormalizerStep.value`. -/
def stepValue : NormalizerStep → String
  | .lowercase => "lowercase"
  | .trim => "trim"
  | .collapseWhitespace => "collapse_whitespace"
  | .stripPunctuation => "strip_punctuation"
  | .expandContractionsEn => "expand_contractions_en"
  | .expandContractionsCustom => "expand_contractions_custom"

/-! ## Serialization -/

/-- `model_dump` of a parameter. -/
def dumpSpec : ParamSpec → Json ℚ
  | .float p => .dict ["type", "low", "high", "log"]
      [.str "float", .float p.low, .float p.high, .bool p.log]
  | .int p => .dict ["type", "low", "high"] [.str "int", .int p.low, .int p.high]
  | .categorical p => .dict ["type", "choices"]
      [.str "categorical", .list (p.choices.map Choice.toJson)]
  | .normalizerPipeline p => .dict ["type", "steps"]
      [.str "normalizer_pipeline", .list (p.steps.map fun step => .str (stepValue step))]

/-- `model_dump` of a search space. -/
def dumpSpace (space : SearchSpace) : Json ℚ :=
  .dict ["params"]
    [.dict space.params.keys (space.params.entries.map fun e => dumpSpec e.2)]

/-- `model_dump(mode="json")` of a follow-up. -/
def dumpFollowup : TypedFollowup → Json ℚ
  | .narrow rationale space => .dict ["kind", "rationale", "search_space"]
      [.str "narrow", .str rationale, dumpSpace space]
  | .widen rationale space => .dict ["kind", "rationale", "search_space"]
      [.str "widen", .str rationale, dumpSpace space]
  | .text rationale => .dict ["kind", "rationale", "search_space"]
      [.str "text", .str rationale, .null]
  | .swapTemplate rationale templateId space =>
      .dict ["kind", "rationale", "template_id", "search_space"]
        [.str "swap_template", .str rationale, .str templateId, dumpSpace space]

/-- `serialize_followup_list`. -/
def serializeFollowupList (items : List TypedFollowup) : List (Json ℚ) := items.map dumpFollowup

/-! ## Validation -/

/-- What Pydantic makes of a value in a field of type `float`, `int` or `bool`, `none` when
it rejects it; in its lax mode some values of other types are converted. -/
structure Coercions where
  toFloat : Json ℚ → Option ℚ
  toInt : Json ℚ → Option ℤ
  toBool : Json ℚ → Option Bool

/-- A value of the field's own type is taken as it is. -/
structure Coercions.Documented (c : Coercions) : Prop where
  toFloat_float : ∀ q, c.toFloat (.float q) = some q
  toInt_int : ∀ i, c.toInt (.int i) = some i
  toBool_bool : ∀ b, c.toBool (.bool b) = some b

/-- An object without other fields, as `extra="forbid"` asks for. -/
def hasOnly (fields : List String) : Json ℚ → Bool
  | .dict keys _ => keys.all (· ∈ fields)
  | _ => false

/-- A field of type `str`. -/
def textField (key : String) (doc : Json ℚ) : Option String :=
  match doc.get? key with
  | some (.str text) => some text
  | _ => none

/-- A field of type `list`, with its elements validated. -/
def listField {α : Type} (validate : Json ℚ → Option α) (key : String) (doc : Json ℚ) :
    Option (List α) :=
  match doc.get? key with
  | some (.list items) => items.mapM validate
  | _ => none

/-- An element of `choices`: of the types of the union the one that the value has. -/
def validateChoice : Json ℚ → Option Choice
  | .str s => some (.str s)
  | .int i => some (.int i)
  | .float q => some (.float q)
  | .bool b => some (.bool b)
  | _ => none

/-- An element of `steps`. -/
def validateStep : Json ℚ → Option NormalizerStep
  | .str value =>
    [.lowercase, .trim, .collapseWhitespace, .stripPunctuation, .expandContractionsEn,
      .expandContractionsCustom].find? fun step => stepValue step = value
  | _ => none

/-- The field `log`, with its default. -/
def validateLog (c : Coercions) (doc : Json ℚ) : Option Bool :=
  match doc.get? "log" with
  | none => some false
  | some value => c.toBool value

/-- `FloatParam.model_validate`. -/
def validateFloatParam (c : Coercions) (doc : Json ℚ) : Option ParamSpec := do
  let low ← (doc.get? "low").bind c.toFloat
  let high ← (doc.get? "high").bind c.toFloat
  let log ← validateLog c doc
  if h : low < high ∧ (log = true → 0 < low) then some (.float ⟨low, high, log, h.1, h.2⟩)
  else none

/-- `IntParam.model_validate`. -/
def validateIntParam (c : Coercions) (doc : Json ℚ) : Option ParamSpec := do
  let low ← (doc.get? "low").bind c.toInt
  let high ← (doc.get? "high").bind c.toInt
  if h : low ≤ high then some (.int ⟨low, high, h⟩) else none

/-- `CategoricalParam.model_validate`. -/
def validateCategoricalParam (doc : Json ℚ) : Option ParamSpec := do
  let choices ← listField validateChoice "choices" doc
  if h : choices ≠ [] then some (.categorical ⟨choices, h⟩) else none

/-- `NormalizerPipelineParam.model_validate`. -/
def validateNormalizerPipelineParam (doc : Json ℚ) : Option ParamSpec := do
  let steps ← listField validateStep "steps" doc
  if hnonempty : steps ≠ [] then
    if hdistinct : steps.Nodup then some (.normalizerPipeline ⟨steps, hnonempty, hdistinct⟩)
    else none
  else none

/-- A value of the union `ParamSpec`, by its `type`. -/
def validateSpec (c : Coercions) (doc : Json ℚ) : Option ParamSpec :=
  match textField "type" doc with
  | some "float" =>
    if hasOnly ["type", "low", "high", "log"] doc then validateFloatParam c doc else none
  | some "int" => if hasOnly ["type", "low", "high"] doc then validateIntParam c doc else none
  | some "categorical" =>
    if hasOnly ["type", "choices"] doc then validateCategoricalParam doc else none
  | some "normalizer_pipeline" =>
    if hasOnly ["type", "steps"] doc then validateNormalizerPipelineParam doc else none
  | _ => none

/-- An entry of `params`. -/
def validateEntry (c : Coercions) (e : String × Json ℚ) : Option (String × ParamSpec) :=
  (validateSpec c e.2).map (Prod.mk e.1)

/-- `SearchSpace.model_validate`. -/
def validateSearchSpace (c : Coercions) (doc : Json ℚ) : Option SearchSpace :=
  if hasOnly ["params"] doc then
    match doc.get? "params" with
    | some (.dict keys values) => do
      let entries ← (keys.zip values).mapM (validateEntry c)
      (SearchSpace.make (Dict.ofList entries)).toOption
    | _ => none
  else none

/-- The field `search_space` of an executable follow-up. -/
def spaceField (c : Coercions) (doc : Json ℚ) : Option SearchSpace :=
  (doc.get? "search_space").bind (validateSearchSpace c)

/-- `TextFollowup.model_validate`: the search space is absent or null. -/
def validateText (doc : Json ℚ) : Option TypedFollowup :=
  if hasOnly ["kind", "rationale", "search_space"] doc then
    match doc.get? "search_space" with
    | none | some .null => (textField "rationale" doc).map .text
    | _ => none
  else none

/-- `SwapTemplateFollowup.model_validate`. -/
def validateSwapTemplate (c : Coercions) (doc : Json ℚ) : Option TypedFollowup :=
  if hasOnly ["kind", "rationale", "template_id", "search_space"] doc then do
    let rationale ← textField "rationale" doc
    let templateId ← textField "template_id" doc
    let space ← spaceField c doc
    if h : templateId.length = 36 then some (.swapTemplate rationale ⟨templateId, h⟩ space)
    else none
  else none

/-- `NarrowFollowup.model_validate` and `WidenFollowup.model_validate`, by what they build. -/
def validateRange (c : Coercions) (build : String → SearchSpace → TypedFollowup)
    (doc : Json ℚ) : Option TypedFollowup :=
  if hasOnly ["kind", "rationale", "search_space"] doc then do
    let rationale ← textField "rationale" doc
    let space ← spaceField c doc
    some (build rationale space)
  else none

/-- `FollowupItemAdapter.validate_python`, `none` for a `ValidationError`. -/
def validateFollowup (c : Coercions) (doc : Json ℚ) : Option TypedFollowup :=
  match textField "kind" doc with
  | some "narrow" => validateRange c .narrow doc
  | some "widen" => validateRange c .widen doc
  | some "text" => validateText doc
  | some "swap_template" => validateSwapTemplate c doc
  | _ => none

/-! ## Parsing -/

/-- The exception that leaves `parse_followup_list`. -/
inductive FollowupParseError where
  | validationError
  deriving DecidableEq, Repr

/-- `TextFollowup(kind="text", rationale=rationale, search_space=None)`. -/
def makeText (rationale : String) : Except FollowupParseError TypedFollowup :=
  match validateText (.dict ["kind", "rationale", "search_space"]
    [.str "text", .str rationale, .null]) with
  | some item => .ok item
  | none => .error .validationError

/-- `_try_text_only`. -/
def tryTextOnlyDoc (doc : Json ℚ) (validationError : String) :
    Except FollowupParseError (Option TypedFollowup) :=
  match doc.get? "rationale" with
  | some (.str rationale) =>
    if strip rationale.toList = [] then .ok none
    else do
      let error := String.ofList (truncateValidationError validationError.toList)
      let item ← makeText ("[validation failed: " ++ error ++ "] " ++ rationale)
      return some item
  | _ => .ok none

/-- A pass of the loop of `parse_followup_list`; `none` drops the item. `errorText` is the
text of the `ValidationError`. -/
def parseDoc (c : Coercions) (errorText : Json ℚ → String) :
    Json ℚ → Except FollowupParseError (Option TypedFollowup)
  | .str rationale => do
    let item ← makeText rationale
    return some item
  | .dict keys values =>
    match validateFollowup c (.dict keys values) with
    | some item => .ok (some item)
    | none => tryTextOnlyDoc (.dict keys values) (errorText (.dict keys values))
  | _ => .ok none

/-- The loop of `parse_followup_list`. -/
def parseDocs (c : Coercions) (errorText : Json ℚ → String) :
    List (Json ℚ) → Except FollowupParseError (List TypedFollowup)
  | [] => .ok []
  | doc :: docs => do
    let item ← parseDoc c errorText doc
    let rest ← parseDocs c errorText docs
    return item.toList ++ rest

/-- `parse_followup_list` of the value in the column. -/
def parseStoredFollowups (c : Coercions) (errorText : Json ℚ → String) :
    Json ℚ → Except FollowupParseError (List TypedFollowup)
  | .list docs => parseDocs c errorText docs
  | _ => .ok []

end RelyLoop.Followups
