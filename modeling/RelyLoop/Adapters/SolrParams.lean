import RelyLoop.Python.Dict
import RelyLoop.Python.Json

/-!
# Parameters of a Solr request

`_pivot_to_solr_params` makes a Solr request of a rendered template. The template may mix native
and unified names. A unified name and the native one that it stands for lead to one parameter, and
of two such entries the later one wins.
-/

namespace RelyLoop.Adapters

open Python

variable {F : Type}

/-- `InvalidQueryDSLError`. -/
structure InvalidQueryDslError where
  message : String
  deriving DecidableEq

/-- `repr` of a float and of any value. -/
structure Reprs (F : Type) where
  float : F → String
  value : Json F → String

/-- `type(value).__name__`. -/
def typeName : Json F → String
  | .null => "NoneType"
  | .bool _ => "bool"
  | .int _ => "int"
  | .float _ => "float"
  | .str _ => "str"
  | .list _ => "list"
  | .dict _ _ => "dict"

/-- `str` of an integer. -/
def strInt (i : ℤ) : String := String.ofList (intText i)

/-- `_format_number`, for the values that are numbers. -/
def formatNumber (R : Reprs F) : Json F → Option String
  | .bool b => some (if b then "true" else "false")
  | .int i => some (strInt i)
  | .float f => some (R.float f)
  | _ => none

/-- A part of `_join_field_boosts`. -/
def fieldBoost (R : Reprs F) (field : String) (boost : Json F) :
    Except InvalidQueryDslError String :=
  match boost with
  | .null => .error ⟨"field_boosts: missing boost for field " ++ R.value (.str field)⟩
  | .int i => .ok (field ++ "^" ++ strInt i)
  | .float f => .ok (field ++ "^" ++ R.float f)
  | other => .error ⟨"field_boosts[" ++ R.value (.str field) ++ "]: boost must be a number, got " ++
      typeName other⟩

/-- `_join_field_boosts`. -/
def joinFieldBoosts (R : Reprs F) (items : List (String × Json F)) :
    Except InvalidQueryDslError String := do
  let parts ← items.mapM fun e => fieldBoost R e.1 e.2
  return " ".intercalate parts

/-! ## The pivots -/

/-- `_render_qf` and `_render_pf`: the boosts of some fields under a native name. -/
def renderFieldBoosts (name native : String) (R : Reprs F) (value : Json F) :
    Except InvalidQueryDslError (String × Json F) :=
  match value with
  | .dict fields boosts => do return (native, .str (← joinFieldBoosts R (fields.zip boosts)))
  | other => .error ⟨name ++ " must be a dict, got " ++ typeName other⟩

/-- `_render_qf`. -/
def renderQf (R : Reprs F) : Json F → Except InvalidQueryDslError (String × Json F) :=
  renderFieldBoosts "field_boosts" "qf" R

/-- `_render_pf`. -/
def renderPf (R : Reprs F) : Json F → Except InvalidQueryDslError (String × Json F) :=
  renderFieldBoosts "phrase_field_boosts" "pf" R

/-- `_render_tie`. -/
def renderTie (R : Reprs F) (value : Json F) : Except InvalidQueryDslError (String × Json F) :=
  match formatNumber R value with
  | some text => .ok ("tie", .str text)
  | none => .error ⟨"tie_breaker must be a number, got " ++ typeName value⟩

/-- `_render_mm`. -/
def renderMm (R : Reprs F) (value : Json F) : Except InvalidQueryDslError (String × Json F) :=
  match value with
  | .str text => .ok ("mm", .str text)
  | value =>
    match formatNumber R value with
    | some text => .ok ("mm", .str text)
    | none => .error ⟨"min_should_match must be int|float|str, got " ++ typeName value⟩

/-- `str` of a value that is an `int`; so is a `bool`. -/
def asIntText : Json F → Option String
  | .bool b => some (if b then "True" else "False")
  | .int i => some (strInt i)
  | _ => none

/-- `_render_ps`. -/
def renderPs (value : Json F) : Except InvalidQueryDslError (String × Json F) :=
  match asIntText value with
  | some text => .ok ("ps", .str text)
  | none => .error ⟨"slop must be an int, got " ++ typeName value⟩

/-- A non-empty text. -/
def asNonEmptyText : Option (Json F) → Option String
  | some (.str text) => if text = "" then none else some text
  | _ => none

/-- `_render_boost_fn`. -/
def renderBoostFn (R : Reprs F) (value : Json F) : Except InvalidQueryDslError (String × Json F) :=
  match value with
  | .dict keys values =>
    match asNonEmptyText ((Json.dict keys values).get? "expr") with
    | none => .error ⟨"boost_fn.expr must be a non-empty string"⟩
    | some expr =>
      match (Json.dict keys values).get? "combine" with
      | some (.str "add") => .ok ("bf", .str expr)
      | some (.str "multiply") => .ok ("boost", .str expr)
      | combine => .error ⟨"boost_fn.combine must be 'add' or 'multiply', got " ++
          R.value (combine.getD .null)⟩
  | other => .error ⟨"boost_fn must be a dict, got " ++ typeName other⟩

/-- `str` of a positive `int`. -/
def asPositiveText : Option (Json F) → Option String
  | some (.bool true) => some "True"
  | some (.int i) => if i ≤ 0 then none else some (strInt i)
  | _ => none

/-- `_render_rerank_model`. -/
def renderRerankModel (value : Json F) : Except InvalidQueryDslError (String × Json F) :=
  match value with
  | .dict keys values =>
    match asNonEmptyText ((Json.dict keys values).get? "id") with
    | none => .error ⟨"rerank_model.id must be a non-empty string"⟩
    | some modelId =>
      match asPositiveText ((Json.dict keys values).get? "top_k") with
      | none => .error ⟨"rerank_model.top_k must be a positive int"⟩
      | some topK =>
        .ok ("rq", .str ("\x7b!ltr model=" ++ modelId ++ " reRankDocs=" ++ topK ++ "\x7d"))
  | other => .error ⟨"rerank_model must be a dict, got " ++ typeName other⟩

/-- `_PARAM_PIVOTS`. -/
def paramPivots (R : Reprs F) :
    List (String × (Json F → Except InvalidQueryDslError (String × Json F))) :=
  [("field_boosts", renderQf R), ("phrase_field_boosts", renderPf R), ("tie_breaker", renderTie R),
    ("min_should_match", renderMm R), ("slop", renderPs), ("boost_fn", renderBoostFn R),
    ("rerank_model", renderRerankModel)]

/-- `_SOLR_NATIVE_PARAMS`. -/
def solrNativeParams : List String :=
  ["defType", "q", "qf", "pf", "pf2", "pf3", "tie", "mm", "ps", "qs", "bf", "boost", "rq", "fl",
    "rows", "start", "sort", "fq", "debugQuery", "debug", "wt"]

mutual

/-- `_coerce_to_solr_param_value`. -/
def coerceToSolrParamValue (R : Reprs F) : Json F → Json F
  | .list items => .list (coerceItems R items)
  | .bool b => .str (if b then "true" else "false")
  | .int i => .str (strInt i)
  | .float f => .str (R.float f)
  | .str text => .str text
  | .null => .null
  | .dict keys values => .dict keys values

/-- The items of a coerced list. -/
def coerceItems (R : Reprs F) : List (Json F) → List (Json F)
  | [] => []
  | item :: items => coerceToSolrParamValue R item :: coerceItems R items

end

/-- `_unified_parameter_error_message`. -/
def unifiedParameterErrorMessage (R : Reprs F) (key : String) : String :=
  if key = "fuzziness" then
    "unified parameter 'fuzziness' has no Solr edismax equivalent; " ++
      "use the '~' operator in the query body"
  else
    "unified parameter " ++ R.value (.str key) ++ " has no Solr pivot; " ++
      "use a Solr-native param name (qf, pf, tie, mm, ps, bf, boost, rq, ...) " ++
      "or one of: field_boosts, phrase_field_boosts, tie_breaker, " ++
      "min_should_match, slop, boost_fn, rerank_model"

/-- The Solr name and value of an entry. -/
def translate (R : Reprs F) (key : String) (value : Json F) :
    Except InvalidQueryDslError (String × Json F) :=
  match (paramPivots R).lookup key with
  | some pivot => pivot value
  | none =>
    if key ∈ solrNativeParams then .ok (key, coerceToSolrParamValue R value)
    else .error ⟨unifiedParameterErrorMessage R key⟩

/-- `_pivot_to_solr_params`. -/
def pivotToSolrParams (R : Reprs F) (rendered : Dict String (Json F)) :
    Except InvalidQueryDslError (Dict String (Json F)) :=
  rendered.entries.foldlM (fun out e => do
    let (solrKey, solrValue) ← translate R e.1 e.2
    return out.set solrKey solrValue) Dict.empty

end RelyLoop.Adapters
