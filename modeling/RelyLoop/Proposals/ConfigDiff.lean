import RelyLoop.Python.Dict
import RelyLoop.Python.Json
import RelyLoop.Python.Text
import Mathlib.Data.Rat.Defs

/-!
# Config diffs

A proposal carries what it changes in the parameters of its template. `_apply_config_diff` checks
each key and value and writes the new values into the params file of the pull request. The digest
and the chat tool write diffs of their own shapes.
-/

namespace RelyLoop.Proposals

open Python

/-- A JSON object, as the columns hold it. -/
abbrev Document := Dict String (Json ℚ)

/-- How `_apply_config_diff` raises. -/
inductive ConfigDiffError where
  | paramNotInTemplate (keys : List String)
  | paramsFileNotFound
  | missingTo (key : String)
  | paramValueInvalid (key : String)
  deriving DecidableEq, Repr

/-- What reading the params file gives. -/
inductive ParamsFile where
  | missing
  | unreadable
  | malformed
  | value (v : Json ℚ)

/-! ## Applying a diff -/

/-- The keywords of `_NUMERIC_PARAM_TYPES`, `_INT_PARAM_TYPES` and `_BOOL_PARAM_TYPES`. -/
def numericParamTypes : List String := ["float", "number", "double"]
def intParamTypes : List String := ["int", "integer"]
def boolParamTypes : List String := ["bool", "boolean"]

/-- The type of a declared parameter, in the simple or the rich form. -/
def declaredType : Json ℚ → Option String
  | .str s => some s
  | .dict keys values =>
    match Json.get? "type" (.dict keys values) with
    | some (.str s) => some s
    | _ => none
  | _ => none

/-- `_validate_config_value_type` accepts the value. -/
def valueTypeOk (table : CharacterTable) (value : Json ℚ) (declared : Option (Json ℚ)) : Bool :=
  match declared.bind declaredType with
  | none => true
  | some text =>
    let t := String.ofList (table.lower (strip text.toList))
    if t ∈ numericParamTypes then
      match value with
      | .int _ | .float _ => true
      | _ => false
    else if t ∈ intParamTypes then
      match value with
      | .int _ => true
      | _ => false
    else if t ∈ boolParamTypes then
      match value with
      | .bool _ => true
      | _ => false
    else true

/-- The loop of `_apply_config_diff` over the changes. -/
def applyChanges (table : CharacterTable) (declaredParams : Document) :
    List (String × Json ℚ) → Document → Except ConfigDiffError Document
  | [], current => .ok current
  | (key, change) :: changes, current =>
    match Json.get? "to" change with
    | none => .error (.missingTo key)
    | some value =>
      if valueTypeOk table value (declaredParams.get? key) then
        applyChanges table declaredParams changes (current.set key value)
      else .error (.paramValueInvalid key)

/-- `_apply_config_diff`, up to writing the file back. -/
def applyConfigDiff (table : CharacterTable) (file : ParamsFile) (configDiff : Document)
    (declaredParams : Document) : Except ConfigDiffError Document :=
  let drifted := configDiff.keys.filter (· ∉ declaredParams.keys)
  if drifted ≠ [] then .error (.paramNotInTemplate drifted)
  else match file with
    | .value (.dict keys values) =>
      applyChanges table declaredParams configDiff.entries (Dict.ofList (keys.zip values))
    | _ => .error .paramsFileNotFound

/-! ## Writing a diff -/

/-- `{p: v for p, v in best_params.items() if p in declared}`. -/
def recommendedConfig (bestParams declaredParams : Document) : Document :=
  ⟨bestParams.entries.filter fun e => e.1 ∈ declaredParams.keys,
    bestParams.nodup.sublist (List.filter_sublist.map Prod.fst)⟩

/-- `{p: {"from": template_defaults.get(p), "to": v} for p, v in recommended_config.items()}`. -/
def digestDiff (templateDefaults recommended : Document) : Document :=
  recommended.mapItems fun p v => .dict ["from", "to"] [(templateDefaults.get? p).getD .null, v]

theorem nodup_toolKeys : ([("params", (.dict [] [] : Json ℚ)),
    ("source", .str "study_best_trial")].map Prod.fst).Nodup := by
  simp

/-- The diff of `create_proposal_from_study`. -/
def toolDiff : Document :=
  ⟨[("params", .dict [] []), ("source", .str "study_best_trial")], nodup_toolKeys⟩

/-! ## What a diff writes -/

/-- The diff is accepted for every params file that holds an object, and writes exactly the given
parameters. -/
def Writes (table : CharacterTable) (declaredParams bestParams configDiff : Document) : Prop :=
  ∀ keys values, applyConfigDiff table (.value (.dict keys values)) configDiff declaredParams =
    .ok ((Dict.ofList (keys.zip values)).update bestParams)

/-- The values have the declared types. -/
def TypesOk (table : CharacterTable) (declaredParams bestParams : Document) : Prop :=
  ∀ key value, (key, value) ∈ bestParams.entries →
    valueTypeOk table value (declaredParams.get? key) = true

variable {table : CharacterTable} {declaredParams bestParams templateDefaults : Document}

/-- Declared parameters are recommended as they are. -/
theorem recommendedConfig_eq (h : ∀ key ∈ bestParams.keys, key ∈ declaredParams.keys) :
    recommendedConfig bestParams declaredParams = bestParams := by
  have hall : bestParams.entries.filter (fun e => e.1 ∈ declaredParams.keys) =
      bestParams.entries :=
    List.filter_eq_self.mpr fun e he => decide_eq_true (h e.1 (List.mem_map_of_mem he))
  obtain ⟨entries, hnodup⟩ := bestParams
  simp only [recommendedConfig, hall]

/-- The changes of a digest are applied when their values have the declared types. -/
theorem applyChanges_digest_iff {entries : List (String × Json ℚ)} {current next : Document} :
    applyChanges table declaredParams
        (entries.map fun e =>
          (e.1, .dict ["from", "to"] [(templateDefaults.get? e.1).getD .null, e.2])) current =
          .ok next ↔
      (∀ e ∈ entries, valueTypeOk table e.2 (declaredParams.get? e.1) = true) ∧
        next = entries.foldl (fun d e => d.set e.1 e.2) current := by
  induction entries generalizing current with
  | nil =>
    rw [List.map_nil, applyChanges, List.foldl_nil, Except.ok.injEq]
    exact ⟨fun h => ⟨by simp, h.symm⟩, fun h => h.2.symm⟩
  | cons e entries ih =>
    rw [List.map_cons, applyChanges]
    have hto : Json.get? "to" (.dict ["from", "to"]
        [(templateDefaults.get? e.1).getD .null, e.2]) = some e.2 := rfl
    simp only [hto, List.forall_mem_cons, List.foldl_cons]
    split
    · rename_i htype
      rw [ih]
      simp [htype]
    · rename_i htype
      simp [htype]

/-- The diff of a digest writes the best parameters exactly when they have the declared types. -/
theorem writes_digestDiff_iff (h : ∀ key ∈ bestParams.keys, key ∈ declaredParams.keys) :
    Writes table declaredParams bestParams (digestDiff templateDefaults bestParams) ↔
      TypesOk table declaredParams bestParams := by
  have hdrifted : (digestDiff templateDefaults bestParams).keys.filter
      (· ∉ declaredParams.keys) = [] := by
    rw [List.filter_eq_nil_iff, digestDiff, Dict.keys_mapItems]
    intro key hkey
    simpa using h key hkey
  have happly : ∀ keys values,
      applyConfigDiff table (.value (.dict keys values)) (digestDiff templateDefaults bestParams)
          declaredParams = .ok ((Dict.ofList (keys.zip values)).update bestParams) ↔
        ∀ e ∈ bestParams.entries, valueTypeOk table e.2 (declaredParams.get? e.1) = true := by
    intro keys values
    simp only [applyConfigDiff, hdrifted, ne_eq, not_true_eq_false, if_false]
    rw [digestDiff, Dict.mapItems, applyChanges_digest_iff]
    exact and_iff_left rfl
  constructor
  · exact fun hwrites key value hmem => (happly [] []).mp (hwrites [] []) (key, value) hmem
  · exact fun htypes keys values => (happly keys values).mpr fun e he => htypes e.1 e.2 he

/-- No template accepts the diff of the tool. -/
theorem not_writes_toolDiff : ¬ Writes table declaredParams bestParams toolDiff := by
  intro h
  have hok := h [] []
  simp only [applyConfigDiff] at hok
  split at hok
  · cases hok
  · simp [toolDiff, applyChanges, Json.get?] at hok

end RelyLoop.Proposals
