import RelyLoop.EcmaScript.Objects
import RelyLoop.EcmaScript.Patterns
import RelyLoop.Spaces.Defaults
import Mathlib.Data.List.Find

/-!
# The starter space of the wizard

`search-space-defaults.ts` builds the starter space in the browser. Its rules are tested on code
units, its parameters are the properties of an object, and its fallback sorts names by their code
units.
-/

namespace RelyLoop.Spaces.Wizard

open Python Text Pattern EcmaScript

/-! ## The port -/

/-- `HEURISTIC_RULES`. -/
def heuristicRules : List (String × ParamSpec) :=
  [("^(field_boost|boost_)", boostParam),
   ("^(boost|.+_boost)$", boostParam),
   ("^(tie_breaker|.*_weight)$", unitParam),
   ("^(slop|min_should_match|.*_size)$", smallIntParam),
   ("^fuzziness$", categorical (.str "AUTO") [.str "0", .str "1", .str "2"])]

/-- `match.test(name)`. -/
def ruleMatches (pattern name : String) : Bool :=
  (Pattern.read pattern.toList).any fun r => r.search ecmaFlavour (utf16 name.toList)

/-- `matchHeuristicRule`. -/
def matchHeuristicRule (name : String) : Option ParamSpec :=
  (heuristicRules.find? fun rule => ruleMatches rule.1 name).map Prod.snd

/-- `simpleFormSpec`. -/
def simpleFormSpec (typeName : String) : Option ParamSpec :=
  if typeName = "int" then some smallIntParam
  else if typeName = "float" then some unitParam
  else if typeName = "bool" then some (categorical (.bool true) [.bool false])
  else if typeName = "string" then some (categorical (.str "__placeholder__") [])
  else none

/-- `{ type: 'categorical', choices: [...NORMALIZER_VALUES] }`. -/
def normalizerParam : ParamSpec :=
  categorical (.str "none")
    [.str "lowercase", .str "lowercase+trim", .str "lowercase+trim+expand_contractions"]

/-- The first specification of a declared parameter. -/
def starterSpec (name typeName : String) : ParamSpec :=
  if name = "query_normalizer" then normalizerParam
  else match matchHeuristicRule name with
    | some spec => spec
    | none => (simpleFormSpec typeName).getD unitParam

/-- `regexMatched.has(name)`, for a declared name. -/
def regexMatched (name : String) : Bool :=
  name ≠ "query_normalizer" && (matchHeuristicRule name).isSome

/-- `estimateCardinality`. -/
def estimateCardinality (params : Dict String ParamSpec) : ℕ :=
  product ((objectEntries params).map fun e => e.2.size)

/-- The loop over the declared parameters. -/
def starterParams (declaredParams : Dict String String) : Dict String ParamSpec :=
  (objectEntries declaredParams).foldl
    (fun params e => assign params e.1 (starterSpec e.1 e.2)) Dict.empty

/-- The order in which the fallback converts floats. -/
def fallbackOrder (params : Dict String ParamSpec) : List String :=
  let floats := (objectKeys params).filter fun name => (params.get? name).any ParamSpec.isFloat
  sortByCodeUnits (floats.filter fun name => !regexMatched name) ++
    sortByCodeUnits (floats.filter regexMatched)

/-- Converts parameters until the cap holds, and returns the converted names. -/
def applyFallback : List String → Dict String ParamSpec → Dict String ParamSpec × List String
  | [], params => (params, [])
  | name :: names, params =>
    let params := assign params name smallIntParam
    if estimateCardinality params ≤ cardinalityCap then (params, [name])
    else ((applyFallback names params).1, name :: (applyFallback names params).2)

/-- `StarterSearchSpace`. -/
structure StarterSearchSpace where
  params : Dict String ParamSpec
  capAwareFallbackParamNames : List String

/-- The errors that are thrown. -/
inductive StarterError where
  | emptyDeclaredParams
  | fallbackExhausted (size : ℕ) (declared : List String)

/-- `buildStarterSearchSpace`. -/
def buildStarterSearchSpace (declaredParams : Dict String String) :
    Except StarterError StarterSearchSpace :=
  if (objectKeys declaredParams).length = 0 then .error .emptyDeclaredParams
  else
    let params := starterParams declaredParams
    if estimateCardinality params ≤ cardinalityCap then .ok ⟨params, []⟩
    else
      let fallback := applyFallback (fallbackOrder params) params
      let size := estimateCardinality fallback.1
      if cardinalityCap < size then
        .error (.fallbackExhausted size (sortByCodeUnits (objectKeys declaredParams)))
      else .ok ⟨fallback.1, fallback.2⟩

/-! ## Names -/

/-- The tables of identifiers: the characters that begin one, and those that go on. -/
structure IdentifierTable where
  isStart : Char → Bool
  isContinue : Char → Bool

/-- What is documented of the tables. -/
structure IdentifierTable.Documented (table : IdentifierTable) : Prop where
  start_continues : ∀ c, table.isStart c = true → table.isContinue c = true
  digit_not_start : ∀ c : Char, c.isDigit = true → table.isStart c = false
  one_line : ∀ c ∈ lineTerminators, table.isContinue c = false

/-- `name.isidentifier()`. -/
def IdentifierTable.isIdentifier (table : IdentifierTable) (name : String) : Bool :=
  name.toList.head?.any table.isStart && name.toList.all table.isContinue

/-- An identifier is no array index, and stands on one line. -/
structure IsPlainName (name : String) : Prop where
  arrayIndex : arrayIndex? name = none
  one_line : ∀ c ∈ name.toList, c ∉ lineTerminators

theorem isPlainName_of_isIdentifier {table : IdentifierTable} {name : String}
    (htable : table.Documented) (h : table.isIdentifier name = true) : IsPlainName name := by
  obtain ⟨hstart, hcontinue⟩ := Bool.and_eq_true_iff.mp h
  constructor
  · cases hname : name.toList with
    | nil =>
      rw [hname] at hstart
      cases hstart
    | cons c cs =>
      rw [hname] at hstart
      apply arrayIndex?_eq_none hname
      rw [Bool.eq_false_iff]
      intro hdigit
      have hnot := htable.digit_not_start c hdigit
      rw [show table.isStart c = true from hstart] at hnot
      cases hnot
  · intro c hc hterminator
    have hnot := htable.one_line c hterminator
    rw [List.all_eq_true.mp hcontinue c hc] at hnot
    cases hnot

/-! ## The rules -/

/-- A text, character by character. -/
def literal (text : String) : List Pattern := text.toList.map fun c => one (.oneOf [c])

section Rules

variable {pattern name : String} {r : Pattern} {rs : List Pattern}

theorem ruleMatches_start (hread : Pattern.read pattern.toList = some (seq start r))
    (h : isAscii r = true) : ruleMatches pattern name = Spaces.ruleMatches pattern name := by
  rw [ruleMatches, Spaces.ruleMatches, hread]
  exact search_start_isAscii h

theorem ruleMatches_start_finish
    (hread : Pattern.read pattern.toList = some (chain (start :: (rs ++ [finish]))))
    (h : Portable (chain rs)) (hname : ∀ c ∈ name.toList, c ∉ lineTerminators) :
    ruleMatches pattern name = Spaces.ruleMatches pattern name := by
  rw [ruleMatches, Spaces.ruleMatches, hread]
  exact search_start_finish h hname

/-- On one line, each rule is tested as it is matched. -/
theorem ruleMatches_eq (hname : ∀ c ∈ name.toList, c ∉ lineTerminators) :
    ∀ rule ∈ heuristicRules, ruleMatches rule.1 name = Spaces.ruleMatches rule.1 name := by
  have hbegins : Pattern.read "^(field_boost|boost_)".toList = some (seq start
      (chain [alt (chain (literal "field_boost")) (chain (literal "boost_"))])) := by
    decide +kernel
  have hboost : Pattern.read "^(boost|.+_boost)$".toList = some (chain (start ::
      ([alt (chain (literal "boost")) (chain (plus .any :: literal "_boost"))] ++
        [finish]))) := by
    decide +kernel
  have hweight : Pattern.read "^(tie_breaker|.*_weight)$".toList = some (chain (start ::
      ([alt (chain (literal "tie_breaker")) (chain (star .any :: literal "_weight"))] ++
        [finish]))) := by
    decide +kernel
  have hsize : Pattern.read "^(slop|min_should_match|.*_size)$".toList = some (chain (start ::
      ([alt (chain (literal "slop")) (alt (chain (literal "min_should_match"))
        (chain (star .any :: literal "_size")))] ++ [finish]))) := by
    decide +kernel
  have hfuzziness : Pattern.read "^fuzziness$".toList =
      some (chain (start :: (literal "fuzziness" ++ [finish]))) := by
    decide +kernel
  have hascii (text : String) (h : isAscii (chain (literal text)) = true) :
      Portable (chain (literal text)) := .ascii h
  simp only [heuristicRules, List.forall_mem_cons]
  refine ⟨ruleMatches_start hbegins (by decide +kernel), ?_, ?_, ?_, ?_, List.forall_mem_nil _⟩
  · exact ruleMatches_start_finish hboost
      (.last (.alt (hascii "boost" (by decide +kernel)) (.plusAny (by decide +kernel)))) hname
  · exact ruleMatches_start_finish hweight
      (.last (.alt (hascii "tie_breaker" (by decide +kernel)) (.starAny (by decide +kernel)))) hname
  · exact ruleMatches_start_finish hsize
      (.last (.alt (hascii "slop" (by decide +kernel))
        (.alt (hascii "min_should_match" (by decide +kernel)) (.starAny (by decide +kernel))))) hname
  · exact ruleMatches_start_finish hfuzziness (hascii "fuzziness" (by decide +kernel)) hname

theorem matchHeuristicRule_eq (hname : ∀ c ∈ name.toList, c ∉ lineTerminators) :
    matchHeuristicRule name = Spaces.matchHeuristicRule name := by
  rw [matchHeuristicRule, Spaces.matchHeuristicRule]
  exact congrArg (Option.map Prod.snd) (List.find?_congr (ruleMatches_eq hname))

theorem starterSpec_eq (hname : ∀ c ∈ name.toList, c ∉ lineTerminators) (typeName : String) :
    starterSpec name typeName = Spaces.starterSpec name typeName := by
  rw [starterSpec, matchHeuristicRule_eq hname]
  rfl

theorem regexMatched_eq (hname : ∀ c ∈ name.toList, c ∉ lineTerminators) :
    regexMatched name = Spaces.regexMatched name := by
  rw [regexMatched, matchHeuristicRule_eq hname]
  rfl

end Rules

end RelyLoop.Spaces.Wizard
