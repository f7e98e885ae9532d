import RelyLoop.Spaces.Params
import RelyLoop.Python.Json
import RelyLoop.Python.Text
import RelyLoop.Text.Patterns

/-!
# Starter spaces

`build_starter_search_space` makes a space from what a template declares, and
`narrow_bounds_around_winner` narrows it around the best trial. The starter has the declared
names; neither step changes what a name stands for.
-/

namespace RelyLoop.Spaces

open Python Text

/-! ## The starter space -/

theorem half_lt_ten : (1 / 2 : ℚ) < 10 := by norm_num

theorem half_pos (_ : true = true) : (0 : ℚ) < 1 / 2 := by norm_num

theorem not_log {p : Prop} (h : false = true) : p := by cases h

theorem zero_le_five : (0 : ℤ) ≤ 5 := by norm_num

/-- Log-uniform from 0.5 to 10. -/
def boostParam : ParamSpec := .float ⟨1 / 2, 10, true, half_lt_ten, half_pos⟩

/-- Uniform from 0 to 1. -/
def unitParam : ParamSpec := .float ⟨0, 1, false, zero_lt_one, not_log⟩

/-- From 0 to 5. -/
def smallIntParam : ParamSpec := .int ⟨0, 5, zero_le_five⟩

/-- A categorical parameter with at least one choice. -/
def categorical (choice : Choice) (choices : List Choice) : ParamSpec :=
  .categorical ⟨choice :: choices, List.cons_ne_nil choice choices⟩

/-- `HEURISTIC_RULES`. -/
def heuristicRules : List (String × ParamSpec) :=
  [("^(field_boost|boost_)", boostParam),
   ("^(boost|.+_boost)$", boostParam),
   ("^(tie_breaker|.*_weight)$", unitParam),
   ("^(slop|min_should_match|.*_size)$", smallIntParam),
   ("^fuzziness$", categorical (.str "AUTO") [.str "0", .str "1", .str "2"])]

/-- `pattern.match(name)`; no rule uses a table. -/
def ruleMatches (pattern name : String) : Bool :=
  (Pattern.read pattern.toList).any fun r =>
    r.matchesStart (pythonFlavour Char.isAlphanum isWhitespace) name.toList

/-- `_match_heuristic_rule`. -/
def matchHeuristicRule (name : String) : Option ParamSpec :=
  (heuristicRules.find? fun rule => ruleMatches rule.1 name).map Prod.snd

/-- `simple_form_spec`. -/
def simpleFormSpec (typeName : String) : Option ParamSpec :=
  if typeName = "int" then some smallIntParam
  else if typeName = "float" then some unitParam
  else if typeName = "bool" then some (categorical (.bool true) [.bool false])
  else if typeName = "string" then some (categorical (.str "__placeholder__") [])
  else none

theorem map_normalizerChoices_ne_nil : normalizerChoices.map Choice.str ≠ [] := by
  simp [normalizerChoices]

/-- All normalizers. -/
def normalizerParam : ParamSpec :=
  .categorical ⟨normalizerChoices.map .str, map_normalizerChoices_ne_nil⟩

/-- The first specification of a declared parameter. -/
def starterSpec (name typeName : String) : ParamSpec :=
  if name = queryNormalizer then normalizerParam
  else match matchHeuristicRule name with
    | some spec => spec
    | none => (simpleFormSpec typeName).getD unitParam

/-- `regex_matched`. -/
def regexMatched (name : String) : Bool :=
  name ≠ queryNormalizer && (matchHeuristicRule name).isSome

/-- A parameter of the type `float`. -/
def ParamSpec.isFloat : ParamSpec → Bool
  | float _ => true
  | _ => false

/-- The order in which the fallback converts floats. -/
def fallbackOrder (params : Dict String ParamSpec) : List String :=
  let floats := (params.entries.filter fun e => e.2.isFloat).map Prod.fst
  sortedNames (floats.filter fun name => !regexMatched name) ++
    sortedNames (floats.filter regexMatched)

/-- Converts parameters until the cap holds, and returns the converted names. -/
def applyFallback : List String → Dict String ParamSpec → Dict String ParamSpec × List String
  | [], params => (params, [])
  | name :: names, params =>
    let params := params.set name smallIntParam
    if estimateCardinality params ≤ cardinalityCap then (params, [name])
    else ((applyFallback names params).1, name :: (applyFallback names params).2)

/-- `StarterSearchSpace`. -/
structure StarterSearchSpace where
  space : SearchSpace
  capAwareFallbackParamNames : List String

/-- `build_starter_search_space`. -/
def buildStarterSearchSpace (declaredParams : Dict String String) :
    Except SpaceError StarterSearchSpace :=
  if declaredParams.entries = [] then .error .noParams
  else
    let params := declaredParams.mapItems starterSpec
    if estimateCardinality params ≤ cardinalityCap then
      (SearchSpace.make params).map fun space => ⟨space, []⟩
    else
      let fallback := applyFallback (fallbackOrder params) params
      let size := estimateCardinality fallback.1
      if size ≤ cardinalityCap then
        (SearchSpace.make fallback.1).map fun space => ⟨space, fallback.2⟩
      else .error (.fallbackExhausted size (sortedNames declaredParams.keys))

/-! ## Narrowing -/

/-- The operations of `float` that narrowing uses. -/
structure FloatArith where
  /-- `float(i)`, `none` for an `OverflowError`. -/
  ofInt : ℤ → Option ℚ
  add : ℚ → ℚ → ℚ
  sub : ℚ → ℚ → ℚ
  mul : ℚ → ℚ → ℚ
  div : ℚ → ℚ → ℚ
  sqrtTwo : ℚ

/-- The operations without rounding, and the float closest to the root of two. -/
def exactArith : FloatArith where
  ofInt i := some i
  add := (· + ·)
  sub := (· - ·)
  mul := (· * ·)
  div := (· / ·)
  sqrtTwo := 14142135623730951 / 10000000000000000

/-- How narrowing raises. -/
inductive NarrowError where
  | overflow
  | invalid (e : SpaceError)
  deriving DecidableEq, Repr

variable (A : FloatArith)

/-- `_narrow_float_bounds`. -/
def narrowFloatBounds (spec : FloatParam) (winner bracket : ℚ) : Option FloatParam :=
  if winner ≤ spec.low ∨ winner ≥ spec.high then none
  else
    let halfWidth := A.mul |winner| bracket
    let newLow := max spec.low
      (if spec.log then A.div winner A.sqrtTwo else A.sub winner halfWidth)
    let newHigh := min spec.high
      (if spec.log then A.mul winner A.sqrtTwo else A.add winner halfWidth)
    if h : newLow < newHigh then
      some ⟨newLow, newHigh, spec.log, h, fun hlog => lt_max_of_lt_left (spec.positive hlog)⟩
    else none

/-- `_narrow_int_bounds`. -/
def narrowIntBounds (spec : IntParam) (winner : ℤ) (bracket : ℚ) :
    Except NarrowError (Option IntParam) :=
  if winner ≤ spec.low ∨ winner ≥ spec.high then .ok none
  else match A.ofInt |winner|, A.ofInt winner with
    | some size, some value =>
      let halfWidth := A.mul size bracket
      let newLow := max spec.low ⌊A.sub value halfWidth⌋
      let newHigh := min spec.high ⌈A.add value halfWidth⌉
      .ok (if h : newLow ≤ newHigh then some ⟨newLow, newHigh, h⟩ else none)
    | _, _ => .error .overflow

/-- One parameter of `narrow_bounds_around_winner`; `none` leaves it alone. -/
def narrowSpec (spec : ParamSpec) (winner : Json ℚ) (bracket : ℚ) :
    Except NarrowError (Option ParamSpec) :=
  match spec, winner with
  | .float p, .float q => .ok ((narrowFloatBounds A p q bracket).map .float)
  | .float p, .int i =>
    match A.ofInt i with
    | some q => .ok ((narrowFloatBounds A p q bracket).map .float)
    | none => .error .overflow
  | .int p, .int i => (narrowIntBounds A p i bracket).map (Option.map .int)
  | _, _ => .ok none

/-- The loop over the parameters: the new specifications and the narrowed names. -/
def narrowParams (winningParams : Dict String (Json ℚ)) (bracket : ℚ) :
    List (String × ParamSpec) → Dict String ParamSpec → List String →
      Except NarrowError (Dict String ParamSpec × List String)
  | [], params, narrowed => .ok (params, narrowed)
  | (name, spec) :: rest, params, narrowed =>
    match winningParams.get? name with
    | none => narrowParams winningParams bracket rest params narrowed
    | some winner =>
      match narrowSpec A spec winner bracket with
      | .error e => .error e
      | .ok none => narrowParams winningParams bracket rest params narrowed
      | .ok (some spec') =>
        narrowParams winningParams bracket rest (params.set name spec') (narrowed ++ [name])

/-- `narrow_bounds_around_winner`. -/
def narrowBoundsAroundWinner (space : SearchSpace) (winningParams : Dict String (Json ℚ))
    (bracket : ℚ := 1 / 2) : Except NarrowError (SearchSpace × List String) :=
  match narrowParams A winningParams bracket space.params.entries space.params [] with
  | .error e => .error e
  | .ok (_, []) => .ok (space, [])
  | .ok (params, narrowed) =>
    match SearchSpace.make params with
    | .error e => .error (.invalid e)
    | .ok space => .ok (space, sortedNames narrowed)

/-! ## What stays the same -/

/-- A parameter of the type `float` or `int`. -/
def ParamSpec.isNumeric : ParamSpec → Bool
  | float _ | int _ => true
  | categorical _ | normalizerPipeline _ => false

/-- The names are the given ones, each with a specification that it allows. -/
structure Fits (names : List String) (params : Dict String ParamSpec) : Prop where
  keys : ∀ name, name ∈ params.keys ↔ name ∈ names
  allowed : ∀ name spec, params.get? name = some spec → SpecAllowed name spec

variable {A} {names : List String} {params : Dict String ParamSpec}
  {declaredParams : Dict String String} {winningParams : Dict String (Json ℚ)} {bracket : ℚ}

theorem Fits.set (h : Fits names params) {name : String} (hname : name ∈ names)
    {spec : ParamSpec} (hspec : SpecAllowed name spec) : Fits names (params.set name spec) := by
  constructor
  · rw [Dict.keys_set_of_mem ((h.keys name).mpr hname)]
    exact h.keys
  · intro name' spec' hget
    rw [Dict.get?_set] at hget
    split at hget
    · rename_i heq
      subst heq
      exact Option.some.inj hget ▸ hspec
    · exact h.allowed name' spec' hget

/-- A space with the declared names and allowed specifications passes both checks. -/
theorem Fits.accepted {space : SearchSpace} (h : Fits declaredParams.keys space.params)
    (templateName : String) :
    validateAgainstTemplate space declaredParams templateName = .ok () ∧
      validateNormalizerReservation space = .ok () :=
  ⟨validateAgainstTemplate_iff.mpr h.keys, validateNormalizerReservation_iff.mpr h.allowed⟩

theorem SearchSpace.params_of_make {space : SearchSpace} (h : SearchSpace.make params = .ok space) :
    space.params = params := by
  unfold make at h
  split at h
  · cases h
  · split at h
    · cases h
      rfl
    · cases h

/-! ## The starter space fits its template -/

theorem isPipeline_of_mem_heuristicRules :
    ∀ rule ∈ heuristicRules, rule.2.isPipeline = false := by
  simp [heuristicRules, boostParam, unitParam, smallIntParam, categorical, ParamSpec.isPipeline]

theorem isPipeline_of_matchHeuristicRule {name : String} {spec : ParamSpec}
    (h : matchHeuristicRule name = some spec) : spec.isPipeline = false := by
  obtain ⟨rule, hrule, rfl⟩ := Option.map_eq_some_iff.mp h
  exact isPipeline_of_mem_heuristicRules rule (List.mem_of_find?_eq_some hrule)

theorem isPipeline_simpleFormSpec (typeName : String) :
    ((simpleFormSpec typeName).getD unitParam).isPipeline = false := by
  unfold simpleFormSpec
  split_ifs <;> rfl

theorem specAllowed_starterSpec (name typeName : String) :
    SpecAllowed name (starterSpec name typeName) := by
  unfold SpecAllowed starterSpec
  split
  · simp [IsNormalizerSpec, normalizerParam, isNormalizerChoice]
  · cases hmatch : matchHeuristicRule name with
    | some spec => exact isPipeline_of_matchHeuristicRule hmatch
    | none => exact isPipeline_simpleFormSpec typeName

theorem fits_starterSpec (declaredParams : Dict String String) :
    Fits declaredParams.keys (declaredParams.mapItems starterSpec) := by
  refine ⟨fun name => by rw [Dict.keys_mapItems], fun name spec h => ?_⟩
  rw [Dict.get?_mapItems] at h
  obtain ⟨typeName, -, rfl⟩ := Option.map_eq_some_iff.mp h
  exact specAllowed_starterSpec name typeName

/-- The reserved key holds no number. -/
theorem SpecAllowed.ne_queryNormalizer {name : String} {spec : ParamSpec}
    (h : SpecAllowed name spec) (hnumeric : spec.isNumeric = true) : name ≠ queryNormalizer := by
  rintro rfl
  cases spec <;> simp_all [SpecAllowed, IsNormalizerSpec, ParamSpec.isNumeric]

/-- A number may stand for another number. -/
theorem SpecAllowed.of_isNumeric {name : String} {spec spec' : ParamSpec}
    (h : SpecAllowed name spec) (hnumeric : spec.isNumeric = true)
    (hnumeric' : spec'.isNumeric = true) : SpecAllowed name spec' := by
  rw [SpecAllowed, if_neg (h.ne_queryNormalizer hnumeric)]
  cases spec' <;> simp_all [ParamSpec.isNumeric, ParamSpec.isPipeline]

theorem isNumeric_of_isFloat {spec : ParamSpec} (h : spec.isFloat = true) :
    spec.isNumeric = true := by
  cases spec <;> simp_all [ParamSpec.isFloat, ParamSpec.isNumeric]

theorem mem_fallbackOrder (h : Fits names params) {name : String}
    (hname : name ∈ fallbackOrder params) : name ∈ names ∧ name ≠ queryNormalizer := by
  have hfloat : name ∈ (params.entries.filter fun e => e.2.isFloat).map Prod.fst := by
    simp only [fallbackOrder, List.mem_append, mem_sortedNames] at hname
    rcases hname with hplain | hmatched
    · exact List.mem_of_mem_filter hplain
    · exact List.mem_of_mem_filter hmatched
  obtain ⟨e, he, rfl⟩ := List.mem_map.mp hfloat
  obtain ⟨hmem, hisFloat⟩ := List.mem_filter.mp he
  constructor
  · exact (h.keys e.1).mp (List.mem_map_of_mem hmem)
  · exact (h.allowed e.1 e.2 ((params.get?_eq_some_iff e.1 e.2).mpr hmem)).ne_queryNormalizer
      (isNumeric_of_isFloat hisFloat)

theorem Fits.applyFallback {order : List String} (h : Fits names params)
    (horder : ∀ name ∈ order, name ∈ names ∧ name ≠ queryNormalizer) :
    Fits names (applyFallback order params).1 := by
  induction order generalizing params with
  | nil => exact h
  | cons name order ih =>
    obtain ⟨hname, hplain⟩ := horder name List.mem_cons_self
    have hset : Fits names (params.set name smallIntParam) :=
      h.set hname (by rw [SpecAllowed, if_neg hplain]; rfl)
    unfold Spaces.applyFallback
    simp only
    split
    · exact hset
    · exact ih hset fun name' hname' => horder name' (List.mem_cons_of_mem name hname')

/-- The starter space has the declared names and allowed specifications. -/
theorem fits_of_buildStarterSearchSpace {starter : StarterSearchSpace}
    (h : buildStarterSearchSpace declaredParams = .ok starter) :
    Fits declaredParams.keys starter.space.params := by
  have hstart := fits_starterSpec declaredParams
  have hmake : ∀ {params : Dict String ParamSpec} {converted : List String},
      Fits declaredParams.keys params →
      (SearchSpace.make params).map (fun space => (⟨space, converted⟩ : StarterSearchSpace)) =
        .ok starter → Fits declaredParams.keys starter.space.params := by
    intro params converted hfits hok
    cases hspace : SearchSpace.make params with
    | error e => simp [hspace, Except.map] at hok
    | ok space =>
      simp only [hspace, Except.map, Except.ok.injEq] at hok
      subst hok
      rw [SearchSpace.params_of_make hspace]
      exact hfits
  unfold buildStarterSearchSpace at h
  split at h
  · cases h
  · simp only at h
    split at h
    · exact hmake hstart h
    · split at h
      · exact hmake (hstart.applyFallback fun name => mem_fallbackOrder hstart) h
      · cases h

/-! ## Narrowing keeps the fit -/

/-- A narrowed specification is numeric, as the one before. -/
theorem isNumeric_of_narrowSpec {spec spec' : ParamSpec} {winner : Json ℚ}
    (h : narrowSpec A spec winner bracket = .ok (some spec')) :
    spec.isNumeric = true ∧ spec'.isNumeric = true := by
  have hmap : ∀ {p : Option FloatParam}, p.map ParamSpec.float = some spec' →
      spec'.isNumeric = true := by
    rintro p hp
    obtain ⟨p', -, rfl⟩ := Option.map_eq_some_iff.mp hp
    rfl
  unfold narrowSpec at h
  split at h
  · exact ⟨rfl, hmap (Except.ok.inj h)⟩
  · split at h
    · exact ⟨rfl, hmap (Except.ok.inj h)⟩
    · cases h
  · rename_i p i
    cases hbounds : narrowIntBounds A p i bracket with
    | error e => simp [hbounds, Except.map] at h
    | ok narrowed =>
      simp only [hbounds, Except.map, Except.ok.injEq] at h
      obtain ⟨p', -, rfl⟩ := Option.map_eq_some_iff.mp h
      exact ⟨rfl, rfl⟩
  · cases h

theorem Fits.narrowParams {rest : List (String × ParamSpec)} {narrowed narrowed' : List String}
    {params' : Dict String ParamSpec} (h : Fits names params)
    (hrest : ∀ e ∈ rest, e.1 ∈ names ∧ SpecAllowed e.1 e.2)
    (hok : narrowParams A winningParams bracket rest params narrowed = .ok (params', narrowed')) :
    Fits names params' := by
  induction rest generalizing params narrowed with
  | nil =>
    obtain ⟨rfl, -⟩ := Prod.mk.inj (Except.ok.inj hok)
    exact h
  | cons e rest ih =>
    have hlater : ∀ e' ∈ rest, e'.1 ∈ names ∧ SpecAllowed e'.1 e'.2 :=
      fun e' he' => hrest e' (List.mem_cons_of_mem e he')
    obtain ⟨hname, hspec⟩ := hrest e List.mem_cons_self
    rw [Spaces.narrowParams] at hok
    split at hok
    · exact ih h hlater hok
    · split at hok
      · cases hok
      · exact ih h hlater hok
      · rename_i hnarrow
        obtain ⟨hold, hnew⟩ := isNumeric_of_narrowSpec hnarrow
        exact ih (h.set hname (hspec.of_isNumeric hold hnew)) hlater hok

/-- Narrowing keeps the names, and what they stand for. -/
theorem Fits.narrowBoundsAroundWinner {space space' : SearchSpace} {narrowed : List String}
    (h : Fits names space.params)
    (hok : narrowBoundsAroundWinner A space winningParams bracket = .ok (space', narrowed)) :
    Fits names space'.params := by
  unfold Spaces.narrowBoundsAroundWinner at hok
  split at hok
  · cases hok
  · cases hok
    exact h
  · rename_i params narrowed' _ hloop
    have hfits : Fits names params := by
      refine h.narrowParams (fun e he => ⟨?_, ?_⟩) hloop
      · exact (h.keys e.1).mp (List.mem_map_of_mem he)
      · exact h.allowed e.1 e.2 ((space.params.get?_eq_some_iff e.1 e.2).mpr he)
    split at hok
    · cases hok
    · rename_i made hmake
      cases hok
      rw [SearchSpace.params_of_make hmake]
      exact hfits

end RelyLoop.Spaces
