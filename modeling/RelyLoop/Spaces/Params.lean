import RelyLoop.Python.Dict
import Mathlib.Data.List.Sort
import Mathlib.Data.Rat.Defs
import Mathlib.Algebra.Order.Ring.Rat

/-!
# Search spaces

The `studies.search_space` document: one specification for each parameter of a query template.
The values are the validated ones, so a specification carries the bounds that its validator
checks, and a space the limit on its cardinality. Floats are rational numbers.
-/

namespace RelyLoop.Spaces

open Python

/-- `NormalizerStep`. -/
inductive NormalizerStep where
  | lowercase
  | trim
  | collapseWhitespace
  | stripPunctuation
  | expandContractionsEn
  | expandContractionsCustom
  deriving DecidableEq, Repr

/-- An element of `choices`. -/
inductive Choice where
  | str (s : String)
  | int (i : ℤ)
  | float (q : ℚ)
  | bool (b : Bool)
  deriving DecidableEq

/-- `FloatParam`. -/
structure FloatParam where
  low : ℚ
  high : ℚ
  log : Bool
  bounds : low < high
  positive : log = true → 0 < low
  deriving DecidableEq

/-- `IntParam`. -/
structure IntParam where
  low : ℤ
  high : ℤ
  bounds : low ≤ high
  deriving DecidableEq

/-- `CategoricalParam`. -/
structure CategoricalParam where
  choices : List Choice
  nonempty : choices ≠ []
  deriving DecidableEq

/-- `NormalizerPipelineParam`. -/
structure NormalizerPipelineParam where
  steps : List NormalizerStep
  nonempty : steps ≠ []
  distinct : steps.Nodup
  deriving DecidableEq

/-- `ParamSpec`. -/
inductive ParamSpec where
  | float (p : FloatParam)
  | int (p : IntParam)
  | categorical (p : CategoricalParam)
  | normalizerPipeline (p : NormalizerPipelineParam)
  deriving DecidableEq

/-- The factor of one parameter in `estimate_cardinality`. -/
def ParamSpec.size : ParamSpec → ℕ
  | float _ => 100
  | int p => (p.high - p.low + 1).toNat
  | categorical p => p.choices.length
  | normalizerPipeline p => 2 ^ p.steps.length

/-- `estimate_cardinality`. -/
def estimateCardinality (params : Dict String ParamSpec) : ℕ :=
  (params.entries.map fun e => e.2.size).prod

/-- The cap of `_check_cardinality`. -/
def cardinalityCap : ℕ := 1000000

/-- `SearchSpace`. -/
structure SearchSpace where
  params : Dict String ParamSpec
  nonempty : params.entries ≠ []
  capped : estimateCardinality params ≤ cardinalityCap

/-- `InvalidSearchSpaceError` and the `ValidationError` of `SearchSpace`. -/
inductive SpaceError where
  | noParams
  | overCap (size : ℕ)
  | fallbackExhausted (size : ℕ) (declared : List String)
  | swapTargetWithoutParams
  | noSharedParams
  deriving DecidableEq, Repr

/-- `SearchSpace(params=params)`. -/
def SearchSpace.make (params : Dict String ParamSpec) : Except SpaceError SearchSpace :=
  if hnonempty : params.entries = [] then .error .noParams
  else if hcap : estimateCardinality params ≤ cardinalityCap then .ok ⟨params, hnonempty, hcap⟩
  else .error (.overCap (estimateCardinality params))

/-- The names of a space. -/
def SearchSpace.names (space : SearchSpace) : List String := space.params.keys

/-- `sorted` on texts. -/
def sortedNames (names : List String) : List String := names.insertionSort (· ≤ ·)

/-! ## The checks of the create endpoint -/

/-- The errors of `validate_against_template`. -/
inductive TemplateMismatch where
  | unknownParam (name templateName : String) (declared : List String)
  | missingDeclaredParam (name templateName : String)
  deriving DecidableEq, Repr

/-- `sorted(names - others)`. -/
def sortedDifference (names others : List String) : List String :=
  sortedNames (names.filter (· ∉ others))

/-- `validate_against_template`. -/
def validateAgainstTemplate (space : SearchSpace) (declaredParams : Dict String String)
    (templateName : String) : Except TemplateMismatch Unit :=
  match sortedDifference space.names declaredParams.keys with
  | name :: _ => .error (.unknownParam name templateName (sortedNames declaredParams.keys))
  | [] =>
    match sortedDifference declaredParams.keys space.names with
    | name :: _ => .error (.missingDeclaredParam name templateName)
    | [] => .ok ()

/-- `NORMALIZER_CHOICES`. -/
def normalizerChoices : List String :=
  ["none", "lowercase", "lowercase+trim", "lowercase+trim+expand_contractions"]

/-- The key that `validate_normalizer_reservation` reserves. -/
def queryNormalizer : String := "query_normalizer"

/-- The errors of `validate_normalizer_reservation`. -/
inductive ReservationError where
  | pipelineMisplaced (name : String)
  | paramShape
  | choiceInvalid (choice : Choice)
  deriving DecidableEq

/-- A choice of the allowlist. -/
def isNormalizerChoice : Choice → Bool
  | .str s => s ∈ normalizerChoices
  | _ => false

/-- A parameter of the type `normalizer_pipeline`. -/
def ParamSpec.isPipeline : ParamSpec → Bool
  | normalizerPipeline _ => true
  | _ => false

/-- The rule for the reserved key. -/
def checkReserved : Option ParamSpec → Except ReservationError Unit
  | none | some (.normalizerPipeline _) => .ok ()
  | some (.categorical p) =>
    match p.choices.find? fun choice => !isNormalizerChoice choice with
    | some choice => .error (.choiceInvalid choice)
    | none => .ok ()
  | some (.float _) | some (.int _) => .error .paramShape

/-- `validate_normalizer_reservation`. -/
def validateNormalizerReservation (space : SearchSpace) : Except ReservationError Unit :=
  match space.params.entries.find? fun e => e.1 ≠ queryNormalizer ∧ e.2.isPipeline with
  | some e => .error (.pipelineMisplaced e.1)
  | none => checkReserved (space.params.get? queryNormalizer)

/-! ## What the checks accept -/

/-- What the reserved key may hold: a pipeline, or choices of the allowlist. -/
def IsNormalizerSpec : ParamSpec → Prop
  | .normalizerPipeline _ => True
  | .categorical p => ∀ choice ∈ p.choices, isNormalizerChoice choice = true
  | .float _ | .int _ => False

/-- The specification a parameter may have under its name. -/
def SpecAllowed (name : String) (spec : ParamSpec) : Prop :=
  if name = queryNormalizer then IsNormalizerSpec spec else spec.isPipeline = false

variable {space : SearchSpace} {declaredParams : Dict String String} {templateName : String}

theorem mem_sortedNames {name : String} {names : List String} :
    name ∈ sortedNames names ↔ name ∈ names :=
  (List.perm_insertionSort _ names).mem_iff

theorem mem_sortedDifference {name : String} {names others : List String} :
    name ∈ sortedDifference names others ↔ name ∈ names ∧ name ∉ others := by
  rw [sortedDifference, mem_sortedNames, List.mem_filter, decide_eq_true_iff]

/-- The keys have to be those that the template declares. -/
theorem validateAgainstTemplate_iff :
    validateAgainstTemplate space declaredParams templateName = .ok () ↔
      ∀ name, name ∈ space.names ↔ name ∈ declaredParams.keys := by
  unfold validateAgainstTemplate
  cases hunknown : sortedDifference space.names declaredParams.keys with
  | cons name _ =>
    obtain ⟨hmem, hnot⟩ := mem_sortedDifference.mp (hunknown ▸ List.mem_cons_self)
    simp only [reduceCtorEq, false_iff]
    exact fun h => hnot ((h name).mp hmem)
  | nil =>
    have hdeclared : ∀ name ∈ space.names, name ∈ declaredParams.keys := fun name hmem => by
      by_contra hnot
      simpa [hunknown] using mem_sortedDifference.mpr ⟨hmem, hnot⟩
    cases hmissing : sortedDifference declaredParams.keys space.names with
    | cons name _ =>
      obtain ⟨hmem, hnot⟩ := mem_sortedDifference.mp (hmissing ▸ List.mem_cons_self)
      simp only [reduceCtorEq, false_iff]
      exact fun h => hnot ((h name).mpr hmem)
    | nil =>
      simp only [true_iff]
      refine fun name => ⟨hdeclared name, fun hmem => ?_⟩
      by_contra hnot
      simpa [hmissing] using mem_sortedDifference.mpr ⟨hmem, hnot⟩

theorem checkReserved_iff {spec : ParamSpec} :
    checkReserved (some spec) = .ok () ↔ IsNormalizerSpec spec := by
  cases spec with
  | float p => simp [checkReserved, IsNormalizerSpec]
  | int p => simp [checkReserved, IsNormalizerSpec]
  | normalizerPipeline p => simp [checkReserved, IsNormalizerSpec]
  | categorical p =>
    simp only [checkReserved, IsNormalizerSpec]
    cases hfind : p.choices.find? fun choice => !isNormalizerChoice choice with
    | some choice =>
      have hmem := List.mem_of_find?_eq_some hfind
      have hinvalid := List.find?_some hfind
      simp only [reduceCtorEq, false_iff]
      exact fun h => by simp [h choice hmem] at hinvalid
    | none => simpa using hfind

/-- Every parameter has to have a specification that its name allows. -/
theorem validateNormalizerReservation_iff :
    validateNormalizerReservation space = .ok () ↔
      ∀ name spec, space.params.get? name = some spec → SpecAllowed name spec := by
  unfold validateNormalizerReservation
  cases hfind : space.params.entries.find? fun e => e.1 ≠ queryNormalizer ∧ e.2.isPipeline with
  | some e =>
    have hmem := List.mem_of_find?_eq_some hfind
    have hmisplaced : e.1 ≠ queryNormalizer ∧ e.2.isPipeline = true := by
      simpa using List.find?_some hfind
    simp only [reduceCtorEq, false_iff]
    intro h
    have hallowed := h e.1 e.2 ((space.params.get?_eq_some_iff e.1 e.2).mpr hmem)
    rw [SpecAllowed, if_neg hmisplaced.1, hmisplaced.2] at hallowed
    cases hallowed
  | none =>
    rw [List.find?_eq_none] at hfind
    have hplain : ∀ name spec, space.params.get? name = some spec → name ≠ queryNormalizer →
        spec.isPipeline = false := by
      intro name spec hget hname
      have hentry := (space.params.get?_eq_some_iff name spec).mp hget
      simpa [hname] using hfind (name, spec) hentry
    cases hget : space.params.get? queryNormalizer with
    | none =>
      simp only [checkReserved, true_iff]
      intro name spec hspec
      have hname : name ≠ queryNormalizer := by
        rintro rfl
        simp [hget] at hspec
      rw [SpecAllowed, if_neg hname]
      exact hplain name spec hspec hname
    | some reserved =>
      simp only [checkReserved_iff]
      constructor
      · intro h name spec hspec
        by_cases hname : name = queryNormalizer
        · subst hname
          obtain rfl : reserved = spec := Option.some.inj (hget.symm.trans hspec)
          simpa [SpecAllowed] using h
        · rw [SpecAllowed, if_neg hname]
          exact hplain name spec hspec hname
      · intro h
        simpa [SpecAllowed] using h queryNormalizer reserved hget

end RelyLoop.Spaces
