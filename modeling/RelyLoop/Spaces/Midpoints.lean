import RelyLoop.Spaces.Params
import RelyLoop.Python.Json
import Mathlib.Algebra.Order.Field.Rat
import Mathlib.Data.List.Sublists
import Mathlib.Data.Nat.Sqrt
import Mathlib.Data.Rat.Cast.Order
import Mathlib.Data.Rat.Floor
import Mathlib.Data.String.Basic
import Mathlib.Tactic.FieldSimp
import Mathlib.Tactic.Linarith
import Mathlib.Tactic.NormNum

/-!
# Values of a search space

The values that a parameter may take, what the optimizer suggests for it, and the midpoint that
the baseline takes when nothing else is known. A pipeline of normalizers takes the labels of the
subsets of its steps.
-/

namespace RelyLoop.Spaces

open Python

/-! ## Labels of a pipeline -/

/-- `STEP_ORDER`. -/
def stepOrder : List NormalizerStep :=
  [.lowercase, .stripPunctuation, .expandContractionsEn, .expandContractionsCustom,
    .collapseWhitespace, .trim]

/-- `LABEL_ORDER`. -/
def labelOrder : List NormalizerStep :=
  [.lowercase, .trim, .expandContractionsEn, .collapseWhitespace, .stripPunctuation,
    .expandContractionsCustom]

/-- `STEP_LABEL_TOKEN`. -/
def NormalizerStep.labelToken : NormalizerStep → String
  | lowercase => "lowercase"
  | trim => "trim"
  | collapseWhitespace => "collapse_whitespace"
  | stripPunctuation => "strip_punctuation"
  | expandContractionsEn => "expand_contractions"
  | expandContractionsCustom => "expand_contractions_custom"

/-- `DEFAULT_NORMALIZER`. -/
def defaultNormalizer : String := "none"

/-- `_label_for_subset`. -/
def labelForSubset (subset : List NormalizerStep) : String :=
  if subset = [] then "none"
  else "+".intercalate ((labelOrder.filter (· ∈ subset)).map NormalizerStep.labelToken)

/-- `_pipeline_labels`. -/
def pipelineLabels (steps : List NormalizerStep) : List String :=
  let items := stepOrder.filter (· ∈ steps)
  let sizedLabels := (List.range (items.length + 1)).flatMap fun r =>
    (items.sublistsLen r).map fun combo => (r, labelForSubset combo)
  (sizedLabels.insertionSort fun x y => x.1 < y.1 ∨ x.1 = y.1 ∧ x.2 ≤ y.2).map Prod.snd

/-- Every pipeline may be switched off. -/
theorem defaultNormalizer_mem_pipelineLabels (steps : List NormalizerStep) :
    defaultNormalizer ∈ pipelineLabels steps := by
  have hempty : (0, labelForSubset []) ∈
      (List.range ((stepOrder.filter (· ∈ steps)).length + 1)).flatMap fun r =>
        ((stepOrder.filter (· ∈ steps)).sublistsLen r).map fun combo =>
          (r, labelForSubset combo) := by
    refine List.mem_flatMap.mpr ⟨0, by simp, List.mem_map.mpr ⟨[], ?_, rfl⟩⟩
    simp [List.sublistsLen_zero]
  exact List.mem_map.mpr ⟨_, (List.perm_insertionSort _ _).mem_iff.mpr hempty, rfl⟩

/-! ## Values -/

/-- A choice as a JSON value. -/
def Choice.toJson : Choice → Json ℚ
  | str s => .str s
  | int i => .int i
  | float q => .float q
  | bool b => .bool b

/-- The value lies within the bounds of the parameter, or is one of its choices. -/
def ParamSpec.Allows : ParamSpec → Json ℚ → Prop
  | float p, .float q => p.low ≤ q ∧ q ≤ p.high
  | int p, .int i => p.low ≤ i ∧ i ≤ p.high
  | categorical p, value => ∃ choice ∈ p.choices, value = choice.toJson
  | normalizerPipeline p, value => ∃ label ∈ pipelineLabels p.steps, value = .str label
  | _, _ => False

/-- `apply_search_space`, for an optimizer that suggests a value for each parameter. -/
def applySearchSpace (suggest : String → ParamSpec → Json ℚ) (space : SearchSpace) :
    Dict String (Json ℚ) :=
  space.params.mapItems suggest

/-- A trial has the names of its space. -/
theorem keys_applySearchSpace (suggest : String → ParamSpec → Json ℚ) (space : SearchSpace) :
    (applySearchSpace suggest space).keys = space.names := Dict.keys_mapItems suggest space.params

/-! ## Midpoints -/

/-- The operations of `float` that midpoints use, and the floats of a magnitude at which the double
and the square of a number neither overflow nor underflow. -/
structure MidpointArith where
  IsFloat : ℚ → Prop
  add : ℚ → ℚ → ℚ
  mul : ℚ → ℚ → ℚ
  halve : ℚ → ℚ
  sqrt : ℚ → ℚ

/-- Rounding is monotone, doubling and halving are exact, and the square root of a square is the
number it was made of. -/
structure MidpointArith.Rounds (M : MidpointArith) : Prop where
  add_mono : ∀ x y z w : ℚ, x ≤ y → z ≤ w → M.add x z ≤ M.add y w
  halve_mono : ∀ x y : ℚ, x ≤ y → M.halve x ≤ M.halve y
  halve_double : ∀ x : ℚ, M.IsFloat x → M.halve (M.add x x) = x
  mul_mono : ∀ x y z w : ℚ, 0 < x → 0 < z → x ≤ y → z ≤ w → M.mul x z ≤ M.mul y w
  sqrt_mono : ∀ x y : ℚ, x ≤ y → M.sqrt x ≤ M.sqrt y
  sqrt_square : ∀ x : ℚ, M.IsFloat x → 0 < x → M.sqrt (M.mul x x) = x

/-- `_midpoint`. -/
def midpoint (M : MidpointArith) : ParamSpec → Json ℚ
  | .normalizerPipeline _ => .str defaultNormalizer
  | .float p =>
    if p.log then .float (M.sqrt (M.mul p.low p.high)) else .float (M.halve (M.add p.low p.high))
  | .int p => .int ((p.low + p.high) / 2)
  | .categorical p =>
    ((p.choices[(p.choices.length - 1) / 2]?).map Choice.toJson).getD .null

/-- The bounds of a float parameter are such floats. -/
def ParamSpec.HasFloatBounds (M : MidpointArith) : ParamSpec → Prop
  | float p => M.IsFloat p.low ∧ M.IsFloat p.high
  | int _ | categorical _ | normalizerPipeline _ => True

/-- A midpoint is a value of its parameter. -/
theorem allows_midpoint {M : MidpointArith} (hM : M.Rounds) {spec : ParamSpec}
    (hbounds : spec.HasFloatBounds M) : spec.Allows (midpoint M spec) := by
  cases spec with
  | normalizerPipeline p => exact ⟨_, defaultNormalizer_mem_pipelineLabels p.steps, rfl⟩
  | int p =>
    have hle := p.bounds
    simp only [ParamSpec.Allows, midpoint]
    omega
  | categorical p =>
    have hpos : 0 < p.choices.length := List.length_pos_of_ne_nil p.nonempty
    have hlt : (p.choices.length - 1) / 2 < p.choices.length := by omega
    refine ⟨p.choices.get ⟨_, hlt⟩, List.get_mem _ _, ?_⟩
    simp [midpoint, List.getElem?_eq_getElem hlt]
  | float p =>
    obtain ⟨hlow, hhigh⟩ := hbounds
    have hle := p.bounds.le
    cases hlog : p.log with
    | false =>
      simp only [ParamSpec.Allows, midpoint, hlog, Bool.false_eq_true, if_false]
      constructor
      · calc p.low = M.halve (M.add p.low p.low) := (hM.halve_double _ hlow).symm
          _ ≤ M.halve (M.add p.low p.high) := hM.halve_mono _ _ (hM.add_mono _ _ _ _ le_rfl hle)
      · calc M.halve (M.add p.low p.high)
            ≤ M.halve (M.add p.high p.high) :=
              hM.halve_mono _ _ (hM.add_mono _ _ _ _ hle le_rfl)
          _ = p.high := hM.halve_double _ hhigh
    | true =>
      have hpos := p.positive hlog
      have hpos' := hpos.trans p.bounds
      simp only [ParamSpec.Allows, midpoint, hlog, if_true]
      constructor
      · calc p.low = M.sqrt (M.mul p.low p.low) := (hM.sqrt_square _ hlow hpos).symm
          _ ≤ M.sqrt (M.mul p.low p.high) :=
            hM.sqrt_mono _ _ (hM.mul_mono _ _ _ _ hpos hpos le_rfl hle)
      · calc M.sqrt (M.mul p.low p.high)
            ≤ M.sqrt (M.mul p.high p.high) :=
              hM.sqrt_mono _ _ (hM.mul_mono _ _ _ _ hpos hpos' hle le_rfl)
          _ = p.high := hM.sqrt_square _ hhigh hpos'

/-- Floats with one decimal, and a square root that is rounded down to one decimal. -/
def tenthsArith : MidpointArith where
  IsFloat q := ∃ n : ℤ, q = n / 10
  add := (· + ·)
  mul := (· * ·)
  halve q := q / 2
  sqrt q := (Nat.sqrt ⌊q * 100⌋₊ : ℚ) / 10

theorem tenthsArith_rounds : tenthsArith.Rounds := by
  constructor
  · exact fun x y z w hxy hzw => add_le_add hxy hzw
  · exact fun x y h => div_le_div_of_nonneg_right h (by norm_num)
  · exact fun x _ => by simp [tenthsArith]
  · exact fun x y z w hx hz hxy hzw => mul_le_mul hxy hzw hz.le (hx.le.trans hxy)
  · intro x y h
    have hfloor : ⌊x * 100⌋₊ ≤ ⌊y * 100⌋₊ := Nat.floor_mono (by linarith)
    have hroot : (Nat.sqrt ⌊x * 100⌋₊ : ℚ) ≤ Nat.sqrt ⌊y * 100⌋₊ := by
      exact_mod_cast Nat.sqrt_le_sqrt hfloor
    exact div_le_div_of_nonneg_right hroot (by norm_num)
  · rintro x ⟨n, rfl⟩ hpos
    have hn : 0 < n := by
      have hcast : (0 : ℚ) < n := by linarith
      exact_mod_cast hcast
    obtain ⟨m, rfl⟩ := Int.eq_ofNat_of_zero_le hn.le
    have hsquare : (m : ℚ) / 10 * ((m : ℚ) / 10) * 100 = ((m * m : ℕ) : ℚ) := by
      push_cast
      ring
    simp only [tenthsArith, hsquare, Nat.floor_natCast, Nat.sqrt_eq, Int.cast_natCast]

end RelyLoop.Spaces
