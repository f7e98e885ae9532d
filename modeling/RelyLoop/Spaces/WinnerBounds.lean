import RelyLoop.Spaces.Params
import RelyLoop.Python.Json
import Mathlib.Algebra.Order.BigOperators.Group.List
import Mathlib.Algebra.Order.Field.Rat
import Mathlib.Data.Rat.Cast.Order
import Mathlib.Data.Rat.Floor
import Mathlib.Tactic.Linarith
import Mathlib.Tactic.NormNum
import Mathlib.Tactic.Positivity

/-!
# Narrowing in the user interface

`narrowBoundsAroundWinner` rewrites the document of a search space before a clone of a study is
created: every numeric range shrinks to some percent around the value of the winner. The document
is checked on the server again, by the validators of `SearchSpace`. Numbers are rational, and the
entries of an object stand in the order of its properties.
-/

namespace RelyLoop.Spaces.Ui

open Python

/-! ## Documents -/

/-- A parameter as `JSON.parse` reads it; the server checks it later. -/
inductive SpecDoc where
  | float (low high : ℚ) (log : Option Bool)
  | int (low high : ℚ)
  | categorical (choices : List Choice)
  | normalizerPipeline (steps : List NormalizerStep)
  deriving DecidableEq

namespace SpecDoc

/-- The validators of one parameter. An integer is a number without a fractional part. -/
def validate : SpecDoc → Option ParamSpec
  | float low high log =>
    if h : low < high ∧ (log.getD false = true → 0 < low) then
      some (.float ⟨low, high, log.getD false, h.1, h.2⟩)
    else none
  | int low high =>
    if h : low.den = 1 ∧ high.den = 1 ∧ low.num ≤ high.num then
      some (.int ⟨low.num, high.num, h.2.2⟩)
    else none
  | categorical choices =>
    if h : choices ≠ [] then some (.categorical ⟨choices, h⟩) else none
  | normalizerPipeline steps =>
    if h : steps ≠ [] ∧ steps.Nodup then some (.normalizerPipeline ⟨steps, h.1, h.2⟩) else none

/-- `spec.low` and `spec.high`. -/
def bounds? : SpecDoc → Option (ℚ × ℚ)
  | float low high _ => some (low, high)
  | int low high => some (low, high)
  | categorical _ | normalizerPipeline _ => none

/-- `spec.low = low; spec.high = high`. -/
def setBounds (low high : ℚ) : SpecDoc → SpecDoc
  | float _ _ log => float low high log
  | int _ _ => int low high
  | categorical choices => categorical choices
  | normalizerPipeline steps => normalizerPipeline steps

end SpecDoc

/-- `SearchSpace.model_validate` on the parameters of a document. -/
def validateSpace (params : Dict String SpecDoc) : Option SearchSpace :=
  if params.entries.all fun e => e.2.validate.isSome then
    (SearchSpace.make (params.filterMapValues SpecDoc.validate)).toOption
  else none

/-! ## The rewriting -/

/-- `LOG_UNIFORM_FLOOR`: the float `1e-12`. -/
def logUniformFloor : ℚ := 4951760157141521 / 4951760157141521099596496896

/-- `SkipReason`. -/
inductive SkipReason where
  | categorical
  | missingWinner
  | nonNumericWinner
  | degenerateIntersection
  | logUniformZeroFloor
  deriving DecidableEq, Repr

/-- The names that `in` finds in every object. -/
def objectPrototypeNames : List String :=
  ["constructor", "__defineGetter__", "__defineSetter__", "hasOwnProperty", "__lookupGetter__",
   "__lookupSetter__", "isPrototypeOf", "propertyIsEnumerable", "toString", "valueOf", "__proto__",
   "toLocaleString"]

/-- A value whose `typeof` is `number`. -/
def numberOf : Json ℚ → Option ℚ
  | .int i => some i
  | .float q => some q
  | _ => none

/-- The winner's value of a parameter, `some none` when it is no number. What is inherited is a
function or an object. -/
def winnerOf (winnerParams : Dict String (Json ℚ)) (name : String) : Option (Option ℚ) :=
  match winnerParams.get? name with
  | some value => some (numberOf value)
  | none => if name ∈ objectPrototypeNames then some none else none

/-- What one pass of the loop does with a parameter; a pipeline can be left out of both lists. -/
inductive Outcome where
  | narrowed (spec : SpecDoc)
  | skipped (reason : SkipReason)
  | unlisted
  deriving DecidableEq

/-- `targetLow`. -/
def targetLow (winner p : ℚ) : ℚ := min (winner * (1 - p)) (winner * (1 + p))

/-- `targetHigh`. -/
def targetHigh (winner p : ℚ) : ℚ := max (winner * (1 - p)) (winner * (1 + p))

/-- The pass on a numeric winner that is not zero. -/
def narrowSpecDoc (spec : SpecDoc) (winner p : ℚ) : Outcome :=
  match spec with
  | .float low high log =>
    let newLow := max low (targetLow winner p)
    let newHigh := min high (targetHigh winner p)
    if log = some true then
      let newLow := max newLow logUniformFloor
      if newHigh ≤ newLow then .skipped .logUniformZeroFloor
      else .narrowed (spec.setBounds newLow newHigh)
    else if newHigh ≤ newLow then .skipped .degenerateIntersection
    else .narrowed (spec.setBounds newLow newHigh)
  | .int low high =>
    let newLow := ⌈max low (targetLow winner p)⌉
    let newHigh := ⌊min high (targetHigh winner p)⌋
    if newHigh < newLow then .skipped .degenerateIntersection
    else .narrowed (spec.setBounds newLow newHigh)
  | .categorical _ | .normalizerPipeline _ => .unlisted

/-- One pass of the loop. -/
def narrowEntry (winner : Option (Option ℚ)) (p : ℚ) (spec : SpecDoc) : Outcome :=
  match spec, winner with
  | .categorical _, _ => .skipped .categorical
  | _, none => .skipped .missingWinner
  | _, some none => .skipped .nonNumericWinner
  | spec, some (some winner) =>
    if winner = 0 then .skipped .degenerateIntersection else narrowSpecDoc spec winner p

/-- The specification after the pass. -/
def Outcome.specOr (spec : SpecDoc) : Outcome → SpecDoc
  | narrowed spec' => spec'
  | skipped _ | unlisted => spec

/-- The parameter goes to `narrowed`. -/
def Outcome.isNarrowed : Outcome → Bool
  | narrowed _ => true
  | skipped _ | unlisted => false

/-- The parameter goes to `skipped`. -/
def Outcome.reason? : Outcome → Option SkipReason
  | skipped reason => some reason
  | narrowed _ | unlisted => none

/-- `NarrowBoundsResult`, with the parameters of the rewritten document. -/
structure NarrowBoundsResult where
  params : Dict String SpecDoc
  narrowed : List String
  skipped : List (String × SkipReason)

/-- `narrowBoundsAroundWinner` on a parsed document. -/
def narrowBoundsAroundWinner (params : Dict String SpecDoc)
    (winnerParams : Dict String (Json ℚ)) (percent : ℚ := 20) : NarrowBoundsResult :=
  let outcome name spec := narrowEntry (winnerOf winnerParams name) (percent / 100) spec
  { params := params.mapItems fun name spec => (outcome name spec).specOr spec
    narrowed := (params.entries.filter fun e => (outcome e.1 e.2).isNarrowed).map Prod.fst
    skipped := params.entries.filterMap fun e =>
      (outcome e.1 e.2).reason?.map fun reason => (e.1, reason) }

/-! ## What narrowing is for -/

/-- A value lies within the bounds of a parameter, if it has any. -/
def SpecDoc.InBounds (spec : SpecDoc) (value : ℚ) : Prop :=
  ∀ low high, spec.bounds? = some (low, high) → low ≤ value ∧ value ≤ high

/-- A parameter is narrowed to bounds around a value. -/
def SpecDoc.NarrowsAround (spec spec' : SpecDoc) (value : ℚ) : Prop :=
  ∃ low high low' high', spec.bounds? = some (low, high) ∧ spec' = spec.setBounds low' high' ∧
    low ≤ low' ∧ high' ≤ high ∧ low' ≤ value ∧ value ≤ high'

/-- The rewritten document is valid, its ranges were narrowed around the winner, other parameters
stay, and each parameter but a pipeline is listed once. -/
structure NarrowsAround (params : Dict String SpecDoc) (winnerParams : Dict String (Json ℚ))
    (result : NarrowBoundsResult) : Prop where
  accepted : (validateSpace result.params).isSome = true
  around : ∀ name ∈ result.narrowed, ∃ spec spec' winner, params.get? name = some spec ∧
    result.params.get? name = some spec' ∧ winnerOf winnerParams name = some (some winner) ∧
    spec.NarrowsAround spec' winner
  unchanged : ∀ name, name ∉ result.narrowed → result.params.get? name = params.get? name
  listedOnce : (result.narrowed ++ result.skipped.map Prod.fst).Nodup
  listed : ∀ name spec, params.get? name = some spec →
    (∀ steps, spec ≠ .normalizerPipeline steps) →
      name ∈ result.narrowed ++ result.skipped.map Prod.fst

/-- A range keeps the winner when it is narrowed: for a log-uniform float the floor does not come
between the winner and the end of its target range, and for an integer parameter the target range
has integers on both sides of the winner, or none at all. -/
def SpecDoc.KeepsWinner (winner p : ℚ) : SpecDoc → Prop
  | float _ high log => log = some true → winner < logUniformFloor →
      min high (targetHigh winner p) ≤ logUniformFloor
  | int low high => ∀ n : ℤ, max low (targetLow winner p) ≤ n → n ≤ min high (targetHigh winner p) →
      (∃ m : ℤ, max low (targetLow winner p) ≤ m ∧ m ≤ winner) ∧
        ∃ m : ℤ, winner ≤ m ∧ m ≤ min high (targetHigh winner p)
  | categorical _ | normalizerPipeline _ => True

variable {params : Dict String SpecDoc} {winnerParams : Dict String (Json ℚ)} {percent winner p : ℚ}
  {spec spec' : SpecDoc} {name : String}

/-! ## One parameter -/

theorem targetLow_le (hp : 0 < p) (winner : ℚ) : targetLow winner p ≤ winner := by
  rw [targetLow, min_le_iff]
  rcases le_total 0 winner with h | h
  · exact Or.inl (by nlinarith)
  · exact Or.inr (by nlinarith)

theorem le_targetHigh (hp : 0 < p) (winner : ℚ) : winner ≤ targetHigh winner p := by
  rw [targetHigh, le_max_iff]
  rcases le_total 0 winner with h | h
  · exact Or.inr (by nlinarith)
  · exact Or.inl (by nlinarith)

theorem logUniformFloor_pos : 0 < logUniformFloor := by
  unfold logUniformFloor
  norm_num

theorem isSome_validate_float {low high : ℚ} {log : Option Bool} :
    (SpecDoc.float low high log).validate.isSome = true ↔
      low < high ∧ (log.getD false = true → 0 < low) := by
  rw [SpecDoc.validate]
  split <;> simp_all

theorem isSome_validate_int {low high : ℚ} : (SpecDoc.int low high).validate.isSome = true ↔
    low.den = 1 ∧ high.den = 1 ∧ low.num ≤ high.num := by
  rw [SpecDoc.validate]
  split <;> simp_all

/-- What a narrowed float looks like. -/
theorem narrowSpecDoc_float {low high : ℚ} {log : Option Bool}
    (h : narrowSpecDoc (.float low high log) winner p = .narrowed spec') :
    ∃ low', spec' = .float low' (min high (targetHigh winner p)) log ∧
      low' < min high (targetHigh winner p) ∧
      low' = if log = some true then max (max low (targetLow winner p)) logUniformFloor
        else max low (targetLow winner p) := by
  simp only [narrowSpecDoc] at h
  split at h
  · rename_i hlog
    split at h
    · cases h
    · rename_i hlt
      cases h
      exact ⟨_, rfl, not_le.mp hlt, (if_pos hlog).symm⟩
  · rename_i hlog
    split at h
    · cases h
    · rename_i hlt
      cases h
      exact ⟨_, rfl, not_le.mp hlt, (if_neg hlog).symm⟩

theorem narrowSpecDoc_int {low high : ℚ}
    (h : narrowSpecDoc (.int low high) winner p = .narrowed spec') :
    ⌈max low (targetLow winner p)⌉ ≤ ⌊min high (targetHigh winner p)⌋ ∧
      spec' = .int ⌈max low (targetLow winner p)⌉ ⌊min high (targetHigh winner p)⌋ := by
  simp only [narrowSpecDoc] at h
  split at h
  · cases h
  · rename_i hle
    cases h
    exact ⟨not_lt.mp hle, rfl⟩

/-- A narrowed parameter is valid. -/
theorem isSome_validate_of_narrowed (h : narrowSpecDoc spec winner p = .narrowed spec') :
    spec'.validate.isSome = true := by
  cases spec with
  | float low high log =>
    obtain ⟨low', rfl, hlt, hlow'⟩ := narrowSpecDoc_float h
    refine isSome_validate_float.mpr ⟨hlt, fun hlog => ?_⟩
    have hsome : log = some true := by cases log <;> simp_all
    rw [hlow', if_pos hsome]
    exact lt_max_of_lt_right logUniformFloor_pos
  | int low high =>
    obtain ⟨hle, rfl⟩ := narrowSpecDoc_int h
    exact isSome_validate_int.mpr ⟨Rat.den_intCast _, Rat.den_intCast _, by simpa using hle⟩
  | categorical choices => cases h
  | normalizerPipeline steps => cases h

theorem narrowsAround_float {low high low' high' : ℚ} {log : Option Bool} :
    (SpecDoc.float low high log).NarrowsAround (.float low' high' log) winner ↔
      low ≤ low' ∧ high' ≤ high ∧ low' ≤ winner ∧ winner ≤ high' := by
  constructor
  · rintro ⟨_, _, _, _, hbounds, hspec, h⟩
    cases hbounds
    cases hspec
    exact h
  · exact fun h => ⟨low, high, low', high', rfl, rfl, h⟩

theorem narrowsAround_int {low high low' high' : ℚ} :
    (SpecDoc.int low high).NarrowsAround (.int low' high') winner ↔
      low ≤ low' ∧ high' ≤ high ∧ low' ≤ winner ∧ winner ≤ high' := by
  constructor
  · rintro ⟨_, _, _, _, hbounds, hspec, h⟩
    cases hbounds
    cases hspec
    exact h
  · exact fun h => ⟨low, high, low', high', rfl, rfl, h⟩

theorem narrowsAround_float_iff {low high : ℚ} {log : Option Bool} (hp : 0 < p)
    (hlow : low ≤ winner) (hhigh : winner ≤ high)
    (h : narrowSpecDoc (.float low high log) winner p = .narrowed spec') :
    (SpecDoc.float low high log).NarrowsAround spec' winner ↔
      (SpecDoc.float low high log).KeepsWinner winner p := by
  have hstart : max low (targetLow winner p) ≤ winner := max_le hlow (targetLow_le hp winner)
  have hend : winner ≤ min high (targetHigh winner p) := le_min hhigh (le_targetHigh hp winner)
  obtain ⟨low', rfl, hlt, hlow'⟩ := narrowSpecDoc_float h
  rw [narrowsAround_float]
  by_cases hlog : log = some true
  · rw [if_pos hlog] at hlow'
    subst hlow'
    have hfloor := (le_max_right _ _).trans_lt hlt
    constructor
    · rintro ⟨-, -, hle, -⟩ - hbelow
      exact absurd ((le_max_right _ _).trans hle) (not_le.mpr hbelow)
    · intro hkeeps
      have hwinner : logUniformFloor ≤ winner :=
        not_lt.mp fun hbelow => absurd (hkeeps hlog hbelow) (not_le.mpr hfloor)
      exact ⟨(le_max_left _ _).trans (le_max_left _ _), min_le_left _ _, max_le hstart hwinner,
        hend⟩
  · rw [if_neg hlog] at hlow'
    subst hlow'
    exact iff_of_true ⟨le_max_left _ _, min_le_left _ _, hstart, hend⟩ fun h => absurd h hlog

theorem narrowsAround_int_iff {low high : ℚ}
    (h : narrowSpecDoc (.int low high) winner p = .narrowed spec') :
    (SpecDoc.int low high).NarrowsAround spec' winner ↔
      (SpecDoc.int low high).KeepsWinner winner p := by
  obtain ⟨hle, rfl⟩ := narrowSpecDoc_int h
  rw [narrowsAround_int]
  simp only [SpecDoc.KeepsWinner]
  set newLow := max low (targetLow winner p) with hnewLow
  set newHigh := min high (targetHigh winner p) with hnewHigh
  constructor
  · rintro ⟨-, -, hceil, hfloor⟩ - - -
    exact ⟨⟨⌈newLow⌉, Int.le_ceil newLow, hceil⟩, ⌊newHigh⌋, hfloor, Int.floor_le newHigh⟩
  · intro hkeeps
    have hfirst : (⌈newLow⌉ : ℚ) ≤ newHigh := (Int.cast_le.mpr hle).trans (Int.floor_le newHigh)
    obtain ⟨⟨m, hm, hmwinner⟩, n, hnwinner, hn⟩ := hkeeps ⌈newLow⌉ (Int.le_ceil newLow) hfirst
    refine ⟨?_, ?_, ?_, ?_⟩
    · exact (le_max_left _ _).trans (Int.le_ceil newLow)
    · exact (Int.floor_le newHigh).trans (min_le_left _ _)
    · exact (Int.cast_le.mpr (Int.ceil_le.mpr hm)).trans hmwinner
    · exact hnwinner.trans (Int.cast_le.mpr (Int.le_floor.mpr hn))

/-- A narrowed parameter has a subrange of the bounds, with the winner exactly when they keep it. -/
theorem narrowsAround_iff (hp : 0 < p) (hin : spec.InBounds winner)
    (h : narrowSpecDoc spec winner p = .narrowed spec') :
    spec.NarrowsAround spec' winner ↔ spec.KeepsWinner winner p := by
  cases spec with
  | float low high log =>
    obtain ⟨hlow, hhigh⟩ := hin low high rfl
    exact narrowsAround_float_iff hp hlow hhigh h
  | int low high => exact narrowsAround_int_iff h
  | categorical choices => cases h
  | normalizerPipeline steps => cases h

/-- Without the winner there is something left of the range. -/
theorem exists_narrowed_of_not_keepsWinner (hp : 0 < p) (hvalid : spec.validate.isSome = true)
    (hin : spec.InBounds winner) (h : ¬ spec.KeepsWinner winner p) :
    ∃ spec', narrowEntry (some (some winner)) p spec = .narrowed spec' := by
  cases spec with
  | float low high log =>
    simp only [SpecDoc.KeepsWinner, Classical.not_imp, not_le] at h
    obtain ⟨rfl, -, hfloor⟩ := h
    obtain ⟨hlt, hpos⟩ := isSome_validate_float.mp hvalid
    obtain ⟨hlow, hhigh⟩ := hin low high rfl
    have hwinner : 0 < winner := (hpos rfl).trans_le hlow
    have hstart : targetLow winner p < winner := min_lt_of_left_lt (by nlinarith)
    have hend : winner < targetHigh winner p := lt_max_of_lt_right (by nlinarith)
    have hrange : max (max low (targetLow winner p)) logUniformFloor <
        min high (targetHigh winner p) := by
      refine max_lt (max_lt (lt_min hlt (hlow.trans_lt hend)) ?_) hfloor
      exact lt_min (hstart.trans_le hhigh) (hstart.trans hend)
    refine ⟨.float (max (max low (targetLow winner p)) logUniformFloor)
      (min high (targetHigh winner p)) (some true), ?_⟩
    simp only [narrowEntry, if_neg hwinner.ne', narrowSpecDoc, if_true, if_neg (not_le.mpr hrange),
      SpecDoc.setBounds]
  | int low high =>
    simp only [SpecDoc.KeepsWinner, not_forall] at h
    obtain ⟨n, hn, hn', hside⟩ := h
    have hwinner : winner ≠ 0 := by
      rintro rfl
      obtain ⟨hlow, hhigh⟩ := hin low high rfl
      have hstart : max low (targetLow 0 p) ≤ 0 := max_le hlow (targetLow_le hp 0)
      have hend : 0 ≤ min high (targetHigh 0 p) := le_min hhigh (le_targetHigh hp 0)
      exact hside ⟨⟨0, by simpa using hstart, by simp⟩, 0, by simp, by simpa using hend⟩
    have hle : ⌈max low (targetLow winner p)⌉ ≤ ⌊min high (targetHigh winner p)⌋ :=
      (Int.ceil_le.mpr hn).trans (Int.le_floor.mpr hn')
    refine ⟨.int ⌈max low (targetLow winner p)⌉ ⌊min high (targetHigh winner p)⌋, ?_⟩
    simp only [narrowEntry, if_neg hwinner, narrowSpecDoc, if_neg (not_lt.mpr hle),
      SpecDoc.setBounds]
  | categorical choices => exact absurd trivial h
  | normalizerPipeline steps => exact absurd trivial h

/-- Only a parameter with a numeric winner is narrowed. -/
theorem exists_winner_of_narrowed {winner? : Option (Option ℚ)}
    (h : narrowEntry winner? p spec = .narrowed spec') :
    ∃ winner, winner? = some (some winner) ∧ narrowSpecDoc spec winner p = .narrowed spec' := by
  unfold narrowEntry at h
  split at h
  · cases h
  · cases h
  · cases h
  · split at h
    · cases h
    · exact ⟨_, rfl, h⟩

/-- Only a pipeline goes to neither list. -/
theorem eq_pipeline_of_unlisted {winner? : Option (Option ℚ)}
    (h : narrowEntry winner? p spec = .unlisted) : ∃ steps, spec = .normalizerPipeline steps := by
  cases spec with
  | normalizerPipeline steps => exact ⟨steps, rfl⟩
  | categorical choices => cases h
  | float low high log =>
    rcases winner? with _ | _ | winner
    · cases h
    · cases h
    · simp only [narrowEntry, narrowSpecDoc] at h
      split_ifs at h
  | int low high =>
    rcases winner? with _ | _ | winner
    · cases h
    · cases h
    · simp only [narrowEntry, narrowSpecDoc] at h
      split_ifs at h

/-! ## The document -/

/-- The factor of a parameter in the cardinality. -/
def SpecDoc.size (spec : SpecDoc) : ℕ := (spec.validate.map ParamSpec.size).getD 1

theorem size_float {low high : ℚ} {log : Option Bool}
    (h : (SpecDoc.float low high log).validate.isSome = true) :
    (SpecDoc.float low high log).size = 100 := by
  rw [SpecDoc.size, SpecDoc.validate, dif_pos (isSome_validate_float.mp h)]
  rfl

theorem size_int {low high : ℚ} (h : (SpecDoc.int low high).validate.isSome = true) :
    (SpecDoc.int low high).size = (high.num - low.num + 1).toNat := by
  rw [SpecDoc.size, SpecDoc.validate, dif_pos (isSome_validate_int.mp h)]
  rfl

/-- A narrowed parameter is no larger. -/
theorem size_le_of_narrowed (hvalid : spec.validate.isSome = true)
    (h : narrowSpecDoc spec winner p = .narrowed spec') : spec'.size ≤ spec.size := by
  have hvalid' := isSome_validate_of_narrowed h
  cases spec with
  | float low high log =>
    obtain ⟨low', rfl, -, -⟩ := narrowSpecDoc_float h
    rw [size_float hvalid, size_float hvalid']
  | int low high =>
    obtain ⟨hle, rfl⟩ := narrowSpecDoc_int h
    obtain ⟨hlow, hhigh, -⟩ := isSome_validate_int.mp hvalid
    have hlowNum : low.num ≤ ⌈max low (targetLow winner p)⌉ := by
      have hceil := (le_max_left low (targetLow winner p)).trans (Int.le_ceil _)
      exact Int.cast_le.mp (((Rat.den_eq_one_iff low).mp hlow).le.trans hceil)
    have hhighNum : ⌊min high (targetHigh winner p)⌋ ≤ high.num := by
      have hfloor := (Int.floor_le _).trans (min_le_left high (targetHigh winner p))
      exact Int.cast_le.mp (hfloor.trans ((Rat.den_eq_one_iff high).mp hhigh).ge)
    rw [size_int hvalid, size_int hvalid', Rat.num_intCast, Rat.num_intCast]
    omega
  | categorical choices => cases h
  | normalizerPipeline steps => cases h

theorem prod_size_filterMap (entries : List (String × SpecDoc)) :
    ((entries.filterMap fun e => e.2.validate.map fun spec => (e.1, spec)).map
      fun e => e.2.size).prod = (entries.map fun e => e.2.size).prod := by
  induction entries with
  | nil => rfl
  | cons e entries ih =>
    rw [List.filterMap_cons, List.map_cons, List.prod_cons, ← ih]
    cases hvalid : e.2.validate with
    | none => simp [SpecDoc.size, hvalid]
    | some spec => simp [SpecDoc.size, hvalid]

/-- What the server accepts. -/
theorem isSome_validateSpace_iff : (validateSpace params).isSome = true ↔
    params.entries ≠ [] ∧ (∀ e ∈ params.entries, e.2.validate.isSome = true) ∧
      (params.entries.map fun e => e.2.size).prod ≤ cardinalityCap := by
  have hsize : estimateCardinality (params.filterMapValues SpecDoc.validate) =
      (params.entries.map fun e => e.2.size).prod := prod_size_filterMap params.entries
  rw [validateSpace]
  split
  case isTrue hall =>
    rw [List.all_eq_true] at hall
    have hempty : (params.filterMapValues SpecDoc.validate).entries = [] ↔ params.entries = [] := by
      constructor
      · intro hnil
        rw [List.eq_nil_iff_forall_not_mem]
        intro e he
        obtain ⟨spec, hspec⟩ := Option.isSome_iff_exists.mp (hall e he)
        have hmem : (e.1, spec) ∈ (params.filterMapValues SpecDoc.validate).entries :=
          List.mem_filterMap.mpr ⟨e, he, by rw [hspec, Option.map_some]⟩
        rw [hnil] at hmem
        cases hmem
      · intro hnil
        simp only [Dict.filterMapValues, hnil, List.filterMap_nil]
    rw [SearchSpace.make]
    split
    case isTrue hnil =>
      exact iff_of_false (by simp [Except.toOption]) fun h => h.1 (hempty.mp hnil)
    case isFalse hnil =>
      rw [← hsize]
      split
      case isTrue hcap => exact iff_of_true rfl ⟨mt hempty.mpr hnil, hall, hcap⟩
      case isFalse hcap => exact iff_of_false (by simp [Except.toOption]) fun h => hcap h.2.2
  case isFalse hall =>
    apply iff_of_false
    · simp
    · rintro ⟨-, hvalid, -⟩
      exact hall (List.all_eq_true.mpr hvalid)

/-! ## The result -/

variable {result : NarrowBoundsResult}

/-- What the loop makes of a parameter. -/
def outcomeOf (winnerParams : Dict String (Json ℚ)) (percent : ℚ) (name : String)
    (spec : SpecDoc) : Outcome :=
  narrowEntry (winnerOf winnerParams name) (percent / 100) spec

theorem mem_narrowed_iff :
    name ∈ (narrowBoundsAroundWinner params winnerParams percent).narrowed ↔
      ∃ spec, params.get? name = some spec ∧
        ∃ spec', outcomeOf winnerParams percent name spec = .narrowed spec' := by
  simp only [narrowBoundsAroundWinner, List.mem_map, List.mem_filter, Dict.get?_eq_some_iff]
  constructor
  · rintro ⟨⟨name, spec⟩, ⟨hmem, hnarrowed⟩, rfl⟩
    refine ⟨spec, hmem, ?_⟩
    cases houtcome : outcomeOf winnerParams percent name spec with
    | narrowed spec' => exact ⟨spec', rfl⟩
    | skipped reason => simp_all [outcomeOf, Outcome.isNarrowed]
    | unlisted => simp_all [outcomeOf, Outcome.isNarrowed]
  · rintro ⟨spec, hmem, spec', houtcome⟩
    exact ⟨(name, spec), ⟨hmem, by simp_all [outcomeOf, Outcome.isNarrowed]⟩, rfl⟩

theorem mem_skipped_iff :
    name ∈ (narrowBoundsAroundWinner params winnerParams percent).skipped.map Prod.fst ↔
      ∃ spec, params.get? name = some spec ∧
        ∃ reason, outcomeOf winnerParams percent name spec = .skipped reason := by
  simp only [narrowBoundsAroundWinner, List.mem_map, List.mem_filterMap, Dict.get?_eq_some_iff]
  constructor
  · rintro ⟨_, ⟨⟨name, spec⟩, hmem, hreason⟩, rfl⟩
    obtain ⟨reason, hreason, rfl⟩ := Option.map_eq_some_iff.mp hreason
    refine ⟨spec, hmem, reason, ?_⟩
    cases houtcome : outcomeOf winnerParams percent name spec with
    | skipped reason' => simp_all [outcomeOf, Outcome.reason?]
    | narrowed spec' => simp_all [outcomeOf, Outcome.reason?]
    | unlisted => simp_all [outcomeOf, Outcome.reason?]
  · rintro ⟨spec, hmem, reason, houtcome⟩
    exact ⟨(name, reason), ⟨(name, spec), hmem, by simp_all [outcomeOf, Outcome.reason?]⟩, rfl⟩

theorem get?_narrowBounds (params : Dict String SpecDoc) (winnerParams : Dict String (Json ℚ))
    (percent : ℚ) (name : String) :
    (narrowBoundsAroundWinner params winnerParams percent).params.get? name =
      (params.get? name).map fun spec =>
        (outcomeOf winnerParams percent name spec).specOr spec :=
  Dict.get?_mapItems _ params name

theorem outcomeOf_valid (hvalid : spec.validate.isSome = true) :
    ((outcomeOf winnerParams percent name spec).specOr spec).validate.isSome = true ∧
      ((outcomeOf winnerParams percent name spec).specOr spec).size ≤ spec.size := by
  cases houtcome : outcomeOf winnerParams percent name spec with
  | narrowed spec' =>
    obtain ⟨winner, -, hnarrowed⟩ := exists_winner_of_narrowed houtcome
    exact ⟨isSome_validate_of_narrowed hnarrowed, size_le_of_narrowed hvalid hnarrowed⟩
  | skipped reason => exact ⟨hvalid, le_rfl⟩
  | unlisted => exact ⟨hvalid, le_rfl⟩

/-- The server accepts what is made of a valid document. -/
theorem accepted_narrowBounds (hvalid : (validateSpace params).isSome = true) :
    (validateSpace (narrowBoundsAroundWinner params winnerParams percent).params).isSome = true := by
  obtain ⟨hnonempty, hall, hcap⟩ := isSome_validateSpace_iff.mp hvalid
  have hentries : (narrowBoundsAroundWinner params winnerParams percent).params.entries =
      params.entries.map fun e => (e.1, (outcomeOf winnerParams percent e.1 e.2).specOr e.2) := rfl
  rw [isSome_validateSpace_iff, hentries]
  refine ⟨?_, ?_, ?_⟩
  · simpa using hnonempty
  · intro _ hmem
    obtain ⟨e, he, rfl⟩ := List.mem_map.mp hmem
    exact (outcomeOf_valid (hall e he)).1
  · rw [List.map_map]
    exact (List.prod_le_prod' fun e he => (outcomeOf_valid (hall e he)).2).trans hcap

theorem filterMap_fst_sublist {β γ : Type} (f : String × β → Option γ)
    (entries : List (String × β)) :
    ((entries.filterMap fun e => (f e).map fun c => (e.1, c)).map Prod.fst).Sublist
      (entries.map Prod.fst) := by
  induction entries with
  | nil => exact List.Sublist.slnil
  | cons e entries ih =>
    rw [List.filterMap_cons, List.map_cons]
    cases f e with
    | none => exact ih.cons e.1
    | some c => exact ih.cons_cons e.1

/-- Each name is listed at most once. -/
theorem nodup_listed (params : Dict String SpecDoc) (winnerParams : Dict String (Json ℚ))
    (percent : ℚ) :
    ((narrowBoundsAroundWinner params winnerParams percent).narrowed ++
      (narrowBoundsAroundWinner params winnerParams percent).skipped.map Prod.fst).Nodup := by
  rw [List.nodup_append]
  refine ⟨?_, ?_, ?_⟩
  · exact params.nodup.sublist (List.filter_sublist.map Prod.fst)
  · exact params.nodup.sublist (filterMap_fst_sublist _ params.entries)
  · rintro name hnarrowed _ hskipped rfl
    obtain ⟨spec, hspec, spec', houtcome⟩ := mem_narrowed_iff.mp hnarrowed
    obtain ⟨spec₁, hspec₁, reason, houtcome₁⟩ := mem_skipped_iff.mp hskipped
    obtain rfl := Option.some.inj (hspec.symm.trans hspec₁)
    rw [houtcome] at houtcome₁
    cases houtcome₁

/-- Every parameter but a pipeline is listed. -/
theorem mem_listed (hspec : params.get? name = some spec)
    (hpipeline : ∀ steps, spec ≠ .normalizerPipeline steps) :
    name ∈ (narrowBoundsAroundWinner params winnerParams percent).narrowed ++
      (narrowBoundsAroundWinner params winnerParams percent).skipped.map Prod.fst := by
  rw [List.mem_append, mem_narrowed_iff, mem_skipped_iff]
  cases houtcome : outcomeOf winnerParams percent name spec with
  | narrowed spec' => exact Or.inl ⟨spec, hspec, spec', houtcome⟩
  | skipped reason => exact Or.inr ⟨spec, hspec, reason, houtcome⟩
  | unlisted =>
    obtain ⟨steps, hsteps⟩ := eq_pipeline_of_unlisted houtcome
    exact absurd hsteps (hpipeline steps)

/-- Every number of the winner lies within the bounds of its parameter. -/
def WinnerInBounds (params : Dict String SpecDoc) (winnerParams : Dict String (Json ℚ)) : Prop :=
  ∀ name spec winner, params.get? name = some spec →
    winnerOf winnerParams name = some (some winner) → spec.InBounds winner

/-- A range that does not keep the winner is narrowed beside it. -/
theorem keepsWinner_of_narrowsAround (hvalid : (validateSpace params).isSome = true)
    (hwinner : WinnerInBounds params winnerParams) (hpercent : 0 < percent)
    (h : NarrowsAround params winnerParams (narrowBoundsAroundWinner params winnerParams percent))
    (hspec : params.get? name = some spec)
    (hname : winnerOf winnerParams name = some (some winner)) :
    spec.KeepsWinner winner (percent / 100) := by
  have hp : 0 < percent / 100 := by positivity
  have hin := hwinner name spec winner hspec hname
  by_contra hkeeps
  have hspecValid := (isSome_validateSpace_iff.mp hvalid).2.1 (name, spec)
    ((params.get?_eq_some_iff name spec).mp hspec)
  obtain ⟨spec', hnarrowed⟩ := exists_narrowed_of_not_keepsWinner hp hspecValid hin hkeeps
  have houtcome : outcomeOf winnerParams percent name spec = .narrowed spec' := by
    rw [outcomeOf, hname, hnarrowed]
  obtain ⟨spec₁, spec₁', winner₁, hspec₁, hspec₁', hname₁, haround⟩ :=
    h.around name (mem_narrowed_iff.mpr ⟨spec, hspec, spec', houtcome⟩)
  obtain rfl := Option.some.inj (hspec.symm.trans hspec₁)
  obtain rfl := Option.some.inj (Option.some.inj (hname.symm.trans hname₁))
  rw [get?_narrowBounds, hspec, Option.map_some, houtcome] at hspec₁'
  obtain rfl := Option.some.inj hspec₁'
  obtain ⟨winner', hwinner', hdoc⟩ := exists_winner_of_narrowed hnarrowed
  obtain rfl := Option.some.inj (Option.some.inj hwinner')
  exact hkeeps ((narrowsAround_iff hp hin hdoc).mp haround)

/-- The document is narrowed around the winner exactly when each numeric range keeps it. -/
theorem narrowsAround_narrowBounds_iff (hvalid : (validateSpace params).isSome = true)
    (hwinner : WinnerInBounds params winnerParams) (hpercent : 0 < percent) :
    NarrowsAround params winnerParams (narrowBoundsAroundWinner params winnerParams percent) ↔
      ∀ name spec winner, params.get? name = some spec →
        winnerOf winnerParams name = some (some winner) →
          spec.KeepsWinner winner (percent / 100) := by
  have hp : 0 < percent / 100 := by positivity
  constructor
  · exact fun h name spec winner => keepsWinner_of_narrowsAround hvalid hwinner hpercent h
  · intro hkeeps
    refine ⟨accepted_narrowBounds hvalid, ?_, ?_, nodup_listed params winnerParams percent,
      fun name spec => mem_listed⟩
    · intro name hname
      obtain ⟨spec, hspec, spec', houtcome⟩ := mem_narrowed_iff.mp hname
      obtain ⟨winner, hwinnerOf, hdoc⟩ := exists_winner_of_narrowed houtcome
      refine ⟨spec, spec', winner, hspec, ?_, hwinnerOf, ?_⟩
      · rw [get?_narrowBounds, hspec, Option.map_some, houtcome]
        rfl
      · have hin := hwinner name spec winner hspec hwinnerOf
        exact (narrowsAround_iff hp hin hdoc).mpr (hkeeps name spec winner hspec hwinnerOf)
    · intro name hname
      rw [get?_narrowBounds]
      cases hspec : params.get? name with
      | none => rfl
      | some spec =>
        rw [Option.map_some]
        cases houtcome : outcomeOf winnerParams percent name spec with
        | narrowed spec' => exact absurd (mem_narrowed_iff.mpr ⟨spec, hspec, spec', houtcome⟩) hname
        | skipped reason => rfl
        | unlisted => rfl

/-! ## Two documents -/

/-- A document of one parameter. -/
def oneParam (spec : SpecDoc) : Dict String SpecDoc := Dict.ofList [("title_boost", spec)]

/-- A winner's value for it. -/
def oneWinner (winner : ℚ) : Dict String (Json ℚ) := Dict.ofList [("title_boost", .float winner)]

theorem get?_oneParam {spec spec' : SpecDoc} (h : (oneParam spec).get? name = some spec') :
    name = "title_boost" ∧ spec' = spec := by
  have hmem := ((oneParam spec).get?_eq_some_iff name spec').mp h
  exact Prod.mk.inj (List.mem_singleton.mp hmem)

theorem winnerOf_oneWinner (winner : ℚ) :
    winnerOf (oneWinner winner) "title_boost" = some (some winner) := rfl

theorem winnerInBounds_oneWinner {winner : ℚ} (h : spec.InBounds winner) :
    WinnerInBounds (oneParam spec) (oneWinner winner) := by
  intro name spec' winner' hspec hname
  obtain ⟨rfl, rfl⟩ := get?_oneParam hspec
  obtain rfl := Option.some.inj (Option.some.inj ((winnerOf_oneWinner winner).symm.trans hname))
  exact h

/-- A boost between 1/2 and 5. -/
def plainBoost : SpecDoc := .float (1 / 2) 5 none

theorem inBounds_plainBoost : plainBoost.InBounds 2 := by
  rintro low high hbounds
  cases hbounds
  norm_num

/-- It is narrowed around 2. -/
theorem narrowsAround_narrowBounds_iff_plainBoost :
    NarrowsAround (oneParam plainBoost) (oneWinner 2)
      (narrowBoundsAroundWinner (oneParam plainBoost) (oneWinner 2) 20) := by
  have hvalid : (validateSpace (oneParam plainBoost)).isSome = true := by decide +kernel
  have hwinner := winnerInBounds_oneWinner inBounds_plainBoost
  refine (narrowsAround_narrowBounds_iff hvalid hwinner (by norm_num)).mpr ?_
  intro name spec winner hspec hname
  obtain ⟨rfl, rfl⟩ := get?_oneParam hspec
  intro hlog
  cases hlog

/-- A log-uniform boost with a low end below the floor. -/
def tinyBoost : SpecDoc := .float (1 / 2 ^ 50) 1 (some true)

theorem inBounds_tinyBoost : tinyBoost.InBounds (1 / 2 ^ 40) := by
  rintro low high hbounds
  cases hbounds
  norm_num

/-- Its winner is below the floor, and the floor is the new low end. -/
theorem floor_excludes_winner :
    (validateSpace (oneParam tinyBoost)).isSome = true ∧
      WinnerInBounds (oneParam tinyBoost) (oneWinner (1 / 2 ^ 40)) ∧
      ¬ NarrowsAround (oneParam tinyBoost) (oneWinner (1 / 2 ^ 40))
        (narrowBoundsAroundWinner (oneParam tinyBoost) (oneWinner (1 / 2 ^ 40)) 25) := by
  have hvalid : (validateSpace (oneParam tinyBoost)).isSome = true := by decide +kernel
  have hwinner := winnerInBounds_oneWinner inBounds_tinyBoost
  refine ⟨hvalid, hwinner, fun h => ?_⟩
  have hspec : (oneParam tinyBoost).get? "title_boost" = some tinyBoost := rfl
  have hkeeps := keepsWinner_of_narrowsAround hvalid hwinner (by norm_num) h hspec
    (winnerOf_oneWinner _)
  have hbelow : (1 / 2 ^ 40 : ℚ) < logUniformFloor := by norm_num [logUniformFloor]
  have hle := hkeeps rfl hbelow
  norm_num [targetHigh, logUniformFloor] at hle

end RelyLoop.Spaces.Ui
