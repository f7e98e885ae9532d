import RelyLoop.Ubi.Converters

/-!
# Position-bias priors

The loader of the prior takes every weight that is not below zero, infinite ones and `nan`
included. The aggregation is the one over rationals, with such weights and with the validation of
the vectors that it makes.
-/

namespace RelyLoop.Ubi

open Python (Dict Json)

/-! ## Floats -/

namespace FloatValue

/-- `x + y`. -/
def add : FloatValue → FloatValue → FloatValue
  | nan, _ | _, nan => nan
  | infinity, negInfinity | negInfinity, infinity => nan
  | infinity, _ | _, infinity => infinity
  | negInfinity, _ | _, negInfinity => negInfinity
  | finite p, finite q => finite (p + q)

instance : Zero FloatValue := ⟨finite 0⟩

instance : Add FloatValue := ⟨add⟩

/-- Sums of exact floats do not depend on the order. -/
instance : AddCommMonoid FloatValue where
  add_assoc a b c := by
    change add (add a b) c = add a (add b c)
    cases a <;> cases b <;> cases c <;> simp [add, add_assoc]
  zero_add a := by
    change add (finite 0) a = a
    cases a <;> simp [add]
  add_zero a := by
    change add a (finite 0) = a
    cases a <;> simp [add]
  add_comm a b := by
    change add a b = add b a
    cases a <;> cases b <;> simp [add, add_comm]
  nsmul := nsmulRec

theorem finite_add_finite (p q : ℚ) : finite p + finite q = finite (p + q) := rfl

/-- `n / x` for a positive `x`. -/
def quotient (n : ℕ) : FloatValue → FloatValue
  | finite q => finite (n / q)
  | nan => nan
  | _ => finite 0

/-- `min(x, y)`. -/
def least (x y : FloatValue) : FloatValue := if y.lt x then y else x

end FloatValue

/-! ## The loader -/

/-- The weights of the ranks, as they are loaded. -/
abbrev LoadedPrior := Dict ℤ FloatValue

/-- `float(value)` of a JSON value, `none` where it raises. -/
def weightOf (readFloat : String → Option FloatValue) : Json FloatValue → Option FloatValue
  | .int i => some (.finite i)
  | .bool b => some (.finite (if b then 1 else 0))
  | .float x => some x
  | .str s => readFloat s
  | _ => none

/-- An entry of `positions`, `none` where the loader gives up. -/
def addPosition (readFloat : String → Option FloatValue) (out : LoadedPrior)
    (entry : String × Json FloatValue) : Option LoadedPrior :=
  match Python.readInt entry.1.toList, weightOf readFloat entry.2 with
  | some rank, some weight =>
    if rank < 1 then none
    else if weight.lt (.finite 0) then none
    else some (out.set rank weight)
  | _, _ => none

/-- `load_position_bias_prior`, from what the file is parsed to if it can be. -/
def loadPositionBiasPrior (readFloat : String → Option FloatValue)
    (parsed : Option (Json FloatValue)) : LoadedPrior :=
  match parsed.bind (Json.get? "positions") with
  | some (.dict keys values) =>
    ((keys.zip values).foldlM (addPosition readFloat) Dict.empty).getD Dict.empty
  | _ => Dict.empty

/-- Ranks from one on, and no weight below zero. -/
def Admitted (prior : LoadedPrior) : Prop :=
  ∀ rank weight, prior.get? rank = some weight → 1 ≤ rank ∧ weight.lt (.finite 0) = false

variable {readFloat : String → Option FloatValue} {prior out : LoadedPrior}

theorem admitted_empty : Admitted Dict.empty := by
  intro rank weight h
  cases h

theorem admitted_addPosition {entry : String × Json FloatValue} (hprior : Admitted prior)
    (h : addPosition readFloat prior entry = some out) : Admitted out := by
  unfold addPosition at h
  split at h
  · rename_i rank weight hrank hweight
    split_ifs at h with hlow hnegative
    obtain rfl := Option.some.inj h
    intro rank' weight' hget
    rw [Dict.get?_set] at hget
    split_ifs at hget with hsame
    · obtain rfl := Option.some.inj hget
      rw [Bool.not_eq_true] at hnegative
      exact ⟨by omega, hnegative⟩
    · exact hprior rank' weight' hget
  · cases h

theorem admitted_foldlM {entries : List (String × Json FloatValue)} (hprior : Admitted prior)
    (h : entries.foldlM (addPosition readFloat) prior = some out) : Admitted out := by
  induction entries generalizing prior with
  | nil =>
    obtain rfl := Option.some.inj h
    exact hprior
  | cons entry entries ih =>
    rw [List.foldlM_cons] at h
    obtain ⟨next, hnext, hrest⟩ := Option.bind_eq_some_iff.mp h
    exact ih (admitted_addPosition hprior hnext) hrest

/-- What the loader admits. -/
theorem admitted_loadPositionBiasPrior (readFloat : String → Option FloatValue)
    (parsed : Option (Json FloatValue)) : Admitted (loadPositionBiasPrior readFloat parsed) := by
  unfold loadPositionBiasPrior
  split
  · rename_i keys values hpositions
    cases hfold : (keys.zip values).foldlM (addPosition readFloat) Dict.empty with
    | none => exact admitted_empty
    | some prior => exact admitted_foldlM admitted_empty hfold
  · exact admitted_empty

/-! ## The aggregation -/

namespace Loaded

/-- `prior.get(event.position or 1, 1.0)`. -/
def impressionWeight (prior : LoadedPrior) (position : Option ℤ) : FloatValue :=
  let rank := match position with
    | none => 1
    | some 0 => 1
    | some rank => rank
  (prior.get? rank).getD (.finite 1)

/-- The running totals of the aggregation loop. -/
structure Tally where
  clicks : ℕ := 0
  impressionWeightedSum : FloatValue := 0
  rawImpressions : ℕ := 0
  dwellValues : List ℚ := []
  conversions : ℕ := 0
  refinements : ℕ := 0

/-- One event in the aggregation loop. -/
def Tally.add (prior : LoadedPrior) (t : Tally) (event : UbiEvent) : Tally :=
  match event.eventType with
  | .click => { t with clicks := t.clicks + 1 }
  | .impression =>
    { t with
      rawImpressions := t.rawImpressions + 1
      impressionWeightedSum := t.impressionWeightedSum + impressionWeight prior event.position }
  | .dwell =>
    match event.dwellSeconds with
    | some seconds => { t with dwellValues := t.dwellValues ++ [seconds] }
    | none => t
  | .conversion => { t with conversions := t.conversions + 1 }
  | .refinement => { t with refinements := t.refinements + 1 }
  | .other => t

/-- The rate of the final totals. -/
def correctedCtr (clicks : ℕ) (impressionWeightedSum : FloatValue) : FloatValue :=
  if (FloatValue.finite 0).lt impressionWeightedSum then
    (FloatValue.quotient clicks impressionWeightedSum).least (.finite 1)
  else .finite 0

/-- `FeatureVec(…)`, `none` where its validation fails. -/
def featureVec? (clickCount impressionCount : ℕ) (correctedCtr : FloatValue)
    (dwellMeanSeconds conversionRate refinementRate : Option ℚ) : Option FeatureVec :=
  match correctedCtr with
  | .finite rate =>
    if 0 ≤ rate ∧ rate ≤ 1 then
      some ⟨clickCount, impressionCount, rate, dwellMeanSeconds, conversionRate, refinementRate⟩
    else none
  | _ => none

/-- The vector of the final totals. -/
def Tally.featureVec (t : Tally) : Option FeatureVec :=
  featureVec? t.clicks t.rawImpressions (correctedCtr t.clicks t.impressionWeightedSum)
    (if t.dwellValues = [] then none else some (t.dwellValues.sum / t.dwellValues.length))
    (if 0 < t.clicks then some (t.conversions / t.clicks) else none)
    (if 0 < t.rawImpressions then some (t.refinements / t.rawImpressions) else none)

/-- The vector of the events of one pair. -/
def aggregatePair (prior : LoadedPrior) (events : List UbiEvent) : Option FeatureVec :=
  (events.foldl (Tally.add prior) {}).featureVec

/-- `aggregate_features`, `none` where a vector is not valid. -/
def aggregateFeatures (eventsByPair : Dict Pair (List UbiEvent))
    (positionBiasPrior : Option LoadedPrior) : Option (Dict Pair FeatureVec) :=
  let vectors := eventsByPair.mapValues (aggregatePair (positionBiasPrior.getD Dict.empty))
  if vectors.entries.all fun entry => entry.2.isSome then some (vectors.filterMapValues id)
  else none

/-! ## What it computes -/

/-- The weights of the impressions. -/
def impressionWeights (prior : LoadedPrior) (events : List UbiEvent) : List FloatValue :=
  (events.filter fun event => event.eventType = .impression).map fun event =>
    impressionWeight prior event.position

theorem impressionWeights_cons (prior : LoadedPrior) (event : UbiEvent) (events : List UbiEvent) :
    impressionWeights prior (event :: events) =
      if event.eventType = .impression then
        impressionWeight prior event.position :: impressionWeights prior events
      else impressionWeights prior events := by
  by_cases htype : event.eventType = .impression <;> simp [impressionWeights, htype]

theorem foldl_add (prior : LoadedPrior) (events : List UbiEvent) (t : Tally) :
    events.foldl (Tally.add prior) t =
      { clicks := t.clicks + countType .click events
        impressionWeightedSum := t.impressionWeightedSum + (impressionWeights prior events).sum
        rawImpressions := t.rawImpressions + countType .impression events
        dwellValues := t.dwellValues ++ dwellTimes events
        conversions := t.conversions + countType .conversion events
        refinements := t.refinements + countType .refinement events } := by
  induction events generalizing t with
  | nil => simp [countType, impressionWeights, dwellTimes]
  | cons event events ih =>
    rw [List.foldl_cons, ih]
    simp only [countType_cons, impressionWeights_cons, dwellTimes_cons, Tally.add]
    cases htype : event.eventType with
    | click => simp [Nat.add_assoc]
    | impression => simp [add_assoc]
    | conversion => simp [Nat.add_assoc]
    | refinement => simp [Nat.add_assoc]
    | other => simp
    | dwell => cases hseconds : event.dwellSeconds <;> simp

theorem aggregatePair_perm (prior : LoadedPrior) {events events' : List UbiEvent}
    (h : events.Perm events') : aggregatePair prior events = aggregatePair prior events' := by
  have hcount : ∀ type, countType type events = countType type events' :=
    fun type => h.countP_eq _
  have hweights : (impressionWeights prior events).sum = (impressionWeights prior events').sum :=
    ((h.filter _).map _).sum_eq
  have hdwell : (dwellTimes events).Perm (dwellTimes events') := (h.filter _).filterMap _
  have hnil : dwellTimes events = [] ↔ dwellTimes events' = [] := by
    rw [← List.length_eq_zero_iff, ← List.length_eq_zero_iff, hdwell.length_eq]
  simp only [aggregatePair, foldl_add, Tally.featureVec, hcount, hweights, List.nil_append,
    hdwell.sum_eq, hdwell.length_eq, hnil]

/-- The rate is a number from zero to one, whatever the weights are. -/
theorem exists_correctedCtr (clicks : ℕ) (weights : FloatValue) :
    ∃ rate : ℚ, correctedCtr clicks weights = .finite rate ∧ 0 ≤ rate ∧ rate ≤ 1 := by
  unfold correctedCtr
  split_ifs with hpos
  · cases weights with
    | finite q =>
      have hq : 0 < q := by simpa [FloatValue.lt] using hpos
      have hrate : (0 : ℚ) ≤ clicks / q := div_nonneg (Nat.cast_nonneg clicks) hq.le
      unfold FloatValue.quotient FloatValue.least
      split_ifs with hone
      · exact ⟨1, rfl, zero_le_one, le_rfl⟩
      · refine ⟨clicks / q, rfl, hrate, ?_⟩
        simpa [FloatValue.lt] using hone
    | infinity => exact ⟨0, rfl, le_rfl, zero_le_one⟩
    | negInfinity => cases hpos
    | nan => cases hpos
  · exact ⟨0, rfl, le_rfl, zero_le_one⟩

/-- The vector of a pair is valid. -/
theorem exists_aggregatePair (prior : LoadedPrior) (events : List UbiEvent) :
    ∃ fvec, aggregatePair prior events = some fvec ∧ 0 ≤ fvec.correctedCtr ∧
      fvec.correctedCtr ≤ 1 := by
  obtain ⟨rate, hrate, hzero, hone⟩ :=
    exists_correctedCtr (events.foldl (Tally.add prior) {}).clicks
      (events.foldl (Tally.add prior) {}).impressionWeightedSum
  rw [aggregatePair, Tally.featureVec, hrate, featureVec?, if_pos ⟨hzero, hone⟩]
  exact ⟨_, rfl, hzero, hone⟩

/-- No vector fails the validation. -/
theorem aggregateFeatures_eq (eventsByPair : Dict Pair (List UbiEvent))
    (prior : Option LoadedPrior) : aggregateFeatures eventsByPair prior =
      some (eventsByPair.filterMapValues (aggregatePair (prior.getD Dict.empty))) := by
  have hvalid : ((eventsByPair.mapValues (aggregatePair (prior.getD Dict.empty))).entries.all
      fun entry => entry.2.isSome) = true := by
    rw [List.all_eq_true]
    intro entry hentry
    obtain ⟨⟨pair, events⟩, -, rfl⟩ := List.mem_map.mp hentry
    obtain ⟨fvec, hfvec, -⟩ := exists_aggregatePair (prior.getD Dict.empty) events
    exact Option.isSome_iff_exists.mpr ⟨fvec, hfvec⟩
  rw [aggregateFeatures, if_pos hvalid]
  congr 1
  apply Dict.ext
  simp [Dict.filterMapValues, Dict.mapValues, List.filterMap_map]

theorem get?_aggregateFeatures {eventsByPair : Dict Pair (List UbiEvent)}
    {prior : Option LoadedPrior} {features : Dict Pair FeatureVec}
    (h : aggregateFeatures eventsByPair prior = some features) (pair : Pair) :
    features.get? pair =
      (eventsByPair.get? pair).bind (aggregatePair (prior.getD Dict.empty)) := by
  rw [aggregateFeatures_eq] at h
  obtain rfl := Option.some.inj h
  exact Dict.get?_filterMapValues _ _ pair

/-! ## Finite weights -/

theorem impressionWeight_mapValues (prior : PositionBiasPrior) (position : Option ℤ) :
    impressionWeight (prior.mapValues .finite) position =
      .finite (Ubi.impressionWeight prior position) := by
  unfold impressionWeight Ubi.impressionWeight
  dsimp only
  rw [Dict.get?_mapValues]
  cases prior.get? _ <;> rfl

theorem sum_impressionWeights (prior : PositionBiasPrior) (events : List UbiEvent) :
    (impressionWeights (prior.mapValues .finite) events).sum =
      .finite (Ubi.impressionWeights prior events).sum := by
  induction events with
  | nil => rfl
  | cons event events ih =>
    rw [impressionWeights_cons, Ubi.impressionWeights_cons]
    split_ifs
    · rw [List.sum_cons, List.sum_cons, ih, impressionWeight_mapValues,
        FloatValue.finite_add_finite]
    · exact ih

theorem correctedCtr_finite (clicks : ℕ) (weights : ℚ) :
    correctedCtr clicks (.finite weights) =
      .finite (if 0 < weights then min (clicks / weights) 1 else 0) := by
  by_cases hpos : 0 < weights
  · by_cases hone : (1 : ℚ) < clicks / weights
    · simp [correctedCtr, FloatValue.lt, FloatValue.quotient, FloatValue.least, hpos, hone, hone.le]
    · simp [correctedCtr, FloatValue.lt, FloatValue.quotient, FloatValue.least, hpos, hone,
        le_of_not_gt hone]
  · simp [correctedCtr, FloatValue.lt, hpos]

/-- With finite weights the vector is that of the rational weights. -/
theorem aggregatePair_mapValues (prior : PositionBiasPrior) (events : List UbiEvent) :
    aggregatePair (prior.mapValues .finite) events = some (Ubi.aggregatePair prior events) := by
  obtain ⟨rate, hrate, hzero, hone⟩ := exists_correctedCtr (countType .click events)
    (.finite (Ubi.impressionWeights prior events).sum)
  have hsame := hrate
  rw [correctedCtr_finite] at hsame
  obtain rfl := FloatValue.finite.inj hsame
  simp only [aggregatePair, Tally.featureVec, foldl_add, sum_impressionWeights, zero_add, hrate]
  rw [featureVec?, if_pos ⟨hzero, hone⟩]
  simp [Ubi.aggregatePair, Ubi.foldl_add, Ubi.Tally.featureVec]

end Loaded

end RelyLoop.Ubi
