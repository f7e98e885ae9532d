import RelyLoop.Ubi.Priors

/-!
# Features and grades

The features of a pair do not depend on the order of its events and are always valid. The pure
converters grade the pairs that have a signal, and a better signal never gets a worse grade.
-/

namespace RelyLoop.Ubi

open Python (Dict Json)

/-! ## Grades -/

/-- The signal of `CtrThresholdConverter`. -/
def ctrSignal (fvec : FeatureVec) : Option ℚ :=
  if fvec.impressionCount = 0 then none else some fvec.correctedCtr

theorem thresholdRating_le (value : ℚ) (thresholds : Thresholds) :
    thresholdRating value thresholds ≤ 3 := by
  unfold thresholdRating
  split_ifs <;> omega

/-- A larger value is below fewer thresholds. -/
theorem lt_of_le_of_lt {value value' : ℚ} (h : value ≤ value') {threshold : FloatValue}
    (hlt : (FloatValue.finite value').lt threshold = true) :
    (FloatValue.finite value).lt threshold = true := by
  cases threshold with
  | finite q =>
    have hq : value' < q := by simpa [FloatValue.lt] using hlt
    simpa [FloatValue.lt] using h.trans_lt hq
  | infinity => rfl
  | negInfinity => cases hlt
  | nan => cases hlt

theorem thresholdRating_mono {value value' : ℚ} (h : value ≤ value') (thresholds : Thresholds) :
    thresholdRating value thresholds ≤ thresholdRating value' thresholds := by
  have hone := @lt_of_le_of_lt value value' h thresholds.one
  have htwo := @lt_of_le_of_lt value value' h thresholds.two
  have hthree := @lt_of_le_of_lt value value' h thresholds.three
  unfold thresholdRating
  split_ifs <;> simp_all

variable {readFloat : String → Option FloatValue} {defaults : Thresholds}
  {signal : FeatureVec → Option ℚ} {features : Dict Pair FeatureVec} {config : Extra}
  {ratings : Dict Pair ℕ}

/-- The rating of a pair is that of its signal. -/
theorem rateSignals_ok (h : rateSignals readFloat defaults signal features config = .ok ratings) :
    ∃ thresholds, resolveThresholds readFloat config defaults = .ok thresholds ∧
      ∀ pair, ratings.get? pair = (features.get? pair).bind fun fvec =>
        (signal fvec).map fun value => thresholdRating value thresholds := by
  rw [rateSignals] at h
  cases hthresholds : resolveThresholds readFloat config defaults with
  | error e =>
    rw [hthresholds] at h
    cases h
  | ok thresholds =>
    rw [hthresholds] at h
    obtain rfl := Except.ok.inj h
    exact ⟨thresholds, rfl, fun pair => Dict.get?_filterMapValues _ features pair⟩

/-- A pair is graded by its signal, and with more signal not worse. -/
structure GradesBy (convert : Convert) (signal : FeatureVec → Option ℚ) : Prop where
  graded : ∀ {features config ratings}, convert features config = .ok ratings →
    ∀ {pair fvec}, features.get? pair = some fvec → signal fvec ≠ none →
      ∃ grade ≤ 3, ratings.get? pair = some grade
  dropped : ∀ {features config ratings}, convert features config = .ok ratings →
    ∀ {pair fvec}, features.get? pair = some fvec → signal fvec = none →
      ratings.get? pair = none
  monotone : ∀ {features features' config ratings ratings'},
    convert features config = .ok ratings → convert features' config = .ok ratings' →
    ∀ {pair fvec fvec' value value'}, features.get? pair = some fvec →
      features'.get? pair = some fvec' → signal fvec = some value →
      signal fvec' = some value' → value ≤ value' →
      ∀ {grade grade'}, ratings.get? pair = some grade → ratings'.get? pair = some grade' →
        grade ≤ grade'

theorem gradesBy_rateSignals (readFloat : String → Option FloatValue) (defaults : Thresholds)
    (signal : FeatureVec → Option ℚ) : GradesBy (rateSignals readFloat defaults signal) signal where
  graded h := by
    intro pair fvec hfvec hsignal
    obtain ⟨thresholds, -, hget⟩ := rateSignals_ok h
    obtain ⟨value, hvalue⟩ := Option.ne_none_iff_exists'.mp hsignal
    refine ⟨thresholdRating value thresholds, thresholdRating_le value thresholds, ?_⟩
    rw [hget, hfvec, Option.bind_some, hvalue, Option.map_some]
  dropped h := by
    intro pair fvec hfvec hsignal
    obtain ⟨thresholds, -, hget⟩ := rateSignals_ok h
    rw [hget, hfvec, Option.bind_some, hsignal, Option.map_none]
  monotone h h' := by
    intro pair fvec fvec' value value' hfvec hfvec' hvalue hvalue' hle grade grade' hgrade hgrade'
    obtain ⟨thresholds, hthresholds, hget⟩ := rateSignals_ok h
    obtain ⟨thresholds', hthresholds', hget'⟩ := rateSignals_ok h'
    rw [hthresholds] at hthresholds'
    obtain rfl := Except.ok.inj hthresholds'
    rw [hget, hfvec, Option.bind_some, hvalue, Option.map_some] at hgrade
    rw [hget', hfvec', Option.bind_some, hvalue', Option.map_some] at hgrade'
    obtain rfl := Option.some.inj hgrade
    obtain rfl := Option.some.inj hgrade'
    exact thresholdRating_mono hle thresholds

/-! ## Features -/

/-- The same events for each pair, in any order. -/
def SameEvents (eventsByPair eventsByPair' : Dict Pair (List UbiEvent)) : Prop :=
  ∀ pair, Option.Rel List.Perm (eventsByPair.get? pair) (eventsByPair'.get? pair)

/-- The features with a prior are valid and do not depend on the order of the events. -/
structure Aggregates (prior : Option LoadedPrior) : Prop where
  valid : ∀ eventsByPair, ∃ features, Loaded.aggregateFeatures eventsByPair prior = some features
  order : ∀ {eventsByPair eventsByPair' features features'}, SameEvents eventsByPair eventsByPair' →
    Loaded.aggregateFeatures eventsByPair prior = some features →
    Loaded.aggregateFeatures eventsByPair' prior = some features' →
    ∀ pair, features.get? pair = features'.get? pair
  rate : ∀ {eventsByPair features pair fvec},
    Loaded.aggregateFeatures eventsByPair prior = some features →
    features.get? pair = some fvec → 0 ≤ fvec.correctedCtr ∧ fvec.correctedCtr ≤ 1

theorem bind_aggregatePair_perm (prior : LoadedPrior) {events events' : Option (List UbiEvent)}
    (h : Option.Rel List.Perm events events') :
    events.bind (Loaded.aggregatePair prior) = events'.bind (Loaded.aggregatePair prior) := by
  cases h with
  | none => rfl
  | some hperm => exact Loaded.aggregatePair_perm prior hperm

theorem aggregates (prior : Option LoadedPrior) : Aggregates prior where
  valid eventsByPair := ⟨_, Loaded.aggregateFeatures_eq eventsByPair prior⟩
  order hsame h h' pair := by
    rw [Loaded.get?_aggregateFeatures h, Loaded.get?_aggregateFeatures h']
    exact bind_aggregatePair_perm _ (hsame pair)
  rate h hfvec := by
    rw [Loaded.get?_aggregateFeatures h] at hfvec
    obtain ⟨events, -, hvector⟩ := Option.bind_eq_some_iff.mp hfvec
    obtain ⟨fvec, hvec, hzero, hone⟩ := Loaded.exists_aggregatePair _ events
    rw [hvec] at hvector
    obtain rfl := Option.some.inj hvector
    exact ⟨hzero, hone⟩

/-- The features and the grades, for every prior and every configuration. -/
theorem features_and_grades_laws (readFloat : String → Option FloatValue) :
    (∀ parsed, Aggregates (some (loadPositionBiasPrior readFloat parsed))) ∧ Aggregates none ∧
      GradesBy (ctrThresholdConvert readFloat) ctrSignal ∧
      GradesBy (dwellTimeThresholdConvert readFloat) FeatureVec.dwellMeanSeconds :=
  ⟨fun _ => aggregates _, aggregates none, gradesBy_rateSignals readFloat ctrDefaults ctrSignal,
    gradesBy_rateSignals readFloat dwellDefaults FeatureVec.dwellMeanSeconds⟩

/-- A click without an impression. -/
def loneClick : Dict Pair (List UbiEvent) :=
  Dict.empty.set ("q", "d") [{ queryId := "q", docId := "d", eventType := .click }]

/-- A vector without impressions gets no grade. -/
theorem not_every_vector_graded : ¬∀ (features : Dict Pair FeatureVec) (ratings : Dict Pair ℕ),
    Loaded.aggregateFeatures loneClick none = some features →
    ctrThresholdConvert (fun _ => none) features Dict.empty = .ok ratings →
    ∀ pair fvec, features.get? pair = some fvec → ∃ grade ≤ 3, ratings.get? pair = some grade := by
  intro h
  have hvec : Loaded.aggregatePair Dict.empty
      [{ queryId := "q", docId := "d", eventType := .click }] =
        some ⟨1, 0, 0, none, some 0, none⟩ := by
    simp [Loaded.aggregatePair, Loaded.Tally.add, Loaded.Tally.featureVec, Loaded.correctedCtr,
      Loaded.featureVec?]
    decide
  have hget := Loaded.get?_aggregateFeatures (Loaded.aggregateFeatures_eq loneClick none) ("q", "d")
  rw [Option.getD_none, loneClick, Dict.get?_set, if_pos rfl, Option.bind_some, hvec] at hget
  obtain ⟨grade, -, hgrade⟩ := h _ _ (Loaded.aggregateFeatures_eq loneClick none) rfl _ _ hget
  rw [Dict.get?_filterMapValues] at hgrade
  rw [loneClick, Option.getD_none, hget] at hgrade
  cases hgrade

end RelyLoop.Ubi
