import RelyLoop.Ubi.Features
import RelyLoop.Python.Conversions
import RelyLoop.Python.Json

/-!
# Converters

A converter turns the feature vectors of a judgment list into ratings. The two pure ones compare
a rate or a dwell time with three thresholds. The hybrid one splits the vectors by their numbers
of impressions, rates the head with a pure one and asks the language model for the tail.
-/

namespace RelyLoop.Ubi

open Python (Dict Json)

/-- A query and a document. -/
abbrev Pair := String × String

/-- `ConverterConfig.extra`. -/
abbrev Extra := Dict String (Json ℚ)

/-- What ends a conversion early. -/
inductive ConvertError where
  | valueError
  | budgetExceeded
  | unknownModelPricing
  /-- Any other exception, by its type. -/
  | other (type : String)
  deriving DecidableEq, Repr

/-- The reason with which the worker fails the list. -/
def ConvertError.failedReason : ConvertError → String
  | valueError => "UNEXPECTED:ValueError"
  | budgetExceeded => "OPENAI_BUDGET_EXCEEDED"
  | unknownModelPricing => "UNKNOWN_MODEL_PRICING"
  | other type => "UNEXPECTED:" ++ type

/-- `int(value)` of a JSON value; the callers turn a `TypeError` into a `ValueError`. -/
def intOf : Json ℚ → Except ConvertError ℤ
  | .int i => .ok i
  | .bool b => .ok (if b then 1 else 0)
  | .float q => .ok (if 0 ≤ q then ⌊q⌋ else ⌈q⌉)
  | .str s => match Python.readInt s.toList with
    | none => .error .valueError
    | some i => .ok i
  | _ => .error .valueError

/-! ## Thresholds -/

/-- A float that `float(text)` can give. -/
inductive FloatValue where
  | finite (q : ℚ)
  | infinity
  | negInfinity
  | nan
  deriving DecidableEq, Repr

/-- `x < y`. -/
def FloatValue.lt : FloatValue → FloatValue → Bool
  | finite p, finite q => p < q
  | negInfinity, finite _ | negInfinity, infinity | finite _, infinity => true
  | _, _ => false

/-- The thresholds of the ratings 1, 2 and 3. -/
structure Thresholds where
  one : FloatValue
  two : FloatValue
  three : FloatValue
  deriving DecidableEq, Repr

/-- `_CTR_DEFAULTS`. -/
def ctrDefaults : Thresholds := ⟨.finite (5 / 100), .finite (15 / 100), .finite (30 / 100)⟩

/-- `_DWELL_DEFAULTS`. -/
def dwellDefaults : Thresholds := ⟨.finite 10, .finite 30, .finite 90⟩

/-- `float(value)` of a JSON value, with `float` of a text as an argument. -/
def floatOf (readFloat : String → Option FloatValue) : Json ℚ → Except ConvertError FloatValue
  | .int i => .ok (.finite i)
  | .bool b => .ok (.finite (if b then 1 else 0))
  | .float q => .ok (.finite q)
  | .str s => match readFloat s with
    | none => .error .valueError
    | some value => .ok value
  | _ => .error .valueError

/-- One entry of `thresholds`. -/
def parseThreshold (readFloat : String → Option FloatValue) (parsed : Dict ℤ FloatValue)
    (entry : String × Json ℚ) : Except ConvertError (Dict ℤ FloatValue) :=
  match Python.readInt entry.1.toList with
  | none => .error .valueError
  | some rating =>
    if rating ∉ [1, 2, 3] then .error .valueError
    else (floatOf readFloat entry.2).map fun value => parsed.set rating value

/-- `_resolve_thresholds`. -/
def resolveThresholds (readFloat : String → Option FloatValue) (config : Extra)
    (defaults : Thresholds) : Except ConvertError Thresholds :=
  match config.get? "thresholds" with
  | none => .ok defaults
  | some .null => .ok defaults
  | some (.dict keys values) => do
    let parsed ← (keys.zip values).foldlM (parseThreshold readFloat) Dict.empty
    match parsed.get? 1, parsed.get? 2, parsed.get? 3 with
    | some one, some two, some three =>
      if one.lt two && two.lt three then .ok ⟨one, two, three⟩ else .error .valueError
    | _, _, _ => .error .valueError
  | some _ => .error .valueError

/-- `_threshold_rating`. -/
def thresholdRating (value : ℚ) (thresholds : Thresholds) : ℕ :=
  if (FloatValue.finite value).lt thresholds.one then 0
  else if (FloatValue.finite value).lt thresholds.two then 1
  else if (FloatValue.finite value).lt thresholds.three then 2
  else 3

/-! ## The pure converters -/

/-- `SignalsConverter.convert`. -/
abbrev Convert := Dict Pair FeatureVec → Extra → Except ConvertError (Dict Pair ℕ)

/-- Rates the vectors that have a signal. -/
def rateSignals (readFloat : String → Option FloatValue) (defaults : Thresholds)
    (signal : FeatureVec → Option ℚ) : Convert := fun features config =>
  (resolveThresholds readFloat config defaults).map fun thresholds =>
    features.filterMapValues fun fvec =>
      (signal fvec).map fun value => thresholdRating value thresholds

/-- `CtrThresholdConverter.convert`. -/
def ctrThresholdConvert (readFloat : String → Option FloatValue) : Convert :=
  rateSignals readFloat ctrDefaults fun fvec =>
    if fvec.impressionCount = 0 then none else some fvec.correctedCtr

/-- `DwellTimeThresholdConverter.convert`. -/
def dwellTimeThresholdConvert (readFloat : String → Option FloatValue) : Convert :=
  rateSignals readFloat dwellDefaults FeatureVec.dwellMeanSeconds

/-! ## The callback -/

/-- How the turn of one query text in the callback ends: with an exception that is raised
further, with one that is logged, or with what the model answered, by prompt ids. -/
inductive BatchAnswer where
  | raises (error : ConvertError)
  | skips
  | rates (ratings : List (String × ℕ))
  deriving DecidableEq, Repr

/-- `prompt_id_to_real`. -/
def promptIdToReal (pairs : List Pair) : Dict String Pair :=
  Dict.ofList (pairs.zipIdx.map fun entry => ("item-" ++ toString entry.2, entry.1))

/-- One rating of an answer; unknown prompt ids are skipped. -/
def recordRating (prompts : Dict String Pair) (out : Dict Pair ℕ) (rating : String × ℕ) :
    Dict Pair ℕ :=
  match prompts.get? rating.1 with
  | none => out
  | some realPair => out.set realPair rating.2

/-- The turn of one query text. -/
def llmTurn (answer : String → List Pair → BatchAnswer) (acc : Dict Pair ℕ × ℕ)
    (entry : String × List (Pair × String)) : Except ConvertError (Dict Pair ℕ × ℕ) :=
  let pairs := entry.2.map Prod.fst
  match answer entry.1 pairs with
  | .raises error => .error error
  | .skips => .ok acc
  | .rates ratings => .ok (ratings.foldl (recordRating (promptIdToReal pairs)) acc.1, acc.2 + 1)

/-- The callback of `make_hybrid_llm_rate_callback`, on pairs with their query texts: the
ratings and the number of calls. -/
def llmRate (answer : String → List Pair → BatchAnswer) (pairs : List (Pair × String)) :
    Except ConvertError (Dict Pair ℕ × ℕ) :=
  (Dict.group Prod.snd pairs).entries.foldlM (llmTurn answer) (Dict.empty, 0)

/-! ## The hybrid converter -/

/-- The threshold at which the converter splits. -/
def fillThreshold (config : Extra) : Except ConvertError ℤ := do
  let threshold ← match config.get? "llm_fill_threshold" with
    | none => .ok 20
    | some raw => intOf raw
  if threshold < 1 then .error .valueError else .ok threshold

/-- Whether a vector belongs to the head. -/
def inHead (threshold : ℤ) (fvec : FeatureVec) : Bool := threshold ≤ fvec.impressionCount

/-- What the hybrid converter computes on its way. -/
structure HybridConversion where
  headPairs : Dict Pair FeatureVec
  tailPairs : Dict Pair FeatureVec
  headRatings : Dict Pair ℕ
  tailRatings : Dict Pair ℕ
  llmFillCalls : ℕ

/-- The ratings that `HybridUbiLlmConverter.convert` returns: those of the head win. -/
def HybridConversion.merged (conversion : HybridConversion) : Dict Pair ℕ :=
  conversion.tailRatings.update conversion.headRatings

/-- `HybridUbiLlmConverter.convert`, up to the merge. -/
def hybridConvert (inner : Convert) (answer : String → List Pair → BatchAnswer)
    (queryTextLookup : String → String) (features : Dict Pair FeatureVec) (config : Extra) :
    Except ConvertError HybridConversion := do
  let threshold ← fillThreshold config
  let headPairs := features.filterValues (inHead threshold)
  let tailPairs := features.filterValues fun fvec => !inHead threshold fvec
  let headRatings ← inner headPairs config
  let (tailRatings, calls) ←
    if tailPairs.entries = [] then .ok (Dict.empty, 0)
    else llmRate answer (tailPairs.keys.map fun pair => (pair, queryTextLookup pair.1))
  return ⟨headPairs, tailPairs, headRatings, tailRatings, calls⟩

/-! ## Where ratings come from -/

theorem keys_rateSignals {readFloat : String → Option FloatValue} {defaults : Thresholds}
    {signal : FeatureVec → Option ℚ} {features : Dict Pair FeatureVec} {config : Extra}
    {ratings : Dict Pair ℕ}
    (h : rateSignals readFloat defaults signal features config = .ok ratings) :
    ratings.keys ⊆ features.keys := by
  rw [rateSignals] at h
  cases hthresholds : resolveThresholds readFloat config defaults with
  | error e =>
    rw [hthresholds] at h
    cases h
  | ok thresholds =>
    rw [hthresholds] at h
    obtain rfl := Except.ok.inj h
    exact Dict.keys_filterMapValues_subset _ _

section

variable {answer : String → List Pair → BatchAnswer} {pairs : List (Pair × String)}
  {acc acc' : Dict Pair ℕ × ℕ}

/-- A prompt id stands for one of the pairs that are shown. -/
theorem mem_of_promptIdToReal {shown : List Pair} {promptId : String} {pair : Pair}
    (h : (promptIdToReal shown).get? promptId = some pair) : pair ∈ shown := by
  obtain ⟨entry, hentry, heq⟩ := List.mem_map.mp (Dict.mem_of_get?_ofList h)
  obtain ⟨-, rfl⟩ := Prod.mk.inj heq
  exact List.fst_mem_of_mem_zipIdx hentry

/-- An answer adds ratings of pairs that are shown only. -/
theorem keys_recordRatings {shown : List Pair} (ratings : List (String × ℕ)) {out : Dict Pair ℕ}
    {pair : Pair} (h : pair ∈ (ratings.foldl (recordRating (promptIdToReal shown)) out).keys) :
    pair ∈ out.keys ∨ pair ∈ shown := by
  induction ratings generalizing out with
  | nil => exact .inl h
  | cons rating ratings ih =>
    rw [List.foldl_cons] at h
    rcases ih h with hout | hshown
    · rw [recordRating] at hout
      split at hout
      · exact .inl hout
      · rename_i realPair hreal
        rw [Dict.mem_keys_iff, Dict.get?_set] at hout
        split at hout
        · rename_i heq
          exact .inr (heq ▸ mem_of_promptIdToReal hreal)
        · exact .inl (Dict.mem_keys_iff.mpr hout)
    · exact .inr hshown

theorem keys_llmTurn {entry : String × List (Pair × String)} (h : llmTurn answer acc entry = .ok acc')
    {pair : Pair} (hpair : pair ∈ acc'.1.keys) :
    pair ∈ acc.1.keys ∨ pair ∈ entry.2.map Prod.fst := by
  rw [llmTurn] at h
  split at h
  · cases h
  · obtain rfl := Except.ok.inj h
    exact .inl hpair
  · obtain rfl := Except.ok.inj h
    exact keys_recordRatings _ hpair

/-- The callback rates pairs that it is asked for only. -/
theorem keys_llmRate (h : llmRate answer pairs = .ok acc') :
    acc'.1.keys ⊆ pairs.map Prod.fst := by
  have hentries : ∀ entry ∈ (Dict.group Prod.snd pairs).entries, entry.2 ⊆ pairs := by
    rintro ⟨text, group⟩ hentry
    have hget := (Dict.get?_eq_some_iff _ text group).mpr hentry
    rw [Dict.get?_group] at hget
    split at hget
    · cases hget
    · obtain rfl := Option.some.inj hget
      exact List.filter_subset_self pairs
  have hfold : ∀ (entries : List (String × List (Pair × String))) (acc : Dict Pair ℕ × ℕ),
      (∀ entry ∈ entries, entry.2 ⊆ pairs) →
      entries.foldlM (llmTurn answer) acc = .ok acc' →
      ∀ pair ∈ acc'.1.keys, pair ∈ acc.1.keys ∨ pair ∈ pairs.map Prod.fst := by
    intro entries
    induction entries with
    | nil =>
      intro acc _ hrun pair hpair
      obtain rfl := Except.ok.inj hrun
      exact .inl hpair
    | cons entry entries ih =>
      intro acc hsub hrun pair hpair
      rw [List.foldlM_cons] at hrun
      cases hturn : llmTurn answer acc entry with
      | error e =>
        rw [hturn] at hrun
        cases hrun
      | ok mid =>
        rw [hturn] at hrun
        have hrest := fun other hother => hsub other (List.mem_cons_of_mem entry hother)
        rcases ih mid hrest hrun pair hpair with hmid | hin
        · rcases keys_llmTurn hturn hmid with hold | hshown
          · exact .inl hold
          · exact .inr (List.map_subset Prod.fst (hsub entry List.mem_cons_self) hshown)
        · exact .inr hin
  intro pair hpair
  rcases hfold _ _ hentries h pair hpair with hempty | hin
  · cases hempty
  · exact hin

/-- What a successful conversion consists of. -/
theorem hybridConvert_ok {inner : Convert} {queryTextLookup : String → String}
    {features : Dict Pair FeatureVec} {config : Extra} {conversion : HybridConversion}
    (h : hybridConvert inner answer queryTextLookup features config = .ok conversion) :
    ∃ threshold, fillThreshold config = .ok threshold ∧
      conversion.headPairs = features.filterValues (inHead threshold) ∧
      conversion.tailPairs = features.filterValues (fun fvec => !inHead threshold fvec) ∧
      inner conversion.headPairs config = .ok conversion.headRatings ∧
      conversion.tailRatings.keys ⊆ conversion.tailPairs.keys := by
  rw [hybridConvert] at h
  cases hthreshold : fillThreshold config with
  | error e =>
    rw [hthreshold] at h
    cases h
  | ok threshold =>
    rw [hthreshold] at h
    dsimp only [bind, Except.bind] at h
    cases hinner : inner (features.filterValues (inHead threshold)) config with
    | error e =>
      rw [hinner] at h
      cases h
    | ok headRatings =>
      rw [hinner] at h
      dsimp only at h
      split at h
      · rename_i hempty
        obtain rfl := Except.ok.inj h
        refine ⟨threshold, rfl, rfl, rfl, hinner, ?_⟩
        exact List.nil_subset _
      · cases hrate : llmRate answer ((features.filterValues fun fvec =>
            !inHead threshold fvec).keys.map fun pair => (pair, queryTextLookup pair.1)) with
        | error e =>
          rw [hrate] at h
          cases h
        | ok rated =>
          rw [hrate] at h
          obtain rfl := Except.ok.inj h
          refine ⟨threshold, rfl, rfl, rfl, hinner, ?_⟩
          have hkeys := keys_llmRate hrate
          rwa [List.map_map, Function.comp_def, List.map_id'] at hkeys

end

end RelyLoop.Ubi
