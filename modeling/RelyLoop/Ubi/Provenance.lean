import RelyLoop.Ubi.Converters
import RelyLoop.Ubi.Ratings
import Mathlib.Data.Rat.Cast.Order

/-!
# Where the worker says that ratings come from

The worker of a UBI judgment list writes a row for each rating, with its source, and a tally of
the head and the tail. It derives both from the threshold of the request, while the hybrid
converter splits at a threshold that the converter's own configuration can override.
-/

namespace RelyLoop.Ubi

open Python (Dict Json)

/-- The admitted values of `converter`. -/
inductive ConverterKind where
  | ctrThreshold
  | dwellTime
  | hybridUbiLlm
  deriving DecidableEq, Repr

/-- The text of a kind. -/
def ConverterKind.wire : ConverterKind → String
  | ctrThreshold => "ctr_threshold"
  | dwellTime => "dwell_time"
  | hybridUbiLlm => "hybrid_ubi_llm"

/-- `judgments.source` of a row of this worker. -/
inductive RowSource where
  | llm
  | click
  deriving DecidableEq, Repr

/-- A row of `judgments`. -/
structure JudgmentRow where
  queryId : String
  docId : String
  rating : ℕ
  source : RowSource
  raterRef : String
  deriving DecidableEq, Repr

/-- The pair that a row is about. -/
def JudgmentRow.pair (row : JudgmentRow) : Pair := (row.queryId, row.docId)

/-- The `calibration` document. -/
structure Calibration where
  coveragePct : ℚ
  headPairs : ℕ
  tailPairs : ℕ
  ambiguousQuerySkipCount : ℕ
  sparseQuerySkipCount : ℕ
  llmFillCalls : Option ℕ
  deriving DecidableEq, Repr

/-- How the list ends. -/
inductive ListOutcome where
  | failed (failedReason : String)
  | complete (rows : List JudgmentRow) (calibration : Calibration)
  deriving DecidableEq, Repr

/-- What the worker reads beside the features. -/
structure UbiParams where
  converter : ConverterKind
  /-- `params.get("converter_config") or {}`. -/
  converterConfig : Extra
  /-- `params.get("llm_fill_threshold")`. -/
  llmFillThreshold : Option ℕ
  openaiModel : String

namespace UbiParams

variable (params : UbiParams)

/-- `params.get("llm_fill_threshold") or 20`. -/
def requestThreshold : ℕ :=
  match params.llmFillThreshold with
  | none => 20
  | some 0 => 20
  | some threshold => threshold

/-- `converter_extra`. -/
def converterExtra : Extra :=
  (Dict.ofList [("llm_fill_threshold", Json.int params.requestThreshold)]).update
    params.converterConfig

/-- The inner converter that `_build_converter` picks. -/
def innerConvert (readFloat : String → Option FloatValue) : Convert :=
  match params.converterConfig.get? "inner" with
  | some (.str "dwell_time") => dwellTimeThresholdConvert readFloat
  | _ => ctrThresholdConvert readFloat

end UbiParams

/-- What a run meets outside: `float` of a text, the language model and the query texts. -/
structure UbiSurroundings where
  readFloat : String → Option FloatValue
  answer : String → List Pair → BatchAnswer
  queryText : String → String

section

variable (params : UbiParams) (outside : UbiSurroundings)

/-- The conversion of a hybrid list. -/
def hybridConversion (scopedFeatures : Dict Pair FeatureVec) :
    Except ConvertError HybridConversion :=
  hybridConvert (params.innerConvert outside.readFloat) outside.answer outside.queryText
    scopedFeatures params.converterExtra

/-- `actual_converter.convert`: the ratings and the number of calls of the language model. -/
def convertScoped (scopedFeatures : Dict Pair FeatureVec) : Except ConvertError (Dict Pair ℕ × ℕ) :=
  match params.converter with
  | .ctrThreshold =>
    (ctrThresholdConvert outside.readFloat scopedFeatures params.converterExtra).map (·, 0)
  | .dwellTime =>
    (dwellTimeThresholdConvert outside.readFloat scopedFeatures params.converterExtra).map (·, 0)
  | .hybridUbiLlm =>
    (hybridConversion params outside scopedFeatures).map fun conversion =>
      (conversion.merged, conversion.llmFillCalls)

/-- The row of a rating. -/
def judgmentRow (pair : Pair) (feat : FeatureVec) (rating : ℕ) : JudgmentRow :=
  if params.converter = .hybridUbiLlm ∧ feat.impressionCount < params.requestThreshold then
    ⟨pair.1, pair.2, rating, .llm, "openai:" ++ params.openaiModel⟩
  else ⟨pair.1, pair.2, rating, .click, "ubi:" ++ params.converter.wire⟩

/-- The rows of the ratings. -/
def judgmentRows (scopedFeatures : Dict Pair FeatureVec) (ratings : Dict Pair ℕ) :
    List JudgmentRow :=
  ratings.entries.filterMap fun entry =>
    (scopedFeatures.get? entry.1).map fun feat => judgmentRow params entry.1 feat entry.2

/-- `len({qid for qid, _ in scoped_features} - {qid for qid, _ in ratings})`. -/
def sparseSkipCount (scopedFeatures : Dict Pair FeatureVec) (ratings : Dict Pair ℕ) : ℕ :=
  ((Python.fromKeys (scopedFeatures.keys.map Prod.fst)).filter fun queryId =>
    queryId ∉ ratings.keys.map Prod.fst).length

/-- `_write_calibration_and_complete`, with the rows that were written before. -/
def completeList (rows : List JudgmentRow) (coveragePct : ℚ) (headPairs tailPairs llmFillCalls
    ambiguousSkipCount sparseSkipCount : ℕ) : ListOutcome :=
  .complete rows ⟨coveragePct, headPairs, tailPairs, ambiguousSkipCount, sparseSkipCount,
    if 0 < llmFillCalls then some llmFillCalls else none⟩

/-- The worker from the scoped features on. -/
def rateScoped (scopedFeatures : Dict Pair FeatureVec) (ambiguousSkipCount : ℕ) : ListOutcome :=
  match convertScoped params outside scopedFeatures with
  | .error e => .failed e.failedReason
  | .ok (ratings, llmFillCalls) =>
    let rows := judgmentRows params scopedFeatures ratings
    let headPairs := (scopedFeatures.entries.filter fun e =>
      params.requestThreshold ≤ e.2.impressionCount).length
    completeList rows (rows.length / max scopedFeatures.entries.length 1) headPairs
      (scopedFeatures.entries.length - headPairs) llmFillCalls ambiguousSkipCount
      (sparseSkipCount scopedFeatures ratings)

/-- `generate_judgments_from_ubi`, for a list that is being generated. -/
def generateUbiJudgments (run : Generation) : ListOutcome :=
  match run.generateJudgmentsFromUbi with
  | .insufficientData => .failed "UBI_INSUFFICIENT_DATA"
  | .raised _ => .failed "UNEXPECTED:AttributeError"
  | .noScopedFeatures ambiguousSkipCount => completeList [] 0 0 0 0 ambiguousSkipCount 0
  | .rates scopedFeatures ambiguousSkipCount =>
    rateScoped params outside scopedFeatures ambiguousSkipCount

end

/-! ## Provenance -/

namespace HybridConversion

variable (conversion : HybridConversion)

/-- The rating of a pair is the inner converter's. -/
def FromInner (pair : Pair) (rating : ℕ) : Prop :=
  conversion.headRatings.get? pair = some rating

/-- The rating of a pair is the callback's: the head has none that wins over it. -/
def FromLlm (pair : Pair) (rating : ℕ) : Prop :=
  conversion.headRatings.get? pair = none ∧ conversion.tailRatings.get? pair = some rating

end HybridConversion

/-- The rows and the tally say where the ratings of a conversion come from. -/
structure TellsProvenance (conversion : HybridConversion) (rows : List JudgmentRow)
    (calibration : Calibration) : Prop where
  llm : ∀ row ∈ rows, row.source = .llm ↔ conversion.FromLlm row.pair row.rating
  click : ∀ row ∈ rows, row.source = .click ↔ conversion.FromInner row.pair row.rating
  headPairs : calibration.headPairs = conversion.headPairs.entries.length
  tailPairs : calibration.tailPairs = conversion.tailPairs.entries.length

/-- The threshold of the converter's own configuration, else that of the request. -/
def converterThreshold (params : UbiParams) : Except ConvertError ℤ :=
  match params.converterConfig.get? "llm_fill_threshold" with
  | none => .ok params.requestThreshold
  | some raw => intOf raw

/-- No number of impressions lies between the two thresholds. -/
def SameSide (params : UbiParams) (scopedFeatures : Dict Pair FeatureVec) : Prop :=
  ∀ threshold, converterThreshold params = .ok threshold → ∀ e ∈ scopedFeatures.entries,
    params.requestThreshold ≤ e.2.impressionCount ↔ threshold ≤ (e.2.impressionCount : ℤ)

section

variable {params : UbiParams} {outside : UbiSurroundings} {scopedFeatures : Dict Pair FeatureVec}
  {conversion : HybridConversion} {rows : List JudgmentRow} {calibration : Calibration}
  {row : JudgmentRow} {threshold : ℤ}

theorem fillThreshold_converterExtra (h : fillThreshold params.converterExtra = .ok threshold) :
    converterThreshold params = .ok threshold := by
  have hget : params.converterExtra.get? "llm_fill_threshold" =
      (params.converterConfig.get? "llm_fill_threshold").or
        (some (.int params.requestThreshold)) := by
    rw [UbiParams.converterExtra, Dict.get?_update]
    rfl
  rw [fillThreshold, hget] at h
  rw [converterThreshold]
  cases hown : params.converterConfig.get? "llm_fill_threshold" with
  | none =>
    rw [hown, Option.none_or] at h
    simp only [intOf, bind, Except.bind] at h
    split at h
    · cases h
    · exact h
  | some raw =>
    rw [hown, Option.some_or] at h
    dsimp only at h ⊢
    cases hint : intOf raw with
    | error e =>
      rw [hint] at h
      cases h
    | ok own =>
      simp only [hint, bind, Except.bind] at h
      split at h
      · cases h
      · exact h

theorem keys_innerConvert {readFloat : String → Option FloatValue} {config : Extra}
    {ratings : Dict Pair ℕ}
    (h : params.innerConvert readFloat scopedFeatures config = .ok ratings) :
    ratings.keys ⊆ scopedFeatures.keys := by
  have hinner : params.innerConvert readFloat = dwellTimeThresholdConvert readFloat ∨
      params.innerConvert readFloat = ctrThresholdConvert readFloat := by
    rw [UbiParams.innerConvert]
    split
    · exact .inl rfl
    · exact .inr rfl
  rcases hinner with hdwell | hctr
  · rw [hdwell] at h
    exact keys_rateSignals h
  · rw [hctr] at h
    exact keys_rateSignals h

/-- A key of a part of the features has a vector that belongs to the part. -/
theorem keeps_of_mem_filterValues {keeps : FeatureVec → Bool} {pair : Pair} {feat : FeatureVec}
    (hpair : pair ∈ (scopedFeatures.filterValues keeps).keys)
    (hfeat : scopedFeatures.get? pair = some feat) : keeps feat = true := by
  obtain ⟨e, he, rfl⟩ := List.mem_map.mp hpair
  obtain ⟨hmem, hkeeps⟩ := Dict.mem_filterValues.mp he
  have hget := (Dict.get?_eq_some_iff scopedFeatures e.1 e.2).mpr hmem
  obtain rfl := Option.some.inj (hget.symm.trans hfeat)
  exact hkeeps

/-- Ratings come from the inner converter at or above its threshold and from the callback
below. -/
theorem fromInner_iff (h : hybridConversion params outside scopedFeatures = .ok conversion)
    (hthreshold : fillThreshold params.converterExtra = .ok threshold) {pair : Pair} {rating : ℕ}
    {feat : FeatureVec} (hrating : conversion.merged.get? pair = some rating)
    (hfeat : scopedFeatures.get? pair = some feat) :
    (conversion.FromInner pair rating ↔ threshold ≤ (feat.impressionCount : ℤ)) ∧
      (conversion.FromLlm pair rating ↔ ¬ threshold ≤ (feat.impressionCount : ℤ)) := by
  obtain ⟨_, hsplit, hhead, htail, hinner, hllm⟩ := hybridConvert_ok h
  obtain rfl := Except.ok.inj (hthreshold.symm.trans hsplit)
  rw [HybridConversion.merged, Dict.get?_update] at hrating
  cases hget : conversion.headRatings.get? pair with
  | none =>
    rw [hget, Option.none_or] at hrating
    have hmem := hllm (Dict.mem_keys_of_get? hrating)
    rw [htail] at hmem
    have hbelow : ¬ threshold ≤ (feat.impressionCount : ℤ) := by
      simpa [inHead] using keeps_of_mem_filterValues hmem hfeat
    simp [HybridConversion.FromInner, HybridConversion.FromLlm, hget, hrating, hbelow]
  | some own =>
    rw [hget, Option.some_or] at hrating
    obtain rfl := Option.some.inj hrating
    have hmem := keys_innerConvert hinner (Dict.mem_keys_of_get? hget)
    rw [hhead] at hmem
    have habove : threshold ≤ (feat.impressionCount : ℤ) := by
      simpa [inHead] using keeps_of_mem_filterValues hmem hfeat
    simp [HybridConversion.FromInner, HybridConversion.FromLlm, hget, habove]

/-- What a row is made of. -/
theorem mem_judgmentRows {ratings : Dict Pair ℕ}
    (h : row ∈ judgmentRows params scopedFeatures ratings) :
    ∃ feat, ratings.get? row.pair = some row.rating ∧ scopedFeatures.get? row.pair = some feat ∧
      row = judgmentRow params row.pair feat row.rating := by
  obtain ⟨entry, hentry, hrow⟩ := List.mem_filterMap.mp h
  obtain ⟨feat, hfeat, rfl⟩ := Option.map_eq_some_iff.mp hrow
  have hpair : (judgmentRow params entry.1 feat entry.2).pair = entry.1 := by
    rw [judgmentRow]
    split <;> rfl
  have hrating : (judgmentRow params entry.1 feat entry.2).rating = entry.2 := by
    rw [judgmentRow]
    split <;> rfl
  rw [hpair, hrating]
  exact ⟨feat, (Dict.get?_eq_some_iff ratings entry.1 entry.2).mpr hentry, hfeat, rfl⟩

/-- The source of a row of a hybrid list is the side of its pair at the request's threshold. -/
theorem source_judgmentRow (hkind : params.converter = .hybridUbiLlm) (pair : Pair)
    (feat : FeatureVec) (rating : ℕ) :
    ((judgmentRow params pair feat rating).source = .llm ↔
        ¬ params.requestThreshold ≤ feat.impressionCount) ∧
      ((judgmentRow params pair feat rating).source = .click ↔
        params.requestThreshold ≤ feat.impressionCount) := by
  rw [judgmentRow]
  by_cases hlt : feat.impressionCount < params.requestThreshold
  · rw [if_pos ⟨hkind, hlt⟩]
    simp [hlt]
  · rw [if_neg fun hboth => hlt hboth.2]
    simp [not_lt.mp hlt]

/-- Two nested selections that are equally long are the same. -/
theorem iff_of_length_filter_eq {α : Type} {p q : α → Bool} {entries : List α}
    (hnested : (∀ e, p e = true → q e = true) ∨ ∀ e, q e = true → p e = true)
    (hlength : (entries.filter p).length = (entries.filter q).length) {e : α}
    (he : e ∈ entries) : p e = true ↔ q e = true := by
  have hsame : entries.filter p = entries.filter q := by
    rcases hnested with hpq | hqp
    · exact (List.monotone_filter_right entries hpq).eq_of_length hlength
    · exact ((List.monotone_filter_right entries hqp).eq_of_length hlength.symm).symm
  have hmem : e ∈ entries.filter p ↔ e ∈ entries.filter q := by rw [hsame]
  simpa [List.mem_filter, he] using hmem

/-- The tally is that of the converter when no pair changes sides. -/
theorem sameSide_iff_length :
    (scopedFeatures.entries.filter fun e =>
        decide (params.requestThreshold ≤ e.2.impressionCount)).length =
      (scopedFeatures.filterValues (inHead threshold)).entries.length ↔
    ∀ e ∈ scopedFeatures.entries,
      params.requestThreshold ≤ e.2.impressionCount ↔ threshold ≤ (e.2.impressionCount : ℤ) := by
  constructor
  · intro hlength e he
    have hnested : (∀ e : Pair × FeatureVec,
        decide (params.requestThreshold ≤ e.2.impressionCount) = true →
          inHead threshold e.2 = true) ∨ ∀ e : Pair × FeatureVec, inHead threshold e.2 = true →
        decide (params.requestThreshold ≤ e.2.impressionCount) = true := by
      simp only [inHead, decide_eq_true_eq]
      rcases le_total threshold (params.requestThreshold : ℤ) with hle | hle
      · exact .inl fun e he => by omega
      · exact .inr fun e he => by omega
    have hiff := iff_of_length_filter_eq hnested hlength he
    simpa [inHead] using hiff
  · intro hsame
    refine congrArg List.length (List.filter_congr fun e he => ?_)
    simp [inHead, hsame e he]

theorem length_filterValues_add (scopedFeatures : Dict Pair FeatureVec)
    (keeps : FeatureVec → Bool) :
    (scopedFeatures.filterValues keeps).entries.length +
      (scopedFeatures.filterValues fun fvec => !keeps fvec).entries.length =
        scopedFeatures.entries.length :=
  (List.length_eq_length_filter_add fun e : Pair × FeatureVec => keeps e.2).symm

/-- The rows and the tally of a conversion tell where its ratings come from when no pair changes
sides, and only then. -/
theorem tellsProvenance_iff (hkind : params.converter = .hybridUbiLlm)
    (hconversion : hybridConversion params outside scopedFeatures = .ok conversion)
    (hhead : calibration.headPairs = (scopedFeatures.entries.filter fun e =>
      decide (params.requestThreshold ≤ e.2.impressionCount)).length)
    (htail : calibration.tailPairs = scopedFeatures.entries.length - calibration.headPairs) :
    TellsProvenance conversion (judgmentRows params scopedFeatures conversion.merged) calibration ↔
      SameSide params scopedFeatures := by
  obtain ⟨threshold, hthreshold, hheadPairs, htailPairs, -⟩ := hybridConvert_ok hconversion
  have hown := fillThreshold_converterExtra hthreshold
  have hside : SameSide params scopedFeatures ↔ ∀ e ∈ scopedFeatures.entries,
      params.requestThreshold ≤ e.2.impressionCount ↔ threshold ≤ (e.2.impressionCount : ℤ) := by
    rw [SameSide, hown]
    exact ⟨fun hall => hall threshold rfl, fun hall other heq => Except.ok.inj heq ▸ hall⟩
  rw [hside]
  constructor
  · intro htells
    have hcount := htells.headPairs
    rw [hhead, hheadPairs] at hcount
    exact sameSide_iff_length.mp hcount
  · intro hsame
    have hcount := sameSide_iff_length.mpr hsame
    have hsources : ∀ row ∈ judgmentRows params scopedFeatures conversion.merged,
        (row.source = .llm ↔ conversion.FromLlm row.pair row.rating) ∧
          (row.source = .click ↔ conversion.FromInner row.pair row.rating) := by
      intro row hrow
      obtain ⟨feat, hrating, hfeat, hmade⟩ := mem_judgmentRows hrow
      obtain ⟨hinner, hllm⟩ := fromInner_iff hconversion hthreshold hrating hfeat
      have hsameFeat := hsame _ ((Dict.get?_eq_some_iff scopedFeatures _ feat).mp hfeat)
      obtain ⟨hsourceLlm, hsourceClick⟩ := source_judgmentRow hkind row.pair feat row.rating
      rw [← hmade] at hsourceLlm hsourceClick
      rw [hsourceLlm, hsourceClick, hinner, hllm, hsameFeat]
      exact ⟨Iff.rfl, Iff.rfl⟩
    constructor
    case llm => exact fun row hrow => (hsources row hrow).1
    case click => exact fun row hrow => (hsources row hrow).2
    case headPairs => rw [hhead, hheadPairs, hcount]
    case tailPairs =>
      have hsum := length_filterValues_add scopedFeatures (inHead threshold)
      rw [htail, hhead, htailPairs]
      omega

/-- What the end of a hybrid list consists of. -/
theorem rateScoped_complete {ambiguousSkipCount : ℕ} (hkind : params.converter = .hybridUbiLlm)
    (h : rateScoped params outside scopedFeatures ambiguousSkipCount =
      .complete rows calibration) :
    ∃ conversion, hybridConversion params outside scopedFeatures = .ok conversion ∧
      rows = judgmentRows params scopedFeatures conversion.merged ∧
      (TellsProvenance conversion rows calibration ↔ SameSide params scopedFeatures) := by
  rw [rateScoped, convertScoped, hkind] at h
  dsimp only at h
  cases hconversion : hybridConversion params outside scopedFeatures with
  | error e =>
    rw [hconversion] at h
    cases h
  | ok conversion =>
    rw [hconversion] at h
    obtain ⟨rfl, rfl⟩ := ListOutcome.complete.inj h
    exact ⟨conversion, rfl, rfl, tellsProvenance_iff hkind hconversion rfl rfl⟩

/-- Without a threshold in the configuration of the converter there is one threshold only. -/
theorem sameSide_of_no_own (h : params.converterConfig.get? "llm_fill_threshold" = none) :
    SameSide params scopedFeatures := by
  intro threshold hthreshold e _
  rw [converterThreshold, h] at hthreshold
  obtain rfl := Except.ok.inj hthreshold
  exact Nat.cast_le.symm

/-- A run whose converter has no threshold of its own tells where its ratings come from. -/
theorem generate_tellsProvenance {run : Generation} (hkind : params.converter = .hybridUbiLlm)
    (hown : params.converterConfig.get? "llm_fill_threshold" = none)
    (h : generateUbiJudgments params outside run = .complete rows calibration) (hne : rows ≠ []) :
    ∃ scopedFeatures conversion,
      hybridConversion params outside scopedFeatures = .ok conversion ∧
        TellsProvenance conversion rows calibration := by
  rw [generateUbiJudgments] at h
  split at h
  · cases h
  · cases h
  · obtain ⟨rfl, -⟩ := ListOutcome.complete.inj h
    exact absurd rfl hne
  · obtain ⟨conversion, hconversion, -, htells⟩ := rateScoped_complete hkind h
    exact ⟨_, conversion, hconversion, htells.mpr (sameSide_of_no_own hown)⟩

end

/-- The rows and the tally of a hybrid list tell where its ratings come from exactly when no
pair has a number of impressions between the threshold of the request and that of the
converter. -/
theorem hybrid_tells_provenance_iff {params : UbiParams} {outside : UbiSurroundings}
    {scopedFeatures : Dict Pair FeatureVec} {ambiguousSkipCount : ℕ} {rows : List JudgmentRow}
    {calibration : Calibration} (hkind : params.converter = .hybridUbiLlm)
    (h : rateScoped params outside scopedFeatures ambiguousSkipCount =
      .complete rows calibration) :
    ∃ conversion, hybridConversion params outside scopedFeatures = .ok conversion ∧
      (TellsProvenance conversion rows calibration ↔ SameSide params scopedFeatures) := by
  obtain ⟨conversion, hconversion, -, htells⟩ := rateScoped_complete hkind h
  exact ⟨conversion, hconversion, htells⟩

/-! ## Two thresholds -/

/-- A document with thirty impressions and one with ten. -/
def thirtyAndTen : Dict Pair FeatureVec :=
  Dict.ofList
    [(("q", "often"), ⟨9, 30, 3 / 10, none, none, none⟩),
      (("q", "seldom"), ⟨1, 10, 1 / 10, none, none, none⟩)]

/-- A model that rates the first document of each batch. -/
def ratesFirst : UbiSurroundings :=
  ⟨fun _ => none, fun _ _ => .rates [("item-0", 2)], fun _ => "red shoes"⟩

/-- A hybrid request that leaves the threshold at its default. -/
def hybridRequest (converterConfig : Extra) : UbiParams :=
  ⟨.hybridUbiLlm, converterConfig, none, "gpt"⟩

/-- The rows with one threshold. -/
def splitAtTwenty : List JudgmentRow :=
  [⟨"q", "seldom", 2, .llm, "openai:gpt"⟩, ⟨"q", "often", 3, .click, "ubi:hybrid_ubi_llm"⟩]

theorem hybrid_tells_provenance_default :
    ∃ conversion, hybridConversion (hybridRequest Dict.empty) ratesFirst thirtyAndTen =
        .ok conversion ∧
      (TellsProvenance conversion splitAtTwenty ⟨1, 1, 1, 0, 0, some 1⟩ ↔
        SameSide (hybridRequest Dict.empty) thirtyAndTen) := by
  have hcomplete : rateScoped (hybridRequest Dict.empty) ratesFirst thirtyAndTen 0 =
      .complete splitAtTwenty ⟨1, 1, 1, 0, 0, some 1⟩ := by
    decide +kernel
  exact hybrid_tells_provenance_iff rfl hcomplete

/-- A request whose converter has a threshold of its own. -/
def ownThresholdRequest : UbiParams :=
  hybridRequest (Dict.ofList [("llm_fill_threshold", .int 5)])

/-- The inner converter rates both documents, while the row of the second one and the tally still
split at twenty. -/
theorem own_threshold_hides_provenance :
    ∃ rows calibration conversion,
      rateScoped ownThresholdRequest ratesFirst thirtyAndTen 0 = .complete rows calibration ∧
        hybridConversion ownThresholdRequest ratesFirst thirtyAndTen = .ok conversion ∧
        ¬ TellsProvenance conversion rows calibration := by
  have hcomplete : rateScoped ownThresholdRequest ratesFirst thirtyAndTen 0 =
      .complete [⟨"q", "often", 3, .click, "ubi:hybrid_ubi_llm"⟩,
        ⟨"q", "seldom", 1, .llm, "openai:gpt"⟩] ⟨1, 1, 1, 0, 0, none⟩ := by
    decide +kernel
  have hseldom : (hybridConversion ownThresholdRequest ratesFirst thirtyAndTen).toOption.map
      (fun conversion => conversion.headRatings.get? ("q", "seldom")) = some (some 1) := by
    decide +kernel
  obtain ⟨conversion, hconversion, -, -⟩ := rateScoped_complete rfl hcomplete
  rw [hconversion] at hseldom
  refine ⟨_, _, conversion, hcomplete, hconversion, fun htells => ?_⟩
  have hllm := (htells.llm ⟨"q", "seldom", 1, .llm, "openai:gpt"⟩ (by simp)).mp rfl
  have hinner : conversion.headRatings.get? ("q", "seldom") = some 1 := Option.some.inj hseldom
  exact absurd (hinner.symm.trans hllm.1) (by simp)

end RelyLoop.Ubi
