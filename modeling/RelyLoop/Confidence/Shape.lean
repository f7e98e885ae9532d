import RelyLoop.Eval.Metrics
import RelyLoop.Followups.Worker
import RelyLoop.Python.Dict
import RelyLoop.Ranking.Mirrored
import RelyLoop.Studies.Records
import Mathlib.Data.Rat.Floor

/-!
# The confidence shape of a study

`fetch_study_confidence` reads the winner, the baseline, the runner-up and the metrics of the
complete trials, and `compute_study_confidence` assembles the shape from them.
-/

/-!
## Signals of confidence

The pure helpers of the confidence panel: the gap to the runner-up, the spread of the late trials,
where the winner stands among the trials, and the outcomes of the queries against another trial.
None of them takes the direction of the study.
-/

namespace RelyLoop.Confidence

open Python Ranking Studies

/-! ## The gap to the runner-up -/

/-- `RUNNER_UP_PLATEAU_BAND`. -/
def runnerUpPlateauBand : ℚ := 5 / 1000

/-- `RunnerUpClassification`. -/
inductive RunnerUpClassification where
  | robustPlateau
  | sharpPeak
  deriving DecidableEq, Repr

/-- `RunnerUpGapShape`. -/
structure RunnerUpGapShape where
  value : ℚ
  classification : RunnerUpClassification
  top10Within : ℚ
  runnerUpMetric : ℚ
  deriving DecidableEq, Repr

/-- `classify_runner_up_gap`; fewer than `RUNNER_UP_GAP_MIN_COMPLETE` metrics have no runner-up. -/
def classifyRunnerUpGap : List ℚ → Option RunnerUpGapShape
  | winner :: runnerUp :: rest =>
    let sortedPrimaryMetrics := winner :: runnerUp :: rest
    let topN := min 10 sortedPrimaryMetrics.length
    let topBand := sortedPrimaryMetrics.take topN
    let top10Within := ((topBand.map fun m => winner - m).max?).getD 0
    some
      { value := winner - runnerUp
        classification :=
          if top10Within ≤ runnerUpPlateauBand then .robustPlateau else .sharpPeak
        top10Within := top10Within
        runnerUpMetric := runnerUp }
  | _ => none

/-! ## The spread of the late trials -/

/-- `LATE_TRIAL_WINDOW_FRAC`. -/
def lateTrialWindowFrac : ℚ := 2 / 10

/-- `LATE_TRIAL_WINDOW_MIN`. -/
def lateTrialWindowMin : ℕ := 5

/-- `LATE_TRIAL_MIN_COMPLETE`. -/
def lateTrialMinComplete : ℕ := 10

/-- `LateTrialStddevShape`. -/
structure LateTrialStddevShape where
  value : ℚ
  windowSize : ℕ
  minWindowRequired : ℕ
  deriving DecidableEq, Repr

/-- What numpy computes, and the order in which a set of ids is iterated. -/
structure Runtime where
  sqrt : ℚ → ℚ
  resampledMeans : List ℚ → List ℚ
  percentile : List ℚ → ℚ → ℚ
  setOrder : List String → List String

/-- `compute_late_trial_stddev`. -/
def computeLateTrialStddev (R : Runtime) (primaryMetricsInTrialOrder : List ℚ) :
    Option LateTrialStddevShape :=
  let n := primaryMetricsInTrialOrder.length
  if n < lateTrialMinComplete then none
  else
    let windowSize := max lateTrialWindowMin ⌊n * lateTrialWindowFrac⌋₊
    let tail := primaryMetricsInTrialOrder.drop (n - windowSize)
    some ⟨R.sqrt (sampleVariance tail), windowSize, lateTrialMinComplete⟩

/-! ## Where the winner stands -/

/-- `LATE_RISING_TRIAL_NUMBER_FRAC`. -/
def lateRisingTrialNumberFrac : ℚ := 9 / 10

/-- `EARLY_HELD_TRIAL_NUMBER_FRAC`. -/
def earlyHeldTrialNumberFrac : ℚ := 5 / 10

/-- `EARLY_HELD_LATE_WINDOW_FRAC`. -/
def earlyHeldLateWindowFrac : ℚ := 25 / 100

/-- `CONVERGENCE_MIN_COMPLETE`. -/
def convergenceMinComplete : ℕ := 3

/-- `ConvergenceRegime`. -/
inductive ConvergenceRegime where
  | earlyHeld
  | lateRising
  | noisy
  deriving DecidableEq, Repr

/-- `ConvergenceShape`. -/
structure ConvergenceShape where
  bestAtTrial : ℤ
  totalTrials : ℤ
  regime : ConvergenceRegime
  deriving DecidableEq, Repr

/-- The regime of a winner with a number and a metric. -/
def convergenceRegime (winnerTrialNumber : ℤ) (winnerMetric : ℚ) (maxTrialNumber : ℤ)
    (primaryMetricsByTrialNumber : Dict ℤ ℚ) : ConvergenceRegime :=
  if lateRisingTrialNumberFrac * maxTrialNumber ≤ winnerTrialNumber then .lateRising
  else if (winnerTrialNumber : ℚ) ≤ earlyHeldTrialNumberFrac * maxTrialNumber then
    let lateWindowStart := maxTrialNumber * (1 - earlyHeldLateWindowFrac)
    let lateWindowTrials :=
      (primaryMetricsByTrialNumber.entries.filter fun e => lateWindowStart ≤ e.1).map Prod.snd
    if lateWindowTrials.any fun m => winnerMetric - m ≤ runnerUpPlateauBand then .earlyHeld
    else .noisy
  else .noisy

/-- `classify_convergence_regime`. -/
def classifyConvergenceRegime (winnerTrialNumber : ℤ) (primaryMetricsByTrialNumber : Dict ℤ ℚ) :
    Option ConvergenceShape :=
  if primaryMetricsByTrialNumber.entries.length < convergenceMinComplete then none
  else do
    let winnerMetric ← primaryMetricsByTrialNumber.get? winnerTrialNumber
    let maxTrialNumber ← primaryMetricsByTrialNumber.keys.max?
    some
      { bestAtTrial := winnerTrialNumber
        totalTrials := maxTrialNumber + 1
        regime := convergenceRegime winnerTrialNumber winnerMetric maxTrialNumber
          primaryMetricsByTrialNumber }

/-! ## The interval of the winner -/

/-- `BOOTSTRAP_CI_LEVEL`. -/
def bootstrapCiLevel : ℚ := 95 / 100

/-- `BOOTSTRAP_MIN_N_QUERIES`. -/
def bootstrapMinNQueries : ℕ := 5

/-- `CIShape`; the method is always `bootstrap_n1000`. -/
structure CIShape where
  low : ℚ
  high : ℚ
  nSamples : ℕ
  deriving DecidableEq, Repr

/-- `bootstrap_ci_95`. -/
def bootstrapCi95 (R : Runtime) (perQueryValues : List ℚ) : Option CIShape :=
  if perQueryValues.length < bootstrapMinNQueries then none
  else
    let means := R.resampledMeans perQueryValues
    let alpha := (1 - bootstrapCiLevel) / 2
    some
      { low := R.percentile means (100 * alpha)
        high := R.percentile means (100 * (1 - alpha))
        nSamples := perQueryValues.length }

/-! ## Outcomes of the queries -/

/-- `TOP_REGRESSORS_CAP`. -/
def topRegressorsCap : ℕ := 5

/-- `REGRESSOR_THRESHOLDS`. -/
def regressorThreshold : Metric → ℚ
  | .ndcg | .precision | .recall => 1 / 100
  | .map | .mrr => 2 / 100

/-- How a query fares. -/
inductive Outcome where
  | improved
  | unchanged
  | regressed
  deriving DecidableEq, Repr

/-- The bucket of a difference. -/
def outcomeOf (threshold delta : ℚ) : Outcome :=
  if threshold < delta then .improved else if delta < -threshold then .regressed else .unchanged

/-- A candidate: the query, both scores, and their difference. -/
structure OutcomeRow where
  queryId : String
  winnerScore : ℚ
  comparisonScore : ℚ
  delta : ℚ
  deriving DecidableEq, Repr

/-- `_OutcomeSummary`. -/
structure OutcomeSummary where
  improved : ℕ
  unchanged : ℕ
  regressed : ℕ
  regressorCandidates : List OutcomeRow
  improverCandidates : List OutcomeRow
  deriving DecidableEq, Repr

/-- The metrics of a trial for each query. -/
abbrev PerQuery := Dict String (Dict String ℚ)

/-- The row of a query that has the metric on both sides. -/
def outcomeRow (winnerPerQuery comparisonPerQuery : PerQuery) (metric queryId : String) :
    Option OutcomeRow := do
  let winnerScore ← (← winnerPerQuery.get? queryId).get? metric
  let comparisonScore ← (← comparisonPerQuery.get? queryId).get? metric
  return ⟨queryId, winnerScore, comparisonScore, winnerScore - comparisonScore⟩

/-- `compute_outcome_summary`. -/
def computeOutcomeSummary (R : Runtime) (winnerPerQuery comparisonPerQuery : PerQuery)
    (metric : String) : Option OutcomeSummary :=
  if winnerPerQuery.entries.isEmpty || comparisonPerQuery.entries.isEmpty then none
  else do
    let threshold ←
      (Eval.findMetric (metric.toList.takeWhile (· ≠ '@'))).map regressorThreshold
    let shared := winnerPerQuery.keys.filter (· ∈ comparisonPerQuery.keys)
    let rows := (R.setOrder shared).filterMap
      (outcomeRow winnerPerQuery comparisonPerQuery metric)
    let bucket := fun outcome => rows.filter fun row => outcomeOf threshold row.delta = outcome
    some
      { improved := (bucket .improved).length
        unchanged := (bucket .unchanged).length
        regressed := (bucket .regressed).length
        regressorCandidates :=
          ((bucket .regressed).insertionSort fun x y => x.delta ≤ y.delta).take topRegressorsCap
        improverCandidates :=
          ((bucket .improved).insertionSort fun x y => -x.delta ≤ -y.delta).take
            topRegressorsCap }

/-- `RegressorRowShape`. -/
structure RegressorRowShape where
  queryId : String
  queryText : String
  winnerScore : ℚ
  comparisonScore : ℚ
  delta : ℚ
  deriving DecidableEq, Repr

/-- `build_regressor_rows`. -/
def buildRegressorRows (candidates : List OutcomeRow) (queryTextById : Dict String String) :
    List RegressorRowShape :=
  candidates.filterMap fun row => (queryTextById.get? row.queryId).map fun text =>
    ⟨row.queryId, text, row.winnerScore, row.comparisonScore, row.delta⟩

end RelyLoop.Confidence

/-! ## The shape -/

namespace RelyLoop.Confidence

open Python Ranking Studies Followups

/-! ## Assembling the shape -/

/-- `HeadlineShape`. -/
structure HeadlineShape where
  metric : String
  value : ℚ
  k : Option ℤ
  nQueries : Option ℕ
  deriving DecidableEq, Repr

/-- `ComparisonAgainst`. -/
inductive ComparisonAgainst where
  | runnerUp
  | baseline
  deriving DecidableEq, Repr

/-- `PerQueryOutcomesShape`. -/
structure PerQueryOutcomesShape where
  improved : ℕ
  unchanged : ℕ
  regressed : ℕ
  comparisonAgainst : ComparisonAgainst
  topRegressors : List RegressorRowShape
  topImprovers : List RegressorRowShape
  deriving DecidableEq, Repr

/-- `ConfidenceShape`. -/
structure ConfidenceShape where
  headline : HeadlineShape
  ci95 : Option CIShape
  runnerUpGap : Option RunnerUpGapShape
  lateTrialStddev : Option LateTrialStddevShape
  convergence : Option ConvergenceShape
  perQueryOutcomes : Option PerQueryOutcomesShape
  deriving DecidableEq, Repr

/-- `trial.per_query_metrics or {}`. -/
def perQueryOf (trial : Trial) : PerQuery :=
  Dict.ofList ((trial.perQueryMetrics.getD []).map fun e => (e.1, Dict.ofList e.2))

/-- The trial that the queries of the winner are compared with: the baseline if it has metrics for
queries, else the runner-up if it has. -/
def comparisonTrial (baselineTrial runnerUpTrial : Option Trial) :
    Option (Trial × ComparisonAgainst) :=
  let hasPerQuery := fun trial => !(perQueryOf trial).entries.isEmpty
  ((baselineTrial.filter hasPerQuery).map fun trial => (trial, .baseline)).or
    ((runnerUpTrial.filter hasPerQuery).map fun trial => (trial, .runnerUp))

/-- The outcomes of the queries of the winner against a trial, with the texts of the queries. -/
def perQueryOutcomes (R : Runtime) (winnerPerQuery : PerQuery)
    (comparison : Trial × ComparisonAgainst) (perQueryKey : String)
    (queryTextById : Dict String String) : Option PerQueryOutcomesShape :=
  (computeOutcomeSummary R winnerPerQuery (perQueryOf comparison.1) perQueryKey).map fun outcome =>
    { improved := outcome.improved
      unchanged := outcome.unchanged
      regressed := outcome.regressed
      comparisonAgainst := comparison.2
      topRegressors := buildRegressorRows outcome.regressorCandidates queryTextById
      topImprovers := buildRegressorRows outcome.improverCandidates queryTextById }

/-- `compute_study_confidence`, with a winner. -/
def computeStudyConfidence (R : Runtime) (studyObjective : Objective)
    (studyBestMetric : Option ℚ) (winnerTrial : Trial) (runnerUpTrial : Option Trial)
    (completeTrialsSummary : List (ℚ × ℤ)) (queryTextById : Dict String String)
    (baselineTrial : Option Trial) : Option ConfidenceShape :=
  if completeTrialsSummary = [] then none
  else
    match Eval.objectiveMetricKey studyObjective with
    | .error _ => none
    | .ok perQueryKey =>
      let winnerPerQuery := perQueryOf winnerTrial
      let winnerValuesForMetric :=
        winnerPerQuery.entries.filterMap fun e => e.2.get? perQueryKey
      let primaryInTrialOrder := completeTrialsSummary.map Prod.fst
      let primaryByTrialNumber := Dict.ofList (completeTrialsSummary.map Prod.swap)
      some
        { headline :=
            { metric := Eval.metricName studyObjective.metric
              value := studyBestMetric.getD (winnerTrial.primaryMetric.getD 0)
              k := studyObjective.k.map Eval.cutoffValue
              nQueries :=
                if winnerPerQuery.entries.isEmpty then none
                else some winnerValuesForMetric.length }
          ci95 := bootstrapCi95 R winnerValuesForMetric
          runnerUpGap := classifyRunnerUpGap (primaryInTrialOrder.insertionSort (· ≥ ·))
          lateTrialStddev := computeLateTrialStddev R primaryInTrialOrder
          convergence :=
            classifyConvergenceRegime winnerTrial.optunaTrialNumber primaryByTrialNumber
          perQueryOutcomes := (comparisonTrial baselineTrial runnerUpTrial).bind fun comparison =>
            perQueryOutcomes R winnerPerQuery comparison perQueryKey queryTextById }

/-! ## The reads -/

/-- The rows that the reads are made on: the trials as a scan returns them, with different ids,
and the texts of the queries. -/
structure Database where
  trials : List Trial
  nodup : (trials.map Trial.id).Nodup
  queryText : String → Option String

variable {S : Type}

/-- `get_trial`. -/
def getTrial (db : Database) (trialId : ℕ) : Option Trial :=
  db.trials.find? fun trial => trial.id = trialId

/-- The complete trials of a study, without its baseline. -/
def completeRows (db : Database) (studyId : ℕ) : List Trial :=
  (optunaTrials db.trials studyId).filter fun trial => trial.status == .complete

/-- The winner, if the study has one. -/
def winnerTrial (db : Database) (study : StudyRow S) : Option Trial :=
  study.bestTrialId.bind (getTrial db)

/-- The query for the runner-up: `ORDER BY primary_metric DESC NULLS LAST LIMIT 1`. -/
def runnerUpTrial (db : Database) (study : StudyRow S) (winner : Trial) : Option Trial :=
  (((completeRows db study.id).filter fun trial => trial.id ≠ winner.id).insertionSort
    (ordered (· ≥ ·) Trial.primaryMetric)).head?

/-- The summary: the metrics of the complete trials and their numbers, by number. -/
def completeTrialsSummary (db : Database) (study : StudyRow S) : List (ℚ × ℤ) :=
  ((completeRows db study.id).insertionSort numberedBefore).filterMap fun trial =>
    trial.primaryMetric.map fun metric => (metric, trial.optunaTrialNumber)

/-- The texts of the candidate queries. -/
def queryTexts (R : Runtime) (db : Database) (study : StudyRow S) (winner : Trial)
    (comparison : Option (Trial × ComparisonAgainst)) : Dict String String :=
  match comparison, Eval.objectiveMetricKey study.objective with
  | some comparison, .ok perQueryKey =>
    match computeOutcomeSummary R (perQueryOf winner) (perQueryOf comparison.1) perQueryKey with
    | none => .empty
    | some outcome =>
      Dict.ofList ((outcome.regressorCandidates ++ outcome.improverCandidates).filterMap
        fun row => (db.queryText row.queryId).map fun text => (row.queryId, text))
  | _, _ => .empty

/-- `fetch_study_confidence`. -/
def fetchStudyConfidence (R : Runtime) (db : Database) (study : StudyRow S) :
    Option ConfidenceShape := do
  let winner ← winnerTrial db study
  let baselineTrial := study.baselineTrialId.bind (getTrial db)
  let runnerUp := runnerUpTrial db study winner
  let queryTextById := queryTexts R db study winner (comparisonTrial baselineTrial runnerUp)
  computeStudyConfidence R study.objective study.bestMetric winner runnerUp
    (completeTrialsSummary db study) queryTextById baselineTrial

end RelyLoop.Confidence
