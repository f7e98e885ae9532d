import Mathlib.Algebra.Order.Ring.Rat
import Mathlib.Data.List.Sort
import Mathlib.Data.Rat.Defs

/-!
# Study rows

The rows of the `studies` table and the JSON documents they hold. Ids are
natural numbers, compared as the UUIDs are; timestamps are natural numbers; a
metric is a rational number, which every finite float is.
-/

namespace RelyLoop.Studies

/-- `studies.status`. -/
inductive StudyStatus where
  | queued
  | running
  | completed
  | cancelled
  | failed
  deriving DecidableEq, Repr

/-- The text of a status in the table and in messages. -/
def StudyStatus.text : StudyStatus → String
  | queued => "queued"
  | running => "running"
  | completed => "completed"
  | cancelled => "cancelled"
  | failed => "failed"

/-- `ObjectiveDirection`. -/
inductive Direction where
  | maximize
  | minimize
  deriving DecidableEq, Repr

/-- `ObjectiveMetric`. -/
inductive Metric where
  | ndcg
  | map
  | precision
  | recall
  | mrr
  deriving DecidableEq, Repr

/-- `ObjectiveK`: the admitted cutoff ranks. -/
inductive Cutoff where
  | k1
  | k3
  | k5
  | k10
  | k20
  | k50
  | k100
  deriving DecidableEq, Repr

/-- `SamplerKind`. -/
inductive SamplerKind where
  | tpe
  | random
  deriving DecidableEq, Repr

/-- `PrunerKind`. -/
inductive PrunerKind where
  | median
  | none
  deriving DecidableEq, Repr

/-- The `studies.objective` document. -/
structure Objective where
  metric : Metric
  k : Option Cutoff
  direction : Direction
  deriving DecidableEq, Repr

/-- The `studies.config` document. A key that was not set is absent; `none` is
also what reading a JSON `null` gives. -/
structure StudyConfig where
  maxTrials : Option ℤ := none
  timeBudgetMin : Option ℚ := none
  parallelism : Option ℤ := none
  trialTimeoutS : Option ℤ := none
  sampler : Option SamplerKind := none
  pruner : Option PrunerKind := none
  seed : Option ℤ := none
  secondaryMetrics : Option (List String) := none
  autoFollowupDepth : Option ℤ := none
  autoFollowupStrategy : Option String := none
  deriving DecidableEq, Repr

/-- A row of the `studies` table. -/
structure Study where
  objective : Objective
  config : StudyConfig
  status : StudyStatus
  failedReason : Option String := none
  parentStudyId : Option ℕ := none
  baselineMetric : Option ℚ := none
  baselineTrialId : Option ℕ := none
  bestMetric : Option ℚ := none
  bestTrialId : Option ℕ := none
  createdAt : ℕ := 0
  startedAt : Option ℕ := none
  completedAt : Option ℕ := none
  deriving DecidableEq, Repr

end RelyLoop.Studies

/-!
## Trial rows and their summary

The rows of the `trials` table and `aggregate_trials_summary`, the aggregation
that the completion path records. A list of rows stands for the table in the
order in which a scan returns it.
-/

namespace RelyLoop.Studies

/-- `trials.status`. -/
inductive TrialStatus where
  | complete
  | failed
  | pruned
  deriving DecidableEq, Repr

/-- A row of the `trials` table. -/
structure Trial where
  id : ℕ
  studyId : ℕ
  optunaTrialNumber : ℤ
  status : TrialStatus
  primaryMetric : Option ℚ := none
  metrics : List (String × ℚ) := []
  perQueryMetrics : Option (List (String × List (String × ℚ))) := none
  error : Option String := none
  isBaseline : Bool := false
  deriving DecidableEq, Repr

/-- `TrialsSummary`. -/
structure TrialsSummary where
  total : ℕ
  complete : ℕ
  failed : ℕ
  pruned : ℕ
  bestPrimaryMetric : Option ℚ
  bestTrialId : Option ℕ
  deriving DecidableEq, Repr

/-- The rows that `aggregate_trials_summary` reads: those of the study, without
its baseline. -/
def optunaTrials (trials : List Trial) (studyId : ℕ) : List Trial :=
  trials.filter fun trial => trial.studyId == studyId && !trial.isBaseline

/-- `COUNT(id) FILTER (WHERE status = …)`. -/
def countStatus (rows : List Trial) (status : TrialStatus) : ℕ :=
  rows.countP fun trial => trial.status == status

/-- `MAX(primary_metric) FILTER (WHERE status = 'complete')`; NULLs are ignored,
and the maximum of no values is NULL. -/
def bestOf (rows : List Trial) : Option ℚ :=
  ((rows.filter fun trial => trial.status == .complete).filterMap Trial.primaryMetric).max?

/-- The order of the winner subquery. -/
def numberedBefore (x y : Trial) : Prop := x.optunaTrialNumber ≤ y.optunaTrialNumber

instance : DecidableRel numberedBefore :=
  fun x y => inferInstanceAs (Decidable (x.optunaTrialNumber ≤ y.optunaTrialNumber))

instance : Std.Total numberedBefore := ⟨fun x y => le_total x.optunaTrialNumber y.optunaTrialNumber⟩

instance : IsTrans Trial numberedBefore := ⟨fun _ _ _ => le_trans⟩

/-- The complete trials at a metric, in the order of their numbers. -/
def completeAt (rows : List Trial) (metric : ℚ) : List Trial :=
  (rows.filter fun trial => trial.status == .complete && trial.primaryMetric == some metric
    ).insertionSort numberedBefore

/-- The winner subquery: the first complete trial at the best metric, by number. -/
def winnerOf (rows : List Trial) (best : ℚ) : Option Trial := (completeAt rows best).head?

/-- `aggregate_trials_summary`. -/
def aggregateTrialsSummary (trials : List Trial) (studyId : ℕ) : TrialsSummary :=
  let rows := optunaTrials trials studyId
  { total := rows.length
    complete := countStatus rows .complete
    failed := countStatus rows .failed
    pruned := countStatus rows .pruned
    bestPrimaryMetric := bestOf rows
    bestTrialId := ((bestOf rows).bind (winnerOf rows)).map Trial.id }

/-! ## What the summary records -/

/-- A complete, non-baseline trial of the study, with its primary metric. -/
def Scored (trials : List Trial) (studyId : ℕ) (trial : Trial) (metric : ℚ) : Prop :=
  trial ∈ trials ∧ trial.studyId = studyId ∧ trial.isBaseline = false ∧
    trial.status = .complete ∧ trial.primaryMetric = some metric

variable {trials trials' : List Trial} {studyId : ℕ} {trial : Trial} {metric best : ℚ}

theorem Scored.perm (hperm : trials'.Perm trials) :
    Scored trials' studyId trial metric ↔ Scored trials studyId trial metric := by
  simp only [Scored, hperm.mem_iff]

/-- The scored trials are the rows behind the aggregated metrics. -/
theorem mem_metrics_iff :
    metric ∈ ((optunaTrials trials studyId).filter fun trial =>
      trial.status == .complete).filterMap Trial.primaryMetric ↔
      ∃ trial, Scored trials studyId trial metric := by
  simp only [List.mem_filterMap, List.mem_filter, optunaTrials, Scored, Bool.and_eq_true,
    beq_iff_eq, Bool.not_eq_true']
  constructor
  · rintro ⟨trial, ⟨⟨hmem, hstudy, hbase⟩, hstatus⟩, hmetric⟩
    exact ⟨trial, hmem, hstudy, hbase, hstatus, hmetric⟩
  · rintro ⟨trial, hmem, hstudy, hbase, hstatus, hmetric⟩
    exact ⟨trial, ⟨⟨hmem, hstudy, hbase⟩, hstatus⟩, hmetric⟩

/-- The recorded metric is the greatest one. -/
theorem bestOf_eq_some_iff : bestOf (optunaTrials trials studyId) = some best ↔
    (∃ trial, Scored trials studyId trial best) ∧
      ∀ trial metric, Scored trials studyId trial metric → metric ≤ best := by
  rw [bestOf, List.max?_eq_some_iff, mem_metrics_iff]
  refine and_congr_right fun _ => ⟨fun h trial metric hscored => ?_, fun h metric hmetric => ?_⟩
  · exact h metric (mem_metrics_iff.mpr ⟨trial, hscored⟩)
  · obtain ⟨trial, hscored⟩ := mem_metrics_iff.mp hmetric
    exact h trial metric hscored

/-- There is a recorded metric as soon as one trial is scored. -/
theorem exists_bestOf (h : Scored trials studyId trial metric) :
    ∃ best, bestOf (optunaTrials trials studyId) = some best := by
  rw [← Option.isSome_iff_exists, ← Option.ne_none_iff_isSome, bestOf, Ne, List.max?_eq_none_iff]
  exact List.ne_nil_of_mem (mem_metrics_iff.mpr ⟨trial, h⟩)

/-- The recorded metric does not depend on the order of the rows. -/
theorem bestOf_perm (hperm : trials'.Perm trials) :
    bestOf (optunaTrials trials' studyId) = bestOf (optunaTrials trials studyId) := by
  ext best
  simp only [bestOf_eq_some_iff, Scored.perm hperm]

theorem mem_completeAt_iff :
    trial ∈ completeAt (optunaTrials trials studyId) metric ↔
      Scored trials studyId trial metric := by
  simp only [completeAt, List.mem_insertionSort, List.mem_filter, optunaTrials, Scored,
    Bool.and_eq_true, beq_iff_eq, Bool.not_eq_true', and_assoc]

/-- The winner is scored at the best metric, and no other such trial has a lower number. -/
theorem winnerOf_spec (h : Scored trials studyId trial best) :
    ∃ winner, winnerOf (optunaTrials trials studyId) best = some winner ∧
      Scored trials studyId winner best ∧
      ∀ other, Scored trials studyId other best →
        winner.optunaTrialNumber ≤ other.optunaTrialNumber := by
  have hsorted : (completeAt (optunaTrials trials studyId) best).Pairwise numberedBefore :=
    List.pairwise_insertionSort numberedBefore _
  unfold winnerOf
  cases hlist : completeAt (optunaTrials trials studyId) best with
  | nil => exact absurd (mem_completeAt_iff.mpr h) (by simp [hlist])
  | cons winner rest =>
    rw [hlist] at hsorted
    refine ⟨winner, rfl, mem_completeAt_iff.mp (by simp [hlist]), fun other hother => ?_⟩
    rcases List.mem_cons.mp (hlist ▸ mem_completeAt_iff.mpr hother) with rfl | hrest
    · exact le_rfl
    · exact (List.pairwise_cons.mp hsorted).1 other hrest

end RelyLoop.Studies
