import RelyLoop.Studies.Records
import Mathlib.Algebra.Order.Ring.Rat

/-!
# What the API accepts

`ObjectiveSpec` and `StudyConfigSpec`, the write-side schemas of a study: their
field bounds and validators, and the documents that the endpoint stores.
-/

namespace RelyLoop.Studies

/-- A field of a request body: absent, JSON `null`, or a value. -/
abbrev Submitted (α : Type) := Option (Option α)

/-- The errors of the two schemas, one for each message. -/
inductive SpecError where
  | kRequired (metric : Metric)
  | workerManaged (key : String)
  | outOfBounds (field : String)
  | noStopCondition
  | depthOutOfRange (depth : ℤ)
  | strategyInvalid (strategy : String)
  | strategyWithoutDepth
  deriving DecidableEq, Repr

/-- `ObjectiveSpec`. -/
structure ObjectiveSpec where
  metric : Metric
  k : Submitted Cutoff := none
  direction : Option Direction := none
  deriving DecidableEq, Repr

/-- `_K_REQUIRED_METRICS`. -/
def kRequiredMetrics : List Metric := [.ndcg, .precision, .recall]

/-- The validator of `ObjectiveSpec`. -/
def ObjectiveSpec.validate (spec : ObjectiveSpec) : Except SpecError Unit :=
  if spec.metric ∈ kRequiredMetrics ∧ spec.k.join = none then .error (.kRequired spec.metric)
  else .ok ()

/-- `body.objective.model_dump()`. -/
def ObjectiveSpec.stored (spec : ObjectiveSpec) : Objective :=
  ⟨spec.metric, spec.k.join, spec.direction.getD .maximize⟩

/-- `StudyConfigSpec`, with the keys of the raw document. -/
structure StudyConfigSpec where
  keys : List String := []
  maxTrials : Submitted ℤ := none
  timeBudgetMin : Submitted ℚ := none
  parallelism : Submitted ℤ := none
  trialTimeoutS : Submitted ℤ := none
  sampler : Submitted SamplerKind := none
  pruner : Submitted PrunerKind := none
  seed : Submitted ℤ := none
  secondaryMetrics : Submitted (List String) := none
  autoFollowupDepth : Submitted ℤ := none
  autoFollowupStrategy : Submitted String := none
  deriving DecidableEq, Repr

/-- The keys that only the follow-up worker writes. -/
def workerManagedKeys : List String :=
  ["auto_followup_visited_template_ids", "auto_followup_selected_kind"]

/-- `AUTO_FOLLOWUP_STRATEGY_VALUES`. -/
def autoFollowupStrategyValues : List String := ["narrow", "follow_suggestions"]

/-- `_reject_worker_managed_keys`. -/
def rejectWorkerManagedKeys (keys : List String) : Except SpecError Unit :=
  match workerManagedKeys.find? fun key => key ∈ keys with
  | some key => .error (.workerManaged key)
  | none => .ok ()

/-- An optional integer field with bounds. -/
def checkBounds (field : String) (low high : ℤ) : Option ℤ → Except SpecError Unit
  | none => .ok ()
  | some n => if low ≤ n ∧ n ≤ high then .ok () else .error (.outOfBounds field)

/-- The bound of `time_budget_min`. -/
def checkTimeBudget : Option ℚ → Except SpecError Unit
  | none => .ok ()
  | some minutes => if 0 < minutes then .ok () else .error (.outOfBounds "time_budget_min")

/-- `_require_one_stop_condition`. -/
def requireOneStopCondition (spec : StudyConfigSpec) : Except SpecError Unit :=
  if spec.maxTrials.join = none ∧ spec.timeBudgetMin.join = none then .error .noStopCondition
  else .ok ()

/-- `_validate_auto_followup_depth`. -/
def validateAutoFollowupDepth : Option ℤ → Except SpecError Unit
  | none => .ok ()
  | some depth => if 0 ≤ depth ∧ depth ≤ 5 then .ok () else .error (.depthOutOfRange depth)

/-- `_validate_auto_followup_strategy`. -/
def validateAutoFollowupStrategy (depth : Option ℤ) : Option String → Except SpecError Unit
  | none => .ok ()
  | some strategy =>
    if strategy ∉ autoFollowupStrategyValues then .error (.strategyInvalid strategy)
    else if depth.getD 0 < 1 then .error .strategyWithoutDepth
    else .ok ()

/-- The validation of `StudyConfigSpec`. -/
def StudyConfigSpec.validate (spec : StudyConfigSpec) : Except SpecError Unit := do
  rejectWorkerManagedKeys spec.keys
  checkBounds "max_trials" 1 100000 spec.maxTrials.join
  checkTimeBudget spec.timeBudgetMin.join
  checkBounds "parallelism" 1 64 spec.parallelism.join
  checkBounds "trial_timeout_s" 5 3600 spec.trialTimeoutS.join
  requireOneStopCondition spec
  validateAutoFollowupDepth spec.autoFollowupDepth.join
  validateAutoFollowupStrategy spec.autoFollowupDepth.join spec.autoFollowupStrategy.join

/-- `body.config.model_dump(exclude_none=True, exclude_unset=True)`. -/
def StudyConfigSpec.stored (spec : StudyConfigSpec) : StudyConfig where
  maxTrials := spec.maxTrials.join
  timeBudgetMin := spec.timeBudgetMin.join
  parallelism := spec.parallelism.join
  trialTimeoutS := spec.trialTimeoutS.join
  sampler := spec.sampler.join
  pruner := spec.pruner.join
  seed := spec.seed.join
  secondaryMetrics := spec.secondaryMetrics.join
  autoFollowupDepth := spec.autoFollowupDepth.join
  autoFollowupStrategy := spec.autoFollowupStrategy.join

/-- The steps of a successful validation succeed. -/
theorem bind_eq_ok_iff {x : Except SpecError Unit} {y : Unit → Except SpecError Unit} :
    (x >>= y) = .ok () ↔ x = .ok () ∧ y () = .ok () := by
  cases x <;> simp [bind, Except.bind]

/-- A cutoff metric is accepted with a cutoff only. -/
theorem ObjectiveSpec.k_of_validate {spec : ObjectiveSpec} (h : spec.validate = .ok ())
    (hrequired : spec.metric ∈ kRequiredMetrics) : ∃ k, spec.stored.k = some k := by
  unfold validate at h
  split at h
  · cases h
  · rename_i hk
    exact Option.ne_none_iff_exists'.mp fun hnone => hk ⟨hrequired, hnone⟩

/-- An accepted time budget is positive. -/
theorem StudyConfigSpec.timeBudget_pos {spec : StudyConfigSpec} (h : spec.validate = .ok ())
    {minutes : ℚ} (hminutes : spec.stored.timeBudgetMin = some minutes) : 0 < minutes := by
  simp only [validate, bind_eq_ok_iff] at h
  have hbudget : checkTimeBudget spec.timeBudgetMin.join = .ok () := h.2.2.1
  rw [show spec.timeBudgetMin.join = some minutes from hminutes] at hbudget
  by_contra hneg
  simp [checkTimeBudget, hneg] at hbudget

/-- An accepted depth is between 0 and 5. -/
theorem StudyConfigSpec.depth_bounds {spec : StudyConfigSpec} (h : spec.validate = .ok ()) :
    0 ≤ spec.stored.autoFollowupDepth.getD 0 ∧ spec.stored.autoFollowupDepth.getD 0 ≤ 5 := by
  simp only [validate, bind_eq_ok_iff] at h
  have hdepth : validateAutoFollowupDepth spec.autoFollowupDepth.join = .ok () := h.2.2.2.2.2.2.1
  cases hstored : spec.stored.autoFollowupDepth with
  | none => exact ⟨le_rfl, by simp⟩
  | some depth =>
    rw [show spec.autoFollowupDepth.join = some depth from hstored] at hdepth
    by_contra hout
    simp only [Option.getD_some] at hout
    simp [validateAutoFollowupDepth, hout] at hdepth

end RelyLoop.Studies

/-!
## The optimizer's sampler and pruner

`build_sampler` and `build_pruner` of `eval/optuna_runtime.py`, on a stored
study configuration. Whether the optimizer's constructor accepts a seed is a
parameter: the optimizer is a third-party package.
-/

namespace RelyLoop.Eval

open Studies

/-- `STUDIES_TPE_WARMUP_FLOOR`. -/
def studiesTpeWarmupFloor : ℤ := 50

/-- A sampler of the optimizer. -/
structure Sampler where
  kind : SamplerKind
  seed : Option ℤ
  deriving DecidableEq, Repr

/-- A pruner of the optimizer. -/
inductive Pruner where
  | nop
  | median (nWarmupSteps : ℕ)
  deriving DecidableEq, Repr

/-- The `ValueError`s of the two builders. -/
inductive RuntimeError where
  | seedRefused (seed : Option ℤ)
  | maxTrialsRequired
  deriving DecidableEq, Repr

/-- `build_sampler`; `acceptsSeed` says whether the constructor of a kind of
sampler accepts a seed. -/
def buildSampler (acceptsSeed : SamplerKind → Option ℤ → Bool) (config : StudyConfig)
    (seed : Option ℤ) : Except RuntimeError Sampler :=
  let kind := config.sampler.getD .tpe
  if acceptsSeed kind seed then .ok ⟨kind, seed⟩ else .error (.seedRefused seed)

/-- `build_pruner`. -/
def buildPruner (config : StudyConfig) : Except RuntimeError Pruner :=
  match config.pruner with
  | some .median => .ok (.median 10)
  | some .none => .ok .nop
  | none =>
    match config.maxTrials with
    | none => .error .maxTrialsRequired
    | some maxTrials => .ok (if maxTrials < studiesTpeWarmupFloor then .nop else .median 10)

variable {config : StudyConfig}

theorem buildSampler_isOk_iff (acceptsSeed : SamplerKind → Option ℤ → Bool) (seed : Option ℤ) :
    (∃ sampler, buildSampler acceptsSeed config seed = .ok sampler) ↔
      acceptsSeed (config.sampler.getD .tpe) seed = true := by
  simp only [buildSampler]
  cases acceptsSeed (config.sampler.getD .tpe) seed <;> simp

/-- A pruner is built as soon as the configuration names one or limits the trials. -/
theorem buildPruner_isOk_iff : (∃ pruner, buildPruner config = .ok pruner) ↔
    config.pruner ≠ none ∨ config.maxTrials ≠ none := by
  unfold buildPruner
  cases config.pruner with
  | some kind => cases kind <;> simp
  | none => cases config.maxTrials <;> simp

end RelyLoop.Eval
