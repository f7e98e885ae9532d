import RelyLoop.Eval.Metrics
import RelyLoop.Studies.ConfigSpec

/-!
# Accepted configurations at run time

The steps of `start_study` and `run_trial` that depend on the objective and the
configuration alone, on what the endpoint has stored. They use the documents
under other rules than the schemas accept them, so an accepted study may be one
whose worker raises.
-/

namespace RelyLoop.Studies

open Eval

/-- `_DEFAULT_SECONDARY_METRICS`. -/
def defaultSecondaryMetrics : List String := ["ndcg@10", "map@10", "mrr"]

/-- The metric set of a trial: the objective's token and the secondary metrics. -/
def metricsSet (objectiveKey : String) (config : StudyConfig) : List String :=
  objectiveKey :: config.secondaryMetrics.getD defaultSecondaryMetrics

/-- None of the steps that depend on the objective and the configuration raises:
the sampler and the pruner of `start_study`, the comparison with the time budget
in its polling loop, and the metric tokens of `run_trial` and `score`. -/
structure StepsSucceed (acceptsSeed : SamplerKind → Option ℤ → Bool) (objective : Objective)
    (config : StudyConfig) : Prop where
  sampler : ∃ sampler, buildSampler acceptsSeed config config.seed = .ok sampler
  pruner : ∃ pruner, buildPruner config = .ok pruner
  budget : ∀ minutes, config.timeBudgetMin = some minutes →
    (Python.timedeltaMinutes minutes).isSome
  tokens : ∃ key, objectiveMetricKey objective = .ok key ∧
    ∀ token ∈ metricsSet key config, ∃ measure, translateMetricName token = .ok measure

/-- The seeds of the optimizer's random number generator. -/
def SeedInRange (seed : Option ℤ) : Prop := ∀ n, seed = some n → 0 ≤ n ∧ n < 2 ^ 32

/-- A configuration that the worker can use: it has a pruner or a limit of
trials, its secondary metrics are metric tokens, its seed is in range, and its
time budget is less than ten to the nine days. -/
structure Runnable (config : StudyConfig) : Prop where
  pruner : config.pruner ≠ none ∨ config.maxTrials ≠ none
  secondary : ∀ tokens, config.secondaryMetrics = some tokens →
    ∀ token ∈ tokens, MetricToken token
  seed : SeedInRange config.seed
  budget : ∀ minutes, config.timeBudgetMin = some minutes →
    minutes * 60000000 < 1000000000 * Python.microsecondsPerDay - 1 / 2

/-- An accepted objective has a metric token. -/
theorem objectiveMetricKey_of_validate {spec : ObjectiveSpec} (h : spec.validate = .ok ()) :
    ∃ key, objectiveMetricKey spec.stored = .ok key := by
  cases hk : spec.stored.k with
  | some k =>
    unfold objectiveMetricKey
    rw [hk]
    cases spec.stored.metric <;> exact ⟨_, rfl⟩
  | none =>
    have hmetric : spec.metric ∉ kRequiredMetrics := fun hrequired => by
      obtain ⟨k, hsome⟩ := spec.k_of_validate h hrequired
      simp [hk] at hsome
    unfold objectiveMetricKey
    rw [hk, show spec.stored.metric = spec.metric from rfl]
    cases hname : spec.metric <;> simp [hname, kRequiredMetrics] at hmetric ⊢

theorem metricToken_of_default {token : String} (h : token ∈ defaultSecondaryMetrics) :
    MetricToken token := by
  rw [← translateMetricName_isOk_iff]
  simp only [defaultSecondaryMetrics, List.mem_cons, List.not_mem_nil, or_false] at h
  rcases h with rfl | rfl | rfl
  · exact ⟨.ndcgAt 10, by decide⟩
  · exact ⟨.apAt 10, by decide⟩
  · exact ⟨.rr, rfl⟩

/-- The tokens of an accepted objective translate exactly when its secondary ones do. -/
theorem tokens_iff {objective : Objective} {key : String} (config : StudyConfig)
    (hkey : objectiveMetricKey objective = .ok key) :
    (∃ key, objectiveMetricKey objective = .ok key ∧
      ∀ token ∈ metricsSet key config, ∃ measure, translateMetricName token = .ok measure) ↔
    ∀ tokens, config.secondaryMetrics = some tokens → ∀ token ∈ tokens, MetricToken token := by
  simp only [hkey, Except.ok.injEq, exists_eq_left', translateMetricName_isOk_iff, metricsSet,
    List.forall_mem_cons, metricToken_of_objective hkey, true_and]
  cases config.secondaryMetrics with
  | none => simpa using fun token => metricToken_of_default
  | some tokens => simp

/-- The check of the seed that the optimizer's generator makes. -/
def generatorAccepts (_ : SamplerKind) : Option ℤ → Bool
  | none => true
  | some n => 0 ≤ n && n < 2 ^ 32

theorem generatorAccepts_iff (kind : SamplerKind) (seed : Option ℤ) :
    generatorAccepts kind seed = true ↔ SeedInRange seed := by
  cases seed with
  | none => simp [generatorAccepts, SeedInRange]
  | some n => simp [generatorAccepts, SeedInRange]

/-- The objective `ndcg@10`. -/
def ndcgAtTen : ObjectiveSpec := { metric := .ndcg, k := some (some .k10) }

end RelyLoop.Studies
