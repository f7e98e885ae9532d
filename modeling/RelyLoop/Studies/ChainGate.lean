import RelyLoop.Studies.Records
import Mathlib.Tactic.Linarith

/-!
# The gate of a follow-up chain

`evaluate_chain_gate` decides whether a completed study gets a follow-up: the
best metric has to be better than a reference by more than `epsilon`. The gate
takes a direction and the trials that make up the reference; the follow-up
worker passes no direction and all complete rows, the baseline row included.
-/

namespace RelyLoop.Studies

/-- `AUTO_FOLLOWUP_LIFT_EPSILON`. -/
def autoFollowupLiftEpsilon : ℚ := 1 / 200

/-- `ChainGateDecision`. -/
inductive ChainGateDecision where
  | enqueue
  | skipNoLift
  | skipParentFailed
  | skipDepthExhausted
  deriving DecidableEq, Repr

/-- `ChainGateOutcome`. -/
structure ChainGateOutcome where
  decision : ChainGateDecision
  lift : Option ℚ := none
  firstDecileMax : Option ℚ := none
  epsilon : ℚ := autoFollowupLiftEpsilon
  deriving DecidableEq, Repr

/-- `_direction_normalized_lift`: positive when the best metric is better. -/
def directionNormalizedLift (bestMetric baselineMetric : ℚ) : Direction → ℚ
  | .minimize => baselineMetric - bestMetric
  | .maximize => bestMetric - baselineMetric

/-- `compute_first_decile_max`: the extremum of the metrics in the first tenth
of the trials, by trial number. -/
def computeFirstDecileMax (completeTrials : List Trial) (direction : Direction := .maximize) :
    Option ℚ :=
  let sortedTrials := completeTrials.insertionSort numberedBefore
  let decile := sortedTrials.take (max 1 (sortedTrials.length / 10))
  let metrics := decile.filterMap Trial.primaryMetric
  match direction with
  | .maximize => metrics.max?
  | .minimize => metrics.min?

/-- The last step of the gate: the lift over a reference against `epsilon`. -/
def gateOnLift (lift : ℚ) (firstDecileMax : Option ℚ) (epsilon : ℚ) : ChainGateOutcome :=
  { decision := if lift > epsilon then .enqueue else .skipNoLift
    lift := some lift
    firstDecileMax := firstDecileMax
    epsilon := epsilon }

/-- `evaluate_chain_gate`. -/
def evaluateChainGate (parent : Study) (completeTrials : List Trial)
    (epsilon : ℚ := autoFollowupLiftEpsilon) (direction : Direction := .maximize) :
    ChainGateOutcome :=
  if parent.status = .failed ∨ parent.status = .cancelled then
    { decision := .skipParentFailed, epsilon := epsilon }
  else if parent.config.autoFollowupDepth.getD 0 = 0 then
    { decision := .skipDepthExhausted, epsilon := epsilon }
  else match parent.bestMetric with
    | none => { decision := .skipNoLift, epsilon := epsilon }
    | some bestMetric =>
      match parent.baselineMetric with
      | some baselineMetric =>
        gateOnLift (directionNormalizedLift bestMetric baselineMetric direction) none epsilon
      | none =>
        match computeFirstDecileMax completeTrials direction with
        | none => { decision := .skipNoLift, epsilon := epsilon }
        | some firstDecileMax =>
          gateOnLift (directionNormalizedLift bestMetric firstDecileMax direction)
            (some firstDecileMax) epsilon

/-- `[t for t in all_trials if t.status == "complete"]`. -/
def completeTrials (allTrials : List Trial) : List Trial :=
  allTrials.filter fun trial => trial.status == .complete

/-- The gate as `enqueue_followup_study` calls it: layer 1 lets the chain go on. -/
def continuesChain (parent : Study) (allTrials : List Trial) : Bool :=
  (evaluateChainGate parent (completeTrials allTrials)).decision == .enqueue

/-! ## What the gate is for -/

/-- `best` is better than `reference`, in a direction, by more than the epsilon. -/
def Direction.Improves : Direction → ℚ → ℚ → Prop
  | .maximize, best, reference => reference + autoFollowupLiftEpsilon < best
  | .minimize, best, reference => best + autoFollowupLiftEpsilon < reference

/-- The best metric improves on a reference that exists. -/
def ImprovesOn (d : Direction) (best : ℚ) (reference : Option ℚ) : Prop :=
  ∃ value, reference = some value ∧ d.Improves best value

/-- The complete trials of the study's own Optuna search. -/
def searchTrials (allTrials : List Trial) : List Trial :=
  (completeTrials allTrials).filter fun trial => !trial.isBaseline

/-- The reference for the study's search: its baseline metric, or the extremum,
in its own direction, of the first decile of its search. -/
def searchReference (parent : Study) (allTrials : List Trial) : Option ℚ :=
  parent.baselineMetric.or
    (computeFirstDecileMax (searchTrials allTrials) parent.objective.direction)

/-- The study's search improved on its reference. -/
def SearchImproved (parent : Study) (allTrials : List Trial) : Prop :=
  ∃ best, parent.bestMetric = some best ∧
    ImprovesOn parent.objective.direction best (searchReference parent allTrials)

/-- `best_metric` is set on completion only. -/
def BestOnCompletion (study : Study) : Prop :=
  study.bestMetric ≠ none → study.status = .completed

/-- When the gate of the worker agrees with the study's search: with a baseline
metric the direction does not matter, or the best metric is within epsilon of
it; without one the best metric is on the same side of both first deciles. -/
def GateAgrees (parent : Study) (allTrials : List Trial) : Prop :=
  ∀ best, parent.bestMetric = some best →
    match parent.baselineMetric, parent.objective.direction with
    | some _, .maximize => True
    | some baseline, .minimize => |best - baseline| ≤ autoFollowupLiftEpsilon
    | none, d =>
      (ImprovesOn .maximize best (computeFirstDecileMax (completeTrials allTrials)) ↔
        ImprovesOn d best (computeFirstDecileMax (searchTrials allTrials) d))

variable {parent : Study} {allTrials : List Trial}

theorem improves_iff_lift (d : Direction) (best reference : ℚ) :
    d.Improves best reference ↔
      autoFollowupLiftEpsilon < directionNormalizedLift best reference d := by
  cases d with
  | maximize => exact lt_sub_iff_add_lt'.symm
  | minimize => exact lt_sub_iff_add_lt'.symm

@[simp] theorem improvesOn_none (d : Direction) (best : ℚ) : ¬ ImprovesOn d best none :=
  fun ⟨_, h, _⟩ => by cases h

@[simp] theorem improvesOn_some (d : Direction) (best reference : ℚ) :
    ImprovesOn d best (some reference) ↔ d.Improves best reference := by
  simp [ImprovesOn]

theorem gateOnLift_enqueue_iff {lift epsilon : ℚ} {decile : Option ℚ} :
    (gateOnLift lift decile epsilon).decision = .enqueue ↔ epsilon < lift := by
  unfold gateOnLift
  split <;> simp_all

/-- The gate, for a direction and a list of trials: on a study that ended
normally and has depth left it asks for an improvement on its reference. -/
theorem evaluateChainGate_enqueue_iff (d : Direction) (trials : List Trial)
    (hended : ¬ (parent.status = .failed ∨ parent.status = .cancelled))
    (hdepth : parent.config.autoFollowupDepth.getD 0 ≠ 0) :
    (evaluateChainGate parent trials autoFollowupLiftEpsilon d).decision = .enqueue ↔
      ∃ best, parent.bestMetric = some best ∧
        ImprovesOn d best (parent.baselineMetric.or (computeFirstDecileMax trials d)) := by
  simp only [evaluateChainGate, if_neg hended, if_neg hdepth]
  cases parent.bestMetric with
  | none => simp
  | some best =>
    cases parent.baselineMetric with
    | some baseline => simp [gateOnLift_enqueue_iff, improves_iff_lift]
    | none =>
      cases computeFirstDecileMax trials d with
      | none => simp
      | some reference => simp [gateOnLift_enqueue_iff, improves_iff_lift]

/-- Improving in both directions is possible for no pair of numbers, and
improving in neither means being within epsilon. -/
theorem improves_iff_improves_iff (best reference : ℚ) :
    (Direction.maximize.Improves best reference ↔ Direction.minimize.Improves best reference) ↔
      |best - reference| ≤ autoFollowupLiftEpsilon := by
  have hpos : 0 < autoFollowupLiftEpsilon := by decide +kernel
  rw [abs_le]
  simp only [Direction.Improves]
  constructor
  · intro h
    by_cases hup : reference + autoFollowupLiftEpsilon < best
    · have hdown := h.mp hup
      constructor <;> linarith
    · have hdown := mt h.mpr hup
      constructor <;> linarith
  · rintro ⟨hlow, hhigh⟩
    constructor <;> intro h <;> linarith

/-- For a maximizing study without a complete baseline row the gate agrees. -/
theorem gateAgrees_of_maximize (hdirection : parent.objective.direction = .maximize)
    (hbaseline : ∀ trial ∈ completeTrials allTrials, trial.isBaseline = false) :
    GateAgrees parent allTrials := by
  intro best _
  have hsame : searchTrials allTrials = completeTrials allTrials :=
    List.filter_eq_self.mpr fun trial htrial => by simp [hbaseline trial htrial]
  rw [hdirection, hsame]
  cases parent.baselineMetric <;> simp

/-- The chain goes on exactly when the search improved, if and only if the
worker's gate agrees with the study's search. -/
theorem continuesChain_iff_improved_iff (hdepth : 0 < parent.config.autoFollowupDepth.getD 0)
    (hbest : BestOnCompletion parent) :
    (continuesChain parent allTrials = true ↔ SearchImproved parent allTrials) ↔
      GateAgrees parent allTrials := by
  unfold GateAgrees SearchImproved
  cases hmetric : parent.bestMetric with
  | none =>
    have hskip : continuesChain parent allTrials = false := by
      unfold continuesChain evaluateChainGate
      split
      · rfl
      · rw [if_neg hdepth.ne', hmetric]
        rfl
    simp [hskip]
  | some best =>
    have hended : ¬ (parent.status = .failed ∨ parent.status = .cancelled) := by
      simp [hbest (by simp [hmetric])]
    have hgate :=
      evaluateChainGate_enqueue_iff .maximize (completeTrials allTrials) hended hdepth.ne'
    simp only [hmetric, Option.some.injEq, exists_eq_left'] at hgate ⊢
    rw [continuesChain, beq_iff_eq, hgate, searchReference]
    simp only [forall_eq']
    cases parent.baselineMetric with
    | none => simp
    | some baseline =>
      cases parent.objective.direction with
      | maximize => simp
      | minimize => simpa using improves_iff_improves_iff best baseline

/-- A completed study with depth left, whose best metric is `best`. -/
def completedParent (direction : Direction) (best : ℚ) (baseline : Option ℚ) : Study where
  objective := ⟨.ndcg, some .k10, direction⟩
  config := { maxTrials := some 20, autoFollowupDepth := some 2 }
  status := .completed
  baselineMetric := baseline
  bestMetric := some best

/-- The baseline row of a study, with the metric 9/10. -/
def baselineRow : Trial :=
  { id := 1, studyId := 7, optunaTrialNumber := -1, status := .complete,
    primaryMetric := some (9 / 10), isBaseline := true }

/-- The first trial of its search, with the metric 1/10. -/
def firstTrial : Trial :=
  { id := 2, studyId := 7, optunaTrialNumber := 0, status := .complete,
    primaryMetric := some (1 / 10) }

/-- A maximizing study without a baseline row: the chain goes on, and the search improved. -/
theorem continuesChain_iff_improved_of_maximize :
    (continuesChain (completedParent .maximize (3 / 5) none) [firstTrial] = true ↔
      SearchImproved (completedParent .maximize (3 / 5) none) [firstTrial]) ∧
    continuesChain (completedParent .maximize (3 / 5) none) [firstTrial] = true :=
  ⟨(continuesChain_iff_improved_iff (by decide) fun _ => rfl).mpr
    (gateAgrees_of_maximize rfl (by decide)), by decide +kernel⟩

/-- A minimizing study that went from 1/2 down to 1/10 is skipped, and so is a
maximizing one that went from 1/10 up to 3/5 beside a baseline row. -/
theorem gate_skips_improved_search :
    ¬ (continuesChain (completedParent .minimize (1 / 10) (some (1 / 2))) [firstTrial] = true ↔
      SearchImproved (completedParent .minimize (1 / 10) (some (1 / 2))) [firstTrial]) ∧
    ¬ (continuesChain (completedParent .maximize (3 / 5) none) [baselineRow, firstTrial] = true ↔
      SearchImproved (completedParent .maximize (3 / 5) none) [baselineRow, firstTrial]) := by
  constructor
  · have hskip : continuesChain (completedParent .minimize (1 / 10) (some (1 / 2))) [firstTrial] =
        false := by decide +kernel
    rw [hskip]
    refine fun h => Bool.false_ne_true (h.mpr ⟨1 / 10, rfl, 1 / 2, rfl, ?_⟩)
    simp only [Direction.Improves, completedParent]
    decide +kernel
  · have hskip : continuesChain (completedParent .maximize (3 / 5) none)
        [baselineRow, firstTrial] = false := by decide +kernel
    have hreference : searchReference (completedParent .maximize (3 / 5) none)
        [baselineRow, firstTrial] = some (1 / 10) := by decide +kernel
    rw [hskip]
    refine fun h => Bool.false_ne_true (h.mpr ⟨3 / 5, rfl, 1 / 10, hreference, ?_⟩)
    simp only [Direction.Improves, completedParent]
    decide +kernel

end RelyLoop.Studies
