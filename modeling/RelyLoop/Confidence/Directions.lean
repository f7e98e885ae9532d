import RelyLoop.Confidence.Shape
import RelyLoop.Studies.Completion
import Mathlib.Tactic.Linarith

/-!
# Confidence in both directions

A study that minimizes and the mirrored study that maximizes, with every primary metric negated,
should be judged alike. The reads and the helpers sort the metrics in descending order in both, so
they are judged alike only when there is nothing to sort.
-/

namespace RelyLoop.Confidence

open Python Ranking Studies Followups

/-! ## The mirrored study -/

/-- The other direction. -/
def flipped : Direction → Direction
  | .maximize => .minimize
  | .minimize => .maximize

/-- A trial with its primary metric negated. -/
def mirrorTrial (trial : Trial) : Trial :=
  { trial with primaryMetric := trial.primaryMetric.map Neg.neg }

theorem nodup_mirror (db : Database) : ((db.trials.map mirrorTrial).map Trial.id).Nodup := by
  rw [List.map_map]
  exact db.nodup

/-- The rows with all primary metrics negated. -/
def mirrorRows (db : Database) : Database where
  trials := db.trials.map mirrorTrial
  nodup := nodup_mirror db
  queryText := db.queryText

variable {S : Type}

/-- The study with the other direction. What it copies from its trials is negated too. -/
def mirrorStudy (study : StudyRow S) : StudyRow S :=
  { study with
    objective := { study.objective with direction := flipped study.objective.direction }
    bestMetric := study.bestMetric.map Neg.neg
    baselineMetric := study.baselineMetric.map Neg.neg }

theorem mirrorTrial_injective : Function.Injective mirrorTrial := by
  intro x y h
  have hmetric : x.primaryMetric = y.primaryMetric :=
    Option.map_injective neg_injective (congrArg Trial.primaryMetric h)
  cases x
  cases y
  simp_all [mirrorTrial]

variable {R : Runtime} {db : Database} {study : StudyRow S} {winner : Trial}

theorem completeRows_mirror (db : Database) (studyId : ℕ) :
    completeRows (mirrorRows db) studyId = (completeRows db studyId).map mirrorTrial := by
  simp [completeRows, optunaTrials, mirrorRows, List.filter_map, mirrorTrial, Function.comp_def]

theorem winnerTrial_mirror (db : Database) (study : StudyRow S) :
    winnerTrial (mirrorRows db) (mirrorStudy study) = (winnerTrial db study).map mirrorTrial := by
  cases hid : study.bestTrialId with
  | none => simp [winnerTrial, mirrorStudy, hid]
  | some trialId =>
    have hfind : getTrial (mirrorRows db) trialId = (getTrial db trialId).map mirrorTrial := by
      rw [getTrial, mirrorRows, List.find?_map]
      rfl
    simp [winnerTrial, mirrorStudy, hid, hfind]

/-- The rows among which the runner-up is chosen. -/
def otherRows (db : Database) (study : StudyRow S) (winner : Trial) : List Trial :=
  (completeRows db study.id).filter fun trial => trial.id ≠ winner.id

/-- In the mirrored study the runner-up is the first row in the ascending order. -/
theorem runnerUpTrial_mirror (db : Database) (study : StudyRow S) (winner : Trial) :
    runnerUpTrial (mirrorRows db) (mirrorStudy study) (mirrorTrial winner) =
      ((otherRows db study winner).insertionSort (ordered (· ≤ ·) Trial.primaryMetric)).head?.map
        mirrorTrial := by
  have hrows : (completeRows (mirrorRows db) (mirrorStudy study).id).filter
      (fun trial => trial.id ≠ (mirrorTrial winner).id) =
        (otherRows db study winner).map mirrorTrial := by
    rw [completeRows_mirror, List.filter_map]
    rfl
  rw [runnerUpTrial, hrows, insertionSort_mirror Trial.primaryMetric mirrorTrial (fun _ => rfl),
    List.head?_map]

theorem completeTrialsSummary_mirror (db : Database) (study : StudyRow S) :
    completeTrialsSummary (mirrorRows db) (mirrorStudy study) =
      (completeTrialsSummary db study).map fun e => (-e.1, e.2) := by
  have hsorted : (completeRows (mirrorRows db) (mirrorStudy study).id).insertionSort
      numberedBefore = ((completeRows db study.id).insertionSort numberedBefore).map
        mirrorTrial := by
    rw [completeRows_mirror]
    exact (List.map_insertionSort _ _ mirrorTrial _ fun _ _ _ _ => Iff.rfl).symm
  rw [completeTrialsSummary, completeTrialsSummary, hsorted, List.filterMap_map,
    List.map_filterMap]
  congr 1
  funext trial
  cases hmetric : trial.primaryMetric <;> simp [mirrorTrial, hmetric]

/-! ## What a shape shows -/

/-- The metrics of the complete trials, in the order of their numbers. -/
def completeMetrics (db : Database) (study : StudyRow S) : List ℚ :=
  (completeTrialsSummary db study).map Prod.fst

/-- The signals that do not look into the queries. -/
structure Signals (R : Runtime) (db : Database) (study : StudyRow S) (winner : Trial)
    (shape : ConfidenceShape) : Prop where
  gap : shape.runnerUpGap =
    classifyRunnerUpGap ((completeMetrics db study).insertionSort (· ≥ ·))
  lateTrialStddev : shape.lateTrialStddev = computeLateTrialStddev R (completeMetrics db study)
  convergence : shape.convergence = classifyConvergenceRegime winner.optunaTrialNumber
    (Dict.ofList ((completeTrialsSummary db study).map Prod.swap))

/-- There is a shape when the study has a winner, a complete trial with a metric and a valid
objective. -/
structure Shows (db : Database) (study : StudyRow S) (winner : Trial) : Prop where
  winner : winnerTrial db study = some winner
  summary : completeTrialsSummary db study ≠ []
  objective : ∃ perQueryKey, Eval.objectiveMetricKey study.objective = .ok perQueryKey

theorem exists_shape (R : Runtime) (h : Shows db study winner) :
    ∃ shape, fetchStudyConfidence R db study = some shape := by
  obtain ⟨perQueryKey, hkey⟩ := h.objective
  simp [fetchStudyConfidence, h.winner, computeStudyConfidence, h.summary, hkey]

theorem signals_of_fetch {shape : ConfidenceShape}
    (h : fetchStudyConfidence R db study = some shape) :
    ∃ winner, Shows db study winner ∧ Signals R db study winner shape := by
  obtain ⟨winner, hwinner, hcompute⟩ := Option.bind_eq_some_iff.mp h
  refine ⟨winner, ?_⟩
  dsimp only at hcompute
  rw [computeStudyConfidence] at hcompute
  split at hcompute
  · cases hcompute
  · rename_i hsummary
    cases hkey : Eval.objectiveMetricKey study.objective with
    | error e => simp [hkey] at hcompute
    | ok perQueryKey =>
      simp only [hkey, Option.some.injEq] at hcompute
      subst hcompute
      exact ⟨⟨hwinner, hsummary, perQueryKey, hkey⟩, rfl, rfl, rfl⟩

theorem shows_mirror (h : Shows db study winner) :
    Shows (mirrorRows db) (mirrorStudy study) (mirrorTrial winner) := by
  constructor
  · rw [winnerTrial_mirror, h.winner, Option.map_some]
  · rw [completeTrialsSummary_mirror]
    exact fun hempty => h.summary (List.map_eq_nil_iff.mp hempty)
  · exact h.objective

/-! ## Signals of mirrored metrics -/

/-- The gap with the metric of the runner-up negated. -/
def RunnerUpGapShape.mirrored (gap : RunnerUpGapShape) : RunnerUpGapShape :=
  { gap with runnerUpMetric := -gap.runnerUpMetric }

/-- All values are the same. -/
def AllEqual (values : List ℚ) : Prop := ∀ x ∈ values, ∀ y ∈ values, x = y

variable {metrics : List ℚ}

theorem exists_replicate (h : AllEqual metrics) : ∃ n c, metrics = List.replicate n c := by
  cases metrics with
  | nil => exact ⟨0, 0, rfl⟩
  | cons c rest =>
    refine ⟨rest.length + 1, c, List.eq_replicate_iff.mpr ⟨rfl, fun x hx => ?_⟩⟩
    exact h x hx c List.mem_cons_self

theorem insertionSort_replicate (r : ℚ → ℚ → Prop) [DecidableRel r] [Std.Refl r] (n : ℕ) (c : ℚ) :
    (List.replicate n c).insertionSort r = List.replicate n c :=
  (List.pairwise_replicate.mpr (Or.inr (Std.Refl.refl c))).insertionSort_eq

/-- The spread is the same in both directions. -/
theorem computeLateTrialStddev_map_neg (R : Runtime) (metrics : List ℚ) :
    computeLateTrialStddev R (metrics.map Neg.neg) = computeLateTrialStddev R metrics := by
  simp only [computeLateTrialStddev, List.length_map, ← List.map_drop, sampleVariance_map_neg]

/-- The gap is the same in both directions when there is one value. -/
theorem classifyRunnerUpGap_of_allEqual (h : AllEqual metrics) :
    classifyRunnerUpGap ((metrics.map Neg.neg).insertionSort (· ≥ ·)) =
      (classifyRunnerUpGap (metrics.insertionSort (· ≥ ·))).map RunnerUpGapShape.mirrored := by
  obtain ⟨n, c, rfl⟩ := exists_replicate h
  rw [List.map_replicate, insertionSort_replicate, insertionSort_replicate]
  match n with
  | 0 => rfl
  | 1 => rfl
  | n + 2 =>
    simp [List.replicate_succ, classifyRunnerUpGap, RunnerUpGapShape.mirrored, List.map_take]

theorem exists_cons_cons {values : List ℚ} (h : 2 ≤ values.length) :
    ∃ x y rest, values = x :: y :: rest := by
  match values with
  | x :: y :: rest => exact ⟨x, y, rest, rfl⟩
  | [] => simp at h
  | [_] => simp at h

/-- The first metric in a sorted list stands before all of them. -/
theorem first_of_sorted {r : ℚ → ℚ → Prop} [DecidableRel r] [Std.Total r] [IsTrans ℚ r] {x : ℚ}
    {rest : List ℚ} (h : metrics.insertionSort r = x :: rest) : ∀ y ∈ metrics, r x y :=
  fun _ hy => head?_insertionSort_le (by rw [h, List.head?_cons]) hy

/-- The gap is the same in both directions only when there is one value or when the runner-up
stands between two others. -/
theorem exists_middle_of_gap
    (h : classifyRunnerUpGap ((metrics.map Neg.neg).insertionSort (· ≥ ·)) =
      (classifyRunnerUpGap (metrics.insertionSort (· ≥ ·))).map RunnerUpGapShape.mirrored) :
    AllEqual metrics ∨ ∃ low ∈ metrics, ∃ middle ∈ metrics, ∃ high ∈ metrics,
      low < middle ∧ middle < high := by
  by_cases hlength : metrics.length < 2
  · left
    match metrics with
    | [] => exact fun x hx => by cases hx
    | [c] => exact fun x hx y hy => (List.mem_singleton.mp hx).trans (List.mem_singleton.mp hy).symm
    | _ :: _ :: _ =>
      simp only [List.length_cons] at hlength
      omega
  · push Not at hlength
    obtain ⟨high, runnerUp, rest, hdesc⟩ :=
      exists_cons_cons (hlength.trans_eq (List.length_insertionSort (· ≥ ·) metrics).symm)
    obtain ⟨low, second, rest', hasc⟩ :=
      exists_cons_cons (hlength.trans_eq (List.length_insertionSort (· ≤ ·) metrics).symm)
    have hhigh : ∀ x ∈ metrics, x ≤ high := first_of_sorted hdesc
    have hlow : ∀ x ∈ metrics, low ≤ x := first_of_sorted hasc
    have hmem : ∀ x ∈ high :: runnerUp :: rest, x ∈ metrics := fun x hx =>
      (List.mem_insertionSort _).mp (hdesc ▸ hx)
    have hmemLow : low ∈ metrics :=
      (List.mem_insertionSort (· ≤ ·)).mp (hasc ▸ List.mem_cons_self)
    rw [insertionSort_map_neg, hdesc, hasc] at h
    simp only [List.map_cons, classifyRunnerUpGap, Option.map_some, Option.some.injEq,
      RunnerUpGapShape.mirrored, RunnerUpGapShape.mk.injEq] at h
    obtain ⟨hvalue, -, -, hrunnerUp⟩ := h
    rcases (hhigh low hmemLow).eq_or_lt with hsame | hlt
    · exact Or.inl fun x hx y hy => le_antisymm
        ((hhigh x hx).trans (hsame.ge.trans (hlow y hy)))
        ((hhigh y hy).trans (hsame.ge.trans (hlow x hx)))
    · refine Or.inr ⟨low, hmemLow, runnerUp, hmem _ (by simp), high, hmem _ (by simp), ?_, ?_⟩
      · linarith
      · linarith

/-! ## Measured from the best trial -/

/-- The metrics, the best one for the direction first. -/
def bestFirst : Direction → List ℚ → List ℚ
  | .maximize, metrics => metrics.insertionSort (· ≥ ·)
  | .minimize, metrics => metrics.insertionSort (· ≤ ·)

/-- The gap is the distance from the best metric to the second best, which is the runner-up's. -/
def FromBest (direction : Direction) (metrics : List ℚ) (gap : RunnerUpGapShape) : Prop :=
  ∃ best second rest, bestFirst direction metrics = best :: second :: rest ∧
    gap.value = |best - second| ∧ gap.runnerUpMetric = second

/-- A study that maximizes has the gap from its best trial. -/
theorem fromBest_maximize {gap : RunnerUpGapShape}
    (h : classifyRunnerUpGap (metrics.insertionSort (· ≥ ·)) = some gap) :
    FromBest .maximize metrics gap := by
  match hdesc : metrics.insertionSort (· ≥ ·) with
  | [] => simp [hdesc, classifyRunnerUpGap] at h
  | [_] => simp [hdesc, classifyRunnerUpGap] at h
  | best :: second :: rest =>
    have hsecond : second ∈ metrics :=
      (List.mem_insertionSort (· ≥ ·)).mp (hdesc ▸ List.mem_cons_of_mem _ List.mem_cons_self)
    have hle : second ≤ best := first_of_sorted hdesc second hsecond
    rw [hdesc] at h
    obtain rfl := Option.some.inj h
    exact ⟨best, second, rest, hdesc, (abs_of_nonneg (sub_nonneg.mpr hle)).symm, rfl⟩

theorem fromBest_of_allEqual (h : AllEqual metrics) {gap : RunnerUpGapShape}
    (hgap : classifyRunnerUpGap (metrics.insertionSort (· ≥ ·)) = some gap)
    (direction : Direction) : FromBest direction metrics gap := by
  have hmaximize := fromBest_maximize hgap
  obtain ⟨n, c, rfl⟩ := exists_replicate h
  cases direction with
  | maximize => exact hmaximize
  | minimize =>
    simp only [FromBest, bestFirst, insertionSort_replicate] at hmaximize ⊢
    exact hmaximize

/-! ## Convergence of mirrored metrics -/

/-- A dictionary of mapped pairs. -/
theorem ofList_map_snd (f : ℚ → ℚ) (pairs : List (ℤ × ℚ)) :
    Dict.ofList (pairs.map fun e => (e.1, f e.2)) = (Dict.ofList pairs).mapValues f := by
  induction pairs using List.reverseRecOn with
  | nil => rfl
  | append_singleton pairs e ih =>
    have hstep : ∀ (pairs : List (ℤ × ℚ)) (e : ℤ × ℚ),
        Dict.ofList (pairs ++ [e]) = (Dict.ofList pairs).set e.1 e.2 := by
      simp [Dict.ofList]
    rw [List.map_append, List.map_singleton, hstep, hstep, ih, Dict.mapValues_set]

/-- The regime is the same in both directions when there is one value. -/
theorem classifyConvergenceRegime_of_allEqual {summary : List (ℚ × ℤ)}
    (h : AllEqual (summary.map Prod.fst)) (winnerTrialNumber : ℤ) :
    classifyConvergenceRegime winnerTrialNumber
        (Dict.ofList ((summary.map fun e => (-e.1, e.2)).map Prod.swap)) =
      classifyConvergenceRegime winnerTrialNumber (Dict.ofList (summary.map Prod.swap)) := by
  have hdict : Dict.ofList ((summary.map fun e => (-e.1, e.2)).map Prod.swap) =
      (Dict.ofList (summary.map Prod.swap)).mapValues Neg.neg := by
    rw [← ofList_map_snd, List.map_map, List.map_map]
    rfl
  have hvalue : ∀ number metric,
      (Dict.ofList (summary.map Prod.swap)).get? number = some metric →
        metric ∈ summary.map Prod.fst := by
    intro number metric hget
    obtain ⟨e, he, hswap⟩ := List.mem_map.mp (Dict.mem_of_get?_ofList hget)
    exact List.mem_map.mpr ⟨e, he, (Prod.ext_iff.mp hswap).2⟩
  rw [hdict]
  generalize Dict.ofList (summary.map Prod.swap) = d at hvalue
  have hkeys : (d.mapValues Neg.neg).keys = d.keys := by
    simp [Dict.keys, Dict.mapValues, Function.comp_def]
  have hentries : (d.mapValues Neg.neg).entries = d.entries.map fun e => (e.1, -e.2) := rfl
  rw [classifyConvergenceRegime, classifyConvergenceRegime, hkeys, hentries, List.length_map,
    Dict.get?_mapValues]
  cases hwinner : d.get? winnerTrialNumber with
  | none => rfl
  | some winnerMetric =>
    have hregime : ∀ maxTrialNumber, convergenceRegime winnerTrialNumber (-winnerMetric)
        maxTrialNumber (d.mapValues Neg.neg) =
          convergenceRegime winnerTrialNumber winnerMetric maxTrialNumber d := by
      intro maxTrialNumber
      have hany : ∀ before : ℤ → Bool,
          (((d.entries.map fun e => (e.1, -e.2)).filter fun e => before e.1).map Prod.snd).any
              (fun m => -winnerMetric - m ≤ runnerUpPlateauBand) =
            ((d.entries.filter fun e => before e.1).map Prod.snd).any
              (fun m => winnerMetric - m ≤ runnerUpPlateauBand) := by
        intro before
        rw [List.filter_map, List.map_map, List.any_map, List.any_map, Bool.eq_iff_iff,
          List.any_eq_true, List.any_eq_true]
        refine exists_congr fun e => and_congr_right fun he => ?_
        have hget := (Dict.get?_eq_some_iff d e.1 e.2).mpr (List.mem_of_mem_filter he)
        have hsame : e.2 = winnerMetric := h _ (hvalue _ _ hget) _ (hvalue _ _ hwinner)
        simp [hsame]
      simp only [convergenceRegime, hentries, hany fun number => decide
        (maxTrialNumber * (1 - earlyHeldLateWindowFrac) ≤ number)]
    simp only [Option.map_some, Option.bind_eq_bind, Option.bind_some, hregime]

/-! ## Judged alike -/

/-- A study and its mirror are judged alike: they have the same runner-up, gap, spread and
convergence, and the gap is measured from the study's best trial. -/
structure RespectsDirection (R : Runtime) (db : Database) (study : StudyRow S) : Prop where
  shown : (fetchStudyConfidence R (mirrorRows db) (mirrorStudy study)).isSome =
    (fetchStudyConfidence R db study).isSome
  runnerUp : ∀ winner, Shows db study winner →
    runnerUpTrial (mirrorRows db) (mirrorStudy study) (mirrorTrial winner) =
      (runnerUpTrial db study winner).map mirrorTrial
  signals : ∀ shape mirrored, fetchStudyConfidence R db study = some shape →
    fetchStudyConfidence R (mirrorRows db) (mirrorStudy study) = some mirrored →
      mirrored.runnerUpGap = shape.runnerUpGap.map RunnerUpGapShape.mirrored ∧
        mirrored.lateTrialStddev = shape.lateTrialStddev ∧
        mirrored.convergence = shape.convergence
  fromBest : ∀ shape gap, fetchStudyConfidence R db study = some shape →
    shape.runnerUpGap = some gap →
      FromBest study.objective.direction (completeMetrics db study) gap

/-! ## When they are judged alike -/

/-- The metrics of the summary are those of the scored trials. -/
theorem mem_completeMetrics {metric : ℚ} :
    metric ∈ completeMetrics db study ↔ ∃ trial, Scored db.trials study.id trial metric := by
  rw [← mem_metrics_iff, completeMetrics, completeTrialsSummary, List.map_filterMap]
  simp only [List.mem_filterMap, List.mem_insertionSort, completeRows, Option.map_map,
    Function.comp_def, Option.map_id']

theorem allEqual_iff : AllEqual (completeMetrics db study) ↔ MetricsAgree db.trials study.id := by
  constructor
  · exact fun h x y metric metric' hx hy =>
      h metric (mem_completeMetrics.mpr ⟨x, hx⟩) metric' (mem_completeMetrics.mpr ⟨y, hy⟩)
  · intro h metric hmetric metric' hmetric'
    obtain ⟨x, hx⟩ := mem_completeMetrics.mp hmetric
    obtain ⟨y, hy⟩ := mem_completeMetrics.mp hmetric'
    exact h x y metric metric' hx hy

theorem mem_otherRows {trial : Trial} {metric : ℚ} (h : Scored db.trials study.id trial metric)
    (hne : trial.id ≠ winner.id) : trial ∈ otherRows db study winner := by
  obtain ⟨hmem, hstudy, hbaseline, hstatus, -⟩ := h
  simp [otherRows, completeRows, optunaTrials, hmem, hstudy, hbaseline, hstatus, hne]

theorem scored_of_mem_otherRows {trial : Trial} {metric : ℚ}
    (h : trial ∈ otherRows db study winner) (hmetric : trial.primaryMetric = some metric) :
    Scored db.trials study.id trial metric := by
  simp only [otherRows, completeRows, optunaTrials, List.mem_filter, Bool.and_eq_true,
    beq_iff_eq, Bool.not_eq_true'] at h
  obtain ⟨⟨⟨hmem, hstudy, hbaseline⟩, hstatus⟩, -⟩ := h
  exact ⟨hmem, hstudy, hbaseline, hstatus, hmetric⟩

/-- The same runner-up is chosen in both directions exactly when all other trials have the same
metric. -/
theorem runnerUpTrial_mirror_iff :
    runnerUpTrial (mirrorRows db) (mirrorStudy study) (mirrorTrial winner) =
        (runnerUpTrial db study winner).map mirrorTrial ↔
      ∀ x ∈ otherRows db study winner, ∀ y ∈ otherRows db study winner, ∀ metric metric',
        x.primaryMetric = some metric → y.primaryMetric = some metric' → metric = metric' := by
  rw [runnerUpTrial_mirror, ← head?_desc_eq_asc_iff]
  constructor
  · exact fun h => (Option.map_injective mirrorTrial_injective h).symm
  · exact fun h => congrArg (Option.map mirrorTrial) h.symm

/-- Trials of one table with different metrics are not both the winner. -/
theorem id_ne_of_metric_ne (winner : Trial) {x y : Trial} {metric metric' : ℚ}
    (hx : Scored db.trials study.id x metric) (hy : Scored db.trials study.id y metric')
    (hne : metric ≠ metric') : x.id ≠ winner.id ∨ y.id ≠ winner.id := by
  by_contra hboth
  push Not at hboth
  have hid : x.id = y.id := hboth.1.trans hboth.2.symm
  obtain rfl := List.inj_on_of_nodup_map db.nodup hx.1 hy.1 hid
  exact hne (Option.some.inj (hx.2.2.2.2.symm.trans hy.2.2.2.2))

/-- Without a shape there is none for the mirror. -/
theorem shows_of_mirror (h : fetchStudyConfidence R db study = none) :
    fetchStudyConfidence R (mirrorRows db) (mirrorStudy study) = none := by
  by_contra hsome
  obtain ⟨shape, hshape⟩ := Option.ne_none_iff_exists'.mp hsome
  obtain ⟨winner, hshows, -⟩ := signals_of_fetch hshape
  have hwinner := hshows.winner
  rw [winnerTrial_mirror] at hwinner
  obtain ⟨original, horiginal, -⟩ := Option.map_eq_some_iff.mp hwinner
  have hsummary := hshows.summary
  rw [completeTrialsSummary_mirror] at hsummary
  have hshows' : Shows db study original :=
    ⟨horiginal, fun hempty => hsummary (by rw [hempty, List.map_nil]), hshows.objective⟩
  obtain ⟨shape', hshape'⟩ := exists_shape R hshows'
  rw [h] at hshape'
  cases hshape'

theorem completeMetrics_mirror (db : Database) (study : StudyRow S) :
    completeMetrics (mirrorRows db) (mirrorStudy study) =
      (completeMetrics db study).map Neg.neg := by
  rw [completeMetrics, completeMetrics, completeTrialsSummary_mirror, List.map_map, List.map_map]
  rfl

/-- The runner-up in the middle of three metrics is not chosen in both directions. -/
theorem agree_of_respects (h : RespectsDirection R db study)
    (hwinner : winnerTrial db study = some winner)
    (hobjective : ∃ perQueryKey, Eval.objectiveMetricKey study.objective = .ok perQueryKey) :
    MetricsAgree db.trials study.id := by
  apply allEqual_iff.mp
  by_cases hsummary : completeTrialsSummary db study = []
  · intro x hx
    rw [completeMetrics, hsummary] at hx
    cases hx
  have hshows : Shows db study winner := ⟨hwinner, hsummary, hobjective⟩
  obtain ⟨shape, hshape⟩ := exists_shape R hshows
  obtain ⟨mirrored, hmirrored⟩ := exists_shape R (shows_mirror hshows)
  obtain ⟨_, -, hsignals⟩ := signals_of_fetch hshape
  obtain ⟨_, -, hsignals'⟩ := signals_of_fetch hmirrored
  have hgap := (h.signals shape mirrored hshape hmirrored).1
  rw [hsignals'.gap, hsignals.gap, completeMetrics_mirror] at hgap
  rcases exists_middle_of_gap hgap with hequal | hthree
  · exact hequal
  exfalso
  obtain ⟨low, hlow, middle, hmiddle, high, hhigh, hlt, hlt'⟩ := hthree
  obtain ⟨x, hx⟩ := mem_completeMetrics.mp hlow
  obtain ⟨y, hy⟩ := mem_completeMetrics.mp hmiddle
  obtain ⟨z, hz⟩ := mem_completeMetrics.mp hhigh
  have hothers := runnerUpTrial_mirror_iff.mp (h.runnerUp winner hshows)
  -- At most one of the three trials is the winner, so the two others have one metric.
  have hpair : ∀ {x y : Trial} {metric metric' : ℚ}, Scored db.trials study.id x metric →
      Scored db.trials study.id y metric' → metric < metric' →
        x.id = winner.id ∨ y.id = winner.id := by
    intro x y metric metric' hx hy hmetric
    by_contra hneither
    obtain ⟨hxne, hyne⟩ := not_or.mp hneither
    exact hmetric.ne (hothers x (mem_otherRows hx hxne) y (mem_otherRows hy hyne) metric metric'
      hx.2.2.2.2 hy.2.2.2.2)
  have hxy := id_ne_of_metric_ne winner hx hy hlt.ne
  have hyz := id_ne_of_metric_ne winner hy hz hlt'.ne
  have hxz := id_ne_of_metric_ne winner hx hz (hlt.trans hlt').ne
  have hxy' := hpair hx hy hlt
  have hyz' := hpair hy hz hlt'
  have hxz' := hpair hx hz (hlt.trans hlt')
  tauto

/-- A study and its mirror are judged alike exactly when nothing is shown, or all complete trials
have the same metric. -/
theorem respects_direction_iff (R : Runtime) (db : Database) (study : StudyRow S) :
    RespectsDirection R db study ↔
      ((∃ winner, winnerTrial db study = some winner) →
        (∃ perQueryKey, Eval.objectiveMetricKey study.objective = .ok perQueryKey) →
        MetricsAgree db.trials study.id) := by
  constructor
  · rintro h ⟨winner, hwinner⟩ hobjective
    exact agree_of_respects h hwinner hobjective
  · intro h
    have hagree : ∀ winner, Shows db study winner → AllEqual (completeMetrics db study) :=
      fun winner hshows => allEqual_iff.mpr (h ⟨winner, hshows.winner⟩ hshows.objective)
    constructor
    · cases hfetch : fetchStudyConfidence R db study with
      | none => rw [shows_of_mirror hfetch]
      | some shape =>
        obtain ⟨winner, hshows, -⟩ := signals_of_fetch hfetch
        obtain ⟨mirrored, hmirrored⟩ := exists_shape R (shows_mirror hshows)
        rw [hmirrored, Option.isSome_some, Option.isSome_some]
    · intro winner hshows
      apply runnerUpTrial_mirror_iff.mpr
      intro x hx y hy metric metric' hmetric hmetric'
      exact allEqual_iff.mp (hagree winner hshows) x y metric metric'
        (scored_of_mem_otherRows hx hmetric) (scored_of_mem_otherRows hy hmetric')
    · intro shape mirrored hfetch hmirrored
      obtain ⟨winner, hshows, hsignals⟩ := signals_of_fetch hfetch
      obtain ⟨winner', hshows', hsignals'⟩ := signals_of_fetch hmirrored
      obtain rfl : mirrorTrial winner = winner' := by
        rw [← Option.some.injEq, ← hshows'.winner, winnerTrial_mirror, hshows.winner,
          Option.map_some]
      have hequal := hagree winner hshows
      refine ⟨?_, ?_, ?_⟩
      · rw [hsignals'.gap, hsignals.gap, completeMetrics_mirror]
        exact classifyRunnerUpGap_of_allEqual hequal
      · rw [hsignals'.lateTrialStddev, hsignals.lateTrialStddev, completeMetrics_mirror]
        exact computeLateTrialStddev_map_neg R _
      · rw [hsignals'.convergence, hsignals.convergence, completeTrialsSummary_mirror]
        exact classifyConvergenceRegime_of_allEqual hequal winner.optunaTrialNumber
    · intro shape gap hfetch hgap
      obtain ⟨winner, hshows, hsignals⟩ := signals_of_fetch hfetch
      exact fromBest_of_allEqual (hagree winner hshows) (hsignals.gap.symm.trans hgap) _

/-! ## A study that minimizes -/

/-- A complete trial of the study 1. -/
def scoredTrial (id : ℕ) (optunaTrialNumber : ℤ) (metric : ℚ) : Trial :=
  { id, studyId := 1, optunaTrialNumber, status := .complete, primaryMetric := some metric }

/-- The best trial, a close second and the worst one. -/
def threeTrials : List Trial :=
  [scoredTrial 1 0 (1 / 10), scoredTrial 2 1 (2 / 10), scoredTrial 3 2 (9 / 10)]

theorem nodup_threeTrials : (threeTrials.map Trial.id).Nodup := by decide

def threeRows : Database where
  trials := threeTrials
  nodup := nodup_threeTrials
  queryText _ := none

/-- A study that minimizes, with its least metric as the best one. -/
def minimizingStudy : StudyRow Unit where
  objective := ⟨.ndcg, some .k10, .minimize⟩
  config := {}
  status := .completed
  bestMetric := some (1 / 10)
  bestTrialId := some 1
  id := 1
  name := "minimizing"
  clusterId := 1
  target := "products"
  templateId := 1
  querySetId := 1
  judgmentListId := 1
  searchSpace := ()
  optunaStudyName := 1

/-- Nothing here depends on what numpy computes. -/
def zeroRuntime : Runtime where
  sqrt _ := 0
  resampledMeans _ := []
  percentile _ _ := 0
  setOrder ids := ids

/-- The gap is the distance between the two worst trials, and the runner-up is the worst one. -/
theorem gap_between_worst_trials :
    (fetchStudyConfidence zeroRuntime threeRows minimizingStudy).bind
        ConfidenceShape.runnerUpGap = some ⟨7 / 10, .sharpPeak, 8 / 10, 2 / 10⟩ ∧
      (runnerUpTrial threeRows minimizingStudy (scoredTrial 1 0 (1 / 10))).map Trial.id = some 3 ∧
      (fetchStudyConfidence zeroRuntime (mirrorRows threeRows) (mirrorStudy minimizingStudy)).bind
        ConfidenceShape.runnerUpGap = some ⟨1 / 10, .sharpPeak, 8 / 10, -2 / 10⟩ ∧
      ¬ RespectsDirection zeroRuntime threeRows minimizingStudy := by
  refine ⟨by decide +kernel, by decide +kernel, by decide +kernel, fun h => ?_⟩
  have hwinner : winnerTrial threeRows minimizingStudy = some (scoredTrial 1 0 (1 / 10)) := rfl
  have hagree := agree_of_respects h hwinner ⟨_, rfl⟩
  have hsame := hagree (scoredTrial 1 0 (1 / 10)) (scoredTrial 3 2 (9 / 10)) (1 / 10) (9 / 10)
    ⟨by simp [threeRows, threeTrials], rfl, rfl, rfl, rfl⟩
    ⟨by simp [threeRows, threeTrials], rfl, rfl, rfl, rfl⟩
  norm_num at hsame

end RelyLoop.Confidence
