import RelyLoop.Python.Dict
import RelyLoop.Python.Sorted
import RelyLoop.Studies.ChainGate

/-!
# Convergence verdicts

`classify_convergence` reads the best-so-far curve of a study's trials.
`fetch_study_convergence` classifies one study; `resolve_list_convergence_verdicts`
classifies a page of them and settles those with few complete trials by their counts,
without loading a trial. The counts include complete trials without a metric, which the
classifier does not see.
-/

namespace RelyLoop.Studies

open Python

/-! ## The classifier -/

/-- `CONVERGENCE_FLAT_EPSILON`. -/
def convergenceFlatEpsilon : ℚ := autoFollowupLiftEpsilon

/-- `CONVERGENCE_FLAT_WINDOW`. -/
def convergenceFlatWindow : ℕ := 20

/-- `CONVERGENCE_FLAT_MIN_COMPLETE`. -/
def convergenceFlatMinComplete : ℕ := 5

/-- `STUDIES_TPE_WARMUP_FLOOR`. -/
def studiesTpeWarmupFloor : ℕ := 50

/-- `ConvergenceVerdict`. -/
inductive ConvergenceVerdict where
  | converged
  | stillImproving
  | tooFewTrials
  deriving DecidableEq, Repr

/-- `CurvePoint`. -/
structure CurvePoint where
  trialNumber : ℤ
  bestSoFar : ℚ
  deriving DecidableEq, Repr

/-- `StudyConvergenceShape`. -/
structure StudyConvergenceShape where
  verdict : ConvergenceVerdict
  direction : Direction
  windowSize : ℕ
  epsilon : ℚ
  warmupFloor : ℕ
  totalCompleteTrials : ℕ
  improvementInWindow : ℚ
  bestSoFarCurve : List CurvePoint
  deriving DecidableEq, Repr

/-- `_usable`. -/
def usable (trial : Trial) : Bool :=
  trial.status == .complete && !trial.isBaseline && trial.primaryMetric.isSome

/-- The better of the running extremum and the next metric. Nothing stands for the infinity
that the running extremum starts with. -/
def runningBest (direction : Direction) : Option ℚ → ℚ → ℚ
  | none, metric => metric
  | some running, metric =>
    match direction with
    | .maximize => if running < metric then metric else running
    | .minimize => if metric < running then metric else running

/-- The best-so-far curve. -/
def bestSoFarCurve (direction : Direction) : Option ℚ → List Trial → List CurvePoint
  | _, [] => []
  | running, trial :: trials =>
    match trial.primaryMetric with
    | none => bestSoFarCurve direction running trials
    | some metric =>
      ⟨trial.optunaTrialNumber, runningBest direction running metric⟩ ::
        bestSoFarCurve direction (some (runningBest direction running metric)) trials

/-- `classify_convergence`. -/
def classifyConvergence (completeTrials : List Trial) (direction : Direction) :
    Option StudyConvergenceShape :=
  let trials := (completeTrials.filter usable).insertionSort numberedBefore
  let total := trials.length
  if total < convergenceFlatMinComplete then none
  else
    let curve := bestSoFarCurve direction none trials
    let windowSize := min convergenceFlatWindow (max 5 (total / 5))
    let windowStart := (curve[curve.length - windowSize]?.map CurvePoint.bestSoFar).getD 0
    let windowEnd := (curve.getLast?.map CurvePoint.bestSoFar).getD 0
    let improvementInWindow :=
      match direction with
      | .maximize => windowEnd - windowStart
      | .minimize => -(windowEnd - windowStart)
    some
      { verdict :=
          if total < studiesTpeWarmupFloor then .tooFewTrials
          else if improvementInWindow ≤ convergenceFlatEpsilon then .converged
          else .stillImproving
        direction := direction
        windowSize := windowSize
        epsilon := convergenceFlatEpsilon
        warmupFloor := studiesTpeWarmupFloor
        totalCompleteTrials := total
        improvementInWindow := improvementInWindow
        bestSoFarCurve := curve }

/-! ## Studies as the verdict reads them -/

/-- The value of the `direction` key of an objective. -/
inductive RawDirection where
  | text (s : String)
  /-- Any other value than a text and `null`. -/
  | other
  deriving DecidableEq, Repr

/-- A study as its verdict reads it. An objective that is no object is absent, and so is a
`direction` that is `null`. -/
structure ClassifiedStudy where
  id : ℕ
  status : StudyStatus
  objective : Option (Option RawDirection)
  deriving DecidableEq, Repr

/-- `_IN_FLIGHT_STATUSES`. -/
def inFlightStatuses : List StudyStatus := [.queued, .running]

/-- `_resolve_direction`. -/
def resolveDirection (objective : Option (Option RawDirection)) : Option Direction :=
  match objective with
  | none => some .maximize
  | some none => some .maximize
  | some (some (.text "maximize")) => some .maximize
  | some (some (.text "minimize")) => some .minimize
  | some (some _) => none

/-- `list_complete_optuna_trials_for_study`. -/
def listCompleteOptunaTrialsForStudy (trials : List Trial) (studyId : ℕ) : List Trial :=
  (trials.filter fun trial => trial.studyId == studyId && trial.status == .complete &&
    !trial.isBaseline && trial.primaryMetric.isSome).insertionSort numberedBefore

/-- `fetch_study_convergence`. -/
def fetchStudyConvergence (trials : List Trial) (study : ClassifiedStudy) :
    Option StudyConvergenceShape :=
  if study.status ∈ inFlightStatuses then none
  else
    match resolveDirection study.objective with
    | none => none
    | some direction =>
      classifyConvergence (listCompleteOptunaTrialsForStudy trials study.id) direction

/-! ## A page of studies -/

/-- `TrialCounts`. -/
structure TrialCounts where
  total : ℕ
  complete : ℕ
  deriving DecidableEq, Repr

/-- The row of a study in the `GROUP BY` of `count_trials_for_studies`. -/
def trialCountsOf (trials : List Trial) (studyId : ℕ) : TrialCounts where
  total := trials.countP fun trial => trial.studyId == studyId && !trial.isBaseline
  complete := trials.countP fun trial =>
    trial.studyId == studyId && !trial.isBaseline && trial.status == .complete

/-- `count_trials_for_studies`. -/
def countTrialsForStudies (trials : List Trial) (studyIds : List ℕ) : Dict ℕ TrialCounts :=
  Dict.ofList (studyIds.map fun studyId => (studyId, trialCountsOf trials studyId))

/-- The order of the batched query. -/
def groupedBefore (x y : Trial) : Prop :=
  x.studyId < y.studyId ∨ x.studyId = y.studyId ∧ numberedBefore x y

instance : DecidableRel groupedBefore :=
  fun x y => inferInstanceAs (Decidable (x.studyId < y.studyId ∨ x.studyId = y.studyId ∧ _))

/-- `list_complete_optuna_trials_for_studies`. -/
def listCompleteOptunaTrialsForStudies (trials : List Trial) (studyIds : List ℕ) :
    Dict ℕ (List Trial) :=
  let rows := (trials.filter fun trial => studyIds.contains trial.studyId &&
    trial.status == .complete && !trial.isBaseline && trial.primaryMetric.isSome
    ).insertionSort groupedBefore
  Dict.ofList (studyIds.map fun studyId =>
    (studyId, rows.filter fun trial => trial.studyId == studyId))

/-- What the gates before the classifier say of a study: a verdict, or the direction in which
it is classified. -/
def gateVerdict (counts : Dict ℕ TrialCounts) (study : ClassifiedStudy) :
    Option ConvergenceVerdict ⊕ Direction :=
  if study.status ∈ inFlightStatuses then .inl none
  else
    match resolveDirection study.objective with
    | none => .inl none
    | some direction =>
      let complete := ((counts.get? study.id).getD ⟨0, 0⟩).complete
      if complete < convergenceFlatMinComplete then .inl none
      else if complete < studiesTpeWarmupFloor then .inl (some .tooFewTrials)
      else .inr direction

/-- The studies of a page that the gates settle. -/
def settledVerdicts (counts : Dict ℕ TrialCounts) (studies : List ClassifiedStudy) :
    List (ℕ × Option ConvergenceVerdict) :=
  studies.filterMap fun study =>
    (gateVerdict counts study).getLeft?.map fun verdict => (study.id, verdict)

/-- The studies of a page that are classified, with their directions. -/
def eligibleForClassify (counts : Dict ℕ TrialCounts) (studies : List ClassifiedStudy) :
    List (ℕ × Direction) :=
  studies.filterMap fun study =>
    (gateVerdict counts study).getRight?.map fun direction => (study.id, direction)

/-- `resolve_list_convergence_verdicts`. -/
def resolveListConvergenceVerdicts (trials : List Trial) (studies : List ClassifiedStudy)
    (trialCounts : Dict ℕ TrialCounts) : Dict ℕ (Option ConvergenceVerdict) :=
  let eligible := eligibleForClassify trialCounts studies
  let trialsByStudy := listCompleteOptunaTrialsForStudies trials (eligible.map Prod.fst)
  let classified := eligible.map fun (studyId, direction) =>
    (studyId, (classifyConvergence ((trialsByStudy.get? studyId).getD []) direction).map
      StudyConvergenceShape.verdict)
  Dict.ofList (settledVerdicts trialCounts studies ++ classified)

/-- The verdict of a study in the list response. -/
def listVerdict (trials : List Trial) (page : List ClassifiedStudy) (study : ClassifiedStudy) :
    Option ConvergenceVerdict :=
  ((resolveListConvergenceVerdicts trials page
    (countTrialsForStudies trials (page.map ClassifiedStudy.id))).get? study.id).getD none

/-- The verdict of a study alone. -/
def detailVerdict (trials : List Trial) (study : ClassifiedStudy) : Option ConvergenceVerdict :=
  (fetchStudyConvergence trials study).map StudyConvergenceShape.verdict

/-! ## What the classifier sees -/

variable {trials : List Trial} {page : List ClassifiedStudy} {study : ClassifiedStudy}

instance : Std.Total groupedBefore :=
  ⟨fun x y => by
    unfold groupedBefore numberedBefore
    omega⟩

instance : IsTrans Trial groupedBefore :=
  ⟨fun x y z hxy hyz => by
    unfold groupedBefore numberedBefore at *
    omega⟩

/-- How many trials of a study the classifier can use. -/
def usableCount (trials : List Trial) (studyId : ℕ) : ℕ :=
  trials.countP fun trial => trial.studyId == studyId && usable trial

theorem length_listCompleteOptunaTrialsForStudy (trials : List Trial) (studyId : ℕ) :
    (listCompleteOptunaTrialsForStudy trials studyId).length = usableCount trials studyId := by
  rw [listCompleteOptunaTrialsForStudy, List.length_insertionSort, usableCount,
    List.countP_eq_length_filter]
  simp only [usable, Bool.and_assoc]

theorem usableCount_le_complete (trials : List Trial) (studyId : ℕ) :
    usableCount trials studyId ≤ (trialCountsOf trials studyId).complete := by
  refine List.countP_mono_left fun trial _ h => ?_
  simp only [usable, Bool.and_eq_true] at h ⊢
  exact ⟨⟨h.1, h.2.1.2⟩, h.2.1.1⟩

/-- The classifier reads the rows of the query as they are. -/
theorem usable_trials (trials : List Trial) (studyId : ℕ) :
    ((listCompleteOptunaTrialsForStudy trials studyId).filter usable).insertionSort
      numberedBefore = listCompleteOptunaTrialsForStudy trials studyId := by
  have hall : ∀ trial ∈ listCompleteOptunaTrialsForStudy trials studyId, usable trial = true := by
    intro trial htrial
    have h := List.of_mem_filter ((List.mem_insertionSort _).mp htrial)
    simp only [usable, Bool.and_eq_true] at h ⊢
    exact ⟨⟨h.1.1.2, h.1.2⟩, h.2⟩
  rw [List.filter_eq_self.mpr hall]
  exact (List.pairwise_insertionSort _ _).insertionSort_eq

/-- A study without enough usable trials has no verdict, and one below the warmup floor has too
few. -/
theorem classified_verdict (trials : List Trial) (studyId : ℕ) (direction : Direction) :
    (usableCount trials studyId < convergenceFlatMinComplete →
      classifyConvergence (listCompleteOptunaTrialsForStudy trials studyId) direction = none) ∧
    (convergenceFlatMinComplete ≤ usableCount trials studyId →
      usableCount trials studyId < studiesTpeWarmupFloor →
      (classifyConvergence (listCompleteOptunaTrialsForStudy trials studyId) direction).map
        StudyConvergenceShape.verdict = some .tooFewTrials) := by
  simp only [classifyConvergence, usable_trials, length_listCompleteOptunaTrialsForStudy]
  constructor
  · intro hfew
    rw [if_pos hfew]
  · intro henough hfloor
    rw [if_neg (by omega), Option.map_some, if_pos hfloor]

/-! ## The page -/

/-- The trials that the batched query groups under a study are those of its own query. -/
theorem get?_listCompleteOptunaTrialsForStudies {studyIds : List ℕ} {studyId : ℕ}
    (h : studyId ∈ studyIds) :
    (listCompleteOptunaTrialsForStudies trials studyIds).get? studyId =
      some (listCompleteOptunaTrialsForStudy trials studyId) := by
  have hrows : ∀ studyId ∈ studyIds, ((trials.filter fun trial =>
      studyIds.contains trial.studyId && trial.status == .complete && !trial.isBaseline &&
        trial.primaryMetric.isSome).insertionSort groupedBefore).filter
          (fun trial => trial.studyId == studyId) =
        listCompleteOptunaTrialsForStudy trials studyId := by
    intro studyId h
    have hfilter : ∀ trial : Trial, ((trial.studyId == studyId) &&
        (studyIds.contains trial.studyId && trial.status == .complete && !trial.isBaseline &&
          trial.primaryMetric.isSome)) =
        (trial.studyId == studyId && trial.status == .complete && !trial.isBaseline &&
          trial.primaryMetric.isSome) := by
      intro trial
      cases hstudy : trial.studyId == studyId with
      | false => simp
      | true =>
        have hmem : studyIds.contains trial.studyId = true := by
          rw [beq_iff_eq.mp hstudy]
          exact List.contains_iff_mem.mpr h
        simp only [hmem, Bool.true_and]
    rw [filter_insertionSort, List.filter_filter, funext hfilter, listCompleteOptunaTrialsForStudy]
    refine insertionSort_congr fun x hx y hy => ?_
    have hx' := List.of_mem_filter hx
    have hy' := List.of_mem_filter hy
    simp only [Bool.and_eq_true, beq_iff_eq] at hx' hy'
    unfold groupedBefore numberedBefore
    omega
  refine Dict.get?_ofList_eq_some ?_ ?_
  · exact List.mem_map.mpr ⟨studyId, h, Prod.ext rfl (hrows studyId h)⟩
  · intro rows hmem
    obtain ⟨studyId', h', heq⟩ := List.mem_map.mp hmem
    obtain ⟨rfl, rfl⟩ := Prod.mk.injEq .. ▸ heq
    exact hrows studyId' h'

theorem get?_countTrialsForStudies {studyIds : List ℕ} {studyId : ℕ} (h : studyId ∈ studyIds) :
    (countTrialsForStudies trials studyIds).get? studyId = some (trialCountsOf trials studyId) := by
  refine Dict.get?_ofList_eq_some (List.mem_map.mpr ⟨studyId, h, rfl⟩) ?_
  intro counts hmem
  obtain ⟨studyId', -, heq⟩ := List.mem_map.mp hmem
  obtain ⟨rfl, rfl⟩ := Prod.mk.injEq .. ▸ heq
  rfl

/-- The verdict that the gates or the classifier give a study. -/
def verdictOf (trials : List Trial) (counts : Dict ℕ TrialCounts) (study : ClassifiedStudy) :
    Option ConvergenceVerdict :=
  match gateVerdict counts study with
  | .inl verdict => verdict
  | .inr direction =>
    (classifyConvergence (listCompleteOptunaTrialsForStudy trials study.id) direction).map
      StudyConvergenceShape.verdict

theorem mem_settledVerdicts {counts : Dict ℕ TrialCounts} {e : ℕ × Option ConvergenceVerdict} :
    e ∈ settledVerdicts counts page ↔
      ∃ study ∈ page, gateVerdict counts study = .inl e.2 ∧ study.id = e.1 := by
  rw [settledVerdicts, List.mem_filterMap]
  refine exists_congr fun study => and_congr_right fun _ => ?_
  cases gateVerdict counts study with
  | inl verdict => simp [Prod.ext_iff, and_comm]
  | inr direction => simp

theorem mem_eligibleForClassify {counts : Dict ℕ TrialCounts} {e : ℕ × Direction} :
    e ∈ eligibleForClassify counts page ↔
      ∃ study ∈ page, gateVerdict counts study = .inr e.2 ∧ study.id = e.1 := by
  rw [eligibleForClassify, List.mem_filterMap]
  refine exists_congr fun study => and_congr_right fun _ => ?_
  cases gateVerdict counts study with
  | inl verdict => simp
  | inr direction => simp [Prod.ext_iff, and_comm]

/-- The list response gives a study of the page the verdict of its gates or of the classifier. -/
theorem get?_resolveListConvergenceVerdicts (hids : (page.map ClassifiedStudy.id).Nodup)
    (hstudy : study ∈ page) (counts : Dict ℕ TrialCounts) :
    (resolveListConvergenceVerdicts trials page counts).get? study.id =
      some (verdictOf trials counts study) := by
  have hsame : ∀ other ∈ page, other.id = study.id → other = study := fun other hother hid =>
    List.inj_on_of_nodup_map hids hother hstudy hid
  have hloaded : ∀ e ∈ eligibleForClassify counts page,
      ((listCompleteOptunaTrialsForStudies trials
        ((eligibleForClassify counts page).map Prod.fst)).get? e.1).getD [] =
      listCompleteOptunaTrialsForStudy trials e.1 := fun e he => by
    rw [get?_listCompleteOptunaTrialsForStudies (List.mem_map_of_mem he), Option.getD_some]
  refine Dict.get?_ofList_eq_some ?_ ?_
  · rw [List.mem_append]
    cases hgate : gateVerdict counts study with
    | inl verdict =>
      left
      rw [verdictOf, hgate]
      exact mem_settledVerdicts.mpr ⟨study, hstudy, hgate, rfl⟩
    | inr direction =>
      right
      have helig : (study.id, direction) ∈ eligibleForClassify counts page :=
        mem_eligibleForClassify.mpr ⟨study, hstudy, hgate, rfl⟩
      refine List.mem_map.mpr ⟨(study.id, direction), helig, ?_⟩
      simp only [verdictOf, hgate, hloaded _ helig]
  · intro verdict hmem
    rcases List.mem_append.mp hmem with hmem | hmem
    · obtain ⟨other, hother, hgate, hid⟩ := mem_settledVerdicts.mp hmem
      obtain rfl := hsame other hother hid
      rw [verdictOf, hgate]
    · obtain ⟨e, helig, heq⟩ := List.mem_map.mp hmem
      obtain ⟨other, hother, hgate, hid⟩ := mem_eligibleForClassify.mp helig
      obtain ⟨hfst, hsnd⟩ := Prod.mk.inj heq
      obtain rfl := hsame other hother (hid.trans hfst)
      rw [← hsnd, hloaded e helig, verdictOf, hgate, hfst]

/-! ## The two verdicts -/

/-- A study is not settled by counts that its usable trials do not confirm: the gates before the
counts settle it, its complete trials are too few or are loaded, or enough of them carry a
metric. -/
def CountsConfirmed (trials : List Trial) (study : ClassifiedStudy) : Prop :=
  study.status ∈ inFlightStatuses ∨ resolveDirection study.objective = none ∨
    (trialCountsOf trials study.id).complete < convergenceFlatMinComplete ∨
    studiesTpeWarmupFloor ≤ (trialCountsOf trials study.id).complete ∨
    convergenceFlatMinComplete ≤ usableCount trials study.id

/-- The verdict of one row of the page. -/
theorem verdictOf_eq_detailVerdict_iff {counts : Dict ℕ TrialCounts}
    (hcounts : counts.get? study.id = some (trialCountsOf trials study.id)) :
    verdictOf trials counts study = detailVerdict trials study ↔
      CountsConfirmed trials study := by
  have hle := usableCount_le_complete trials study.id
  have hconsts : convergenceFlatMinComplete < studiesTpeWarmupFloor := by decide
  rw [verdictOf, gateVerdict, detailVerdict, fetchStudyConvergence, CountsConfirmed]
  by_cases hflight : study.status ∈ inFlightStatuses
  · simp [hflight]
  cases hdirection : resolveDirection study.objective with
  | none => simp [hflight]
  | some direction =>
    obtain ⟨hfew, hfloor⟩ := classified_verdict trials study.id direction
    simp only [hflight, if_false, hcounts, Option.getD_some]
    by_cases hmin : (trialCountsOf trials study.id).complete < convergenceFlatMinComplete
    · have hnone := hfew (by omega)
      simp [hmin, hnone]
    by_cases hwarm : (trialCountsOf trials study.id).complete < studiesTpeWarmupFloor
    · rw [if_neg hmin, if_pos hwarm]
      rcases Nat.lt_or_ge (usableCount trials study.id) convergenceFlatMinComplete with
        husable | husable
      · have hnone := hfew husable
        simp only [hnone, Option.map_none]
        simp only [reduceCtorEq, false_or, false_iff]
        omega
      · have hverdict := hfloor husable (by omega)
        simp only [hverdict, true_iff]
        omega
    · rw [if_neg hmin, if_neg hwarm]
      simp only [true_iff]
      omega

/-- The list response attaches to every study of a page the verdict that it has alone if and only
if the counts of each of them are confirmed. -/
theorem list_verdicts_agree_iff (trials : List Trial) (page : List ClassifiedStudy)
    (hids : (page.map ClassifiedStudy.id).Nodup) :
    (∀ study ∈ page, listVerdict trials page study = detailVerdict trials study) ↔
      ∀ study ∈ page, CountsConfirmed trials study := by
  refine forall₂_congr fun study hstudy => ?_
  have hcounts : (countTrialsForStudies trials (page.map ClassifiedStudy.id)).get? study.id =
      some (trialCountsOf trials study.id) :=
    get?_countTrialsForStudies (List.mem_map_of_mem hstudy)
  rw [listVerdict, get?_resolveListConvergenceVerdicts hids hstudy, Option.getD_some,
    verdictOf_eq_detailVerdict_iff hcounts]

/-- A completed study with five complete trials, one of which has no metric. -/
def unmeasuredStudy : ClassifiedStudy := ⟨0, .completed, some (some (.text "maximize"))⟩

/-- The trials of that study. -/
def unmeasuredTrials : List Trial :=
  (List.range 5).map fun i =>
    { id := i, studyId := 0, optunaTrialNumber := i, status := .complete
      primaryMetric := if i = 4 then none else some (1 / 2) }

theorem unmeasured_study_has_two_verdicts :
    ¬∀ study ∈ [unmeasuredStudy], listVerdict unmeasuredTrials [unmeasuredStudy] study =
      detailVerdict unmeasuredTrials study := by
  decide

theorem list_verdicts_agree_iff_unmeasuredStudy :
    (∀ study ∈ [unmeasuredStudy],
        listVerdict unmeasuredTrials [unmeasuredStudy] study =
          detailVerdict unmeasuredTrials study) ↔
      ∀ study ∈ [unmeasuredStudy], CountsConfirmed unmeasuredTrials study :=
  list_verdicts_agree_iff unmeasuredTrials [unmeasuredStudy] (by simp)

end RelyLoop.Studies
