import RelyLoop.Concurrency.Program
import RelyLoop.Python.Sorted
import RelyLoop.Studies.Completion
import RelyLoop.Trials.Recording
import RelyLoop.Trials.Replenish

/-!
# The winner of a completed study

A tick reads the trials summary, and `_stop` completes the study with it. `run_trial` looks at
neither the status of the study nor the orchestrator, so a trial may be recorded between the two,
or after the study is completed. The record then names the winner among the trials that the
summary saw.
-/

namespace RelyLoop.Trials.FrozenWinner

open Concurrency Studies

/-! ## Trials after a summary -/

section Summary

/-- `row` is better than every trial of `rows` in the order of the summary. -/
def Overtakes (rows : List Trial) (studyId : ℕ) (row : Trial) : Prop :=
  ∃ metric, Scored [row] studyId row metric ∧ ∀ other metric', Scored rows studyId other metric' →
    metric' < metric ∨ metric' = metric ∧ row.optunaTrialNumber < other.optunaTrialNumber

/-- Two summaries have the same winner. -/
def SameWinner (x y : TrialsSummary) : Prop :=
  x.bestPrimaryMetric = y.bestPrimaryMetric ∧ x.bestTrialId = y.bestTrialId

variable {rows later : List Trial} {studyId : ℕ} {row trial : Trial} {metric best : ℚ}

theorem scored_append : Scored (rows ++ later) studyId trial metric ↔
    Scored rows studyId trial metric ∨ Scored later studyId trial metric := by
  simp only [Scored, List.mem_append, or_and_right]

theorem scored_singleton : Scored [row] studyId row metric ↔
    row.studyId = studyId ∧ row.isBaseline = false ∧ row.status = .complete ∧
      row.primaryMetric = some metric := by
  simp [Scored]

/-- The best metric and its winner, when there is one. -/
theorem exists_winner (h : Scored rows studyId trial metric) :
    ∃ best winner, bestOf (optunaTrials rows studyId) = some best ∧
      winnerOf (optunaTrials rows studyId) best = some winner ∧
      Scored rows studyId winner best ∧
      ∀ other metric', Scored rows studyId other metric' → metric' ≤ best ∧
        (metric' = best → winner.optunaTrialNumber ≤ other.optunaTrialNumber) := by
  obtain ⟨best, hbest⟩ := exists_bestOf h
  obtain ⟨⟨first, hfirst⟩, hgreatest⟩ := bestOf_eq_some_iff.mp hbest
  obtain ⟨winner, hwinner, hscored, hlowest⟩ := winnerOf_spec hfirst
  refine ⟨best, winner, hbest, hwinner, hscored, fun other metric' hother => ?_⟩
  refine ⟨hgreatest other metric' hother, ?_⟩
  rintro rfl
  exact hlowest other hother

theorem bestOf_eq_none (h : ∀ trial metric, ¬ Scored rows studyId trial metric) :
    bestOf (optunaTrials rows studyId) = none := by
  cases hbest : bestOf (optunaTrials rows studyId) with
  | none => rfl
  | some best =>
    obtain ⟨⟨trial, htrial⟩, -⟩ := bestOf_eq_some_iff.mp hbest
    exact absurd htrial (h trial best)

/-- Later trials that stand behind the winner leave it the winner. -/
theorem winnerOf_append {winner : Trial}
    (h : winnerOf (optunaTrials rows studyId) best = some winner)
    (hlater : ∀ row, Scored later studyId row best →
      winner.optunaTrialNumber ≤ row.optunaTrialNumber) :
    winnerOf (optunaTrials (rows ++ later) studyId) best = some winner := by
  have happend : completeAt (optunaTrials (rows ++ later) studyId) best =
      ((optunaTrials rows studyId).filter (fun trial =>
          trial.status == .complete && trial.primaryMetric == some best) ++
        (optunaTrials later studyId).filter fun trial =>
          trial.status == .complete && trial.primaryMetric == some best).insertionSort
            numberedBefore := by
    rw [completeAt, optunaTrials, List.filter_append, List.filter_append]
    rfl
  rw [winnerOf, happend]
  refine Python.head?_insertionSort_append h fun row hrow => hlater row ?_
  exact mem_completeAt_iff.mp ((List.mem_insertionSort numberedBefore).mpr hrow)

/-- When no later trial overtakes, the winner stays. -/
theorem sameWinner_append (h : ∀ row ∈ later, ¬ Overtakes rows studyId row) :
    SameWinner (aggregateTrialsSummary rows studyId)
      (aggregateTrialsSummary (rows ++ later) studyId) := by
  have hbehind : ∀ row metric, Scored later studyId row metric →
      ∃ other metric', Scored rows studyId other metric' ∧ metric ≤ metric' ∧
        (metric' = metric → other.optunaTrialNumber ≤ row.optunaTrialNumber) := by
    intro row metric hrow
    by_contra hnone
    push Not at hnone
    refine h row hrow.1 ⟨metric, scored_singleton.mpr hrow.2, fun other metric' hother => ?_⟩
    rcases lt_or_ge metric' metric with hlt | hle
    · exact Or.inl hlt
    · exact Or.inr (hnone other metric' hother hle)
  by_cases hscored : ∃ trial metric, Scored rows studyId trial metric
  · obtain ⟨trial, metric, htrial⟩ := hscored
    obtain ⟨best, winner, hbest, hwinner, hfirst, hgreatest⟩ := exists_winner htrial
    have hlater : ∀ row metric, Scored later studyId row metric → metric ≤ best ∧
        (metric = best → winner.optunaTrialNumber ≤ row.optunaTrialNumber) := by
      intro row metric hrow
      obtain ⟨other, metric', hother, hle, hnumber⟩ := hbehind row metric hrow
      obtain ⟨hmost, hlowest⟩ := hgreatest other metric' hother
      refine ⟨hle.trans hmost, ?_⟩
      rintro rfl
      have heq : metric' = metric := le_antisymm hmost hle
      exact (hlowest heq).trans (hnumber heq)
    have hsame : bestOf (optunaTrials (rows ++ later) studyId) = some best := by
      refine bestOf_eq_some_iff.mpr ⟨⟨winner, scored_append.mpr (Or.inl hfirst)⟩, ?_⟩
      intro other metric' hother
      rcases scored_append.mp hother with hother | hother
      · exact (hgreatest other metric' hother).1
      · exact (hlater other metric' hother).1
    have hstays := winnerOf_append hwinner fun row hrow => (hlater row best hrow).2 rfl
    simp [SameWinner, aggregateTrialsSummary, hbest, hsame, hwinner, hstays]
  · push Not at hscored
    have hnone : ∀ trial metric, ¬ Scored (rows ++ later) studyId trial metric := by
      intro trial metric htrial
      rcases scored_append.mp htrial with htrial | htrial
      · exact hscored trial metric htrial
      · obtain ⟨other, metric', hother, -⟩ := hbehind trial metric htrial
        exact hscored other metric' hother
    simp [SameWinner, aggregateTrialsSummary, bestOf_eq_none hscored, bestOf_eq_none hnone]

/-- A later trial that overtakes changes the winner. -/
theorem not_sameWinner_append (hids : ((rows ++ later).map Trial.id).Nodup) (hrow : row ∈ later)
    (h : Overtakes rows studyId row) :
    ¬ SameWinner (aggregateTrialsSummary rows studyId)
      (aggregateTrialsSummary (rows ++ later) studyId) := by
  obtain ⟨metric, hscored, hahead⟩ := h
  have hlate : Scored (rows ++ later) studyId row metric :=
    ⟨List.mem_append_right rows hrow, (scored_singleton.mp hscored)⟩
  obtain ⟨best, winner, hbest, hwinner, hfirst, hgreatest⟩ := exists_winner hlate
  obtain ⟨hmost, hlowest⟩ := hgreatest row metric hlate
  rintro ⟨hmetric, hid⟩
  simp only [aggregateTrialsSummary] at hmetric hid
  rw [hbest] at hmetric
  -- the old winner is scored at the best metric, so it stands behind the later trial
  obtain ⟨⟨first, hold⟩, -⟩ := bestOf_eq_some_iff.mp hmetric
  obtain ⟨old, hwinnerOld, hscoredOld, -⟩ := winnerOf_spec hold
  obtain ⟨heq, hnumber⟩ : best = metric ∧ row.optunaTrialNumber < old.optunaTrialNumber := by
    rcases hahead old best hscoredOld with hlt | hboth
    · exact absurd hmost (not_le.mpr hlt)
    · exact hboth
  have hsameId : old.id = winner.id := by
    simpa [hmetric, hbest, hwinner, hwinnerOld] using hid
  have hsame : old = winner :=
    List.inj_on_of_nodup_map hids (List.mem_append_left later hscoredOld.1) hfirst.1 hsameId
  have hle := hlowest heq.symm
  rw [← hsame] at hle
  omega

end Summary

/-! ## The orchestrator and the workers -/

/-- Where the orchestrator stands: what it does next. -/
inductive Phase where
  /-- Load the study. -/
  | polling
  /-- Read the trials summary. -/
  | running
  /-- Look for failures in a row. -/
  | summarized (summary : TrialsSummary)
  /-- Look for zeros in a row. -/
  | withoutFailures (summary : TrialsSummary)
  /-- Check `max_trials` and the time budget. -/
  | withoutZeros (summary : TrialsSummary)
  /-- `fail_study`, and commit. -/
  | failing (failedReason : String)
  /-- `complete_study`. -/
  | stopping (summary : TrialsSummary)
  /-- Commit the row as `complete_study` flushed it. -/
  | completing (row : Study)
  | ended

/-- The summary that the orchestrator has in hand. -/
def Phase.summary? : Phase → Option TrialsSummary
  | summarized summary => some summary
  | withoutFailures summary => some summary
  | withoutZeros summary => some summary
  | stopping summary => some summary
  | _ => none

/-- Where a delivery of `run_trial` stands: what it does next. -/
inductive WorkerPhase where
  | idle
  /-- Load the study. -/
  | delivered (inputs : TrialInputs)
  /-- Look for a row of the trial. -/
  | studyLoaded (inputs : TrialInputs)
  /-- Run the trial. -/
  | executing (inputs : TrialInputs)
  /-- Insert the row, and commit. -/
  | recording (row : Trial)

/-- How a trial runs: it is scored, it fails, or the optimizer has a state of it already. -/
inductive Report where
  | scored (primary : ℚ) (result : Eval.ScoreResult)
  | failed (exc : TrialException)
  | finished (objectiveKey : String) (state : TrialState)

/-- The row of a report. -/
def Report.row (inputs : TrialInputs) : Report → Option Trial
  | scored primary result => some (completeRow inputs primary result)
  | failed exc => some (failedRow inputs exc)
  | finished objectiveKey state => reconstructedRow inputs objectiveKey state

/-- The study, the rows of `trials` in the order of their commits, the orchestrator and its session,
and the workers. -/
structure State (T : Type) where
  studyId : ℕ
  study : Study
  trials : List Trial := []
  maxTrials : Option ℤ := none
  timeBudgetMin : Option ℚ := none
  startedAtFloor : ℤ := 0
  phase : Phase := .polling
  /-- The object that the orchestrator's session has loaded. -/
  loaded : Option Study := none
  /-- A history variable: the rows behind the summary that the orchestrator read last. -/
  read : List Trial := []
  worker : T → WorkerPhase := fun _ => .idle

/-- What happens next. Any process may die, and another one takes the place of the orchestrator. -/
inductive Event (T : Type) where
  /-- The orchestrator, at a time in microseconds. -/
  | orchestrate (now : ℕ)
  | orchestratorDies
  | cancel (now : ℕ)
  | deliver (t : T) (inputs : TrialInputs)
  | work (t : T)
  | report (t : T) (report : Report)
  | workerDies (t : T)

namespace State

variable {T : Type} [DecidableEq T]

/-- The session of the orchestrator ends. -/
def leave (s : State T) (phase : Phase) : State T := { s with phase := phase, loaded := none }

/-- The status that a transition of the orchestrator's session checks: its object is not refreshed
by `SELECT … FOR UPDATE`. -/
def seenStatus (s : State T) : StudyStatus := (s.loaded.getD s.study).status

/-- `max_trials is not None and terminal >= max_trials`. -/
def maxTrialsReached (s : State T) (summary : TrialsSummary) : Bool :=
  s.maxTrials.any fun maxTrials : ℤ =>
    maxTrials ≤ summary.complete + summary.failed + summary.pruned

/-- `elapsed >= timedelta(minutes=time_budget_min)`. -/
def timeBudgetExceeded (s : State T) (now : ℕ) : Bool :=
  (s.timeBudgetMin.bind Python.timedeltaMinutes).any fun budget => budget ≤ now - s.startedAtFloor

/-- One step of the orchestrator. -/
def orchestrate (s : State T) (now : ℕ) : State T :=
  match s.phase with
  | .polling =>
    if s.study.status = .running then { s with phase := .running, loaded := some s.study }
    else s.leave .ended
  | .running =>
    { s with
      phase := .summarized (aggregateTrialsSummary s.trials s.studyId)
      read := s.trials }
  | .summarized summary =>
    if Replenish.lastNAllFailed s.trials s.studyId Replenish.consecutiveFailureThreshold then
      { s with phase := .failing "5 consecutive trial failures" }
    else { s with phase := .withoutFailures summary }
  | .withoutFailures summary =>
    if Replenish.lastNAllZero s.trials s.studyId Replenish.zeroStreakThreshold then
      { s with
        phase := .failing
          "no signal: 20 consecutive trials scored 0.0 — judgment overlap likely lost mid-study" }
    else { s with phase := .withoutZeros summary }
  | .withoutZeros summary =>
    if s.maxTrialsReached summary ∨ s.timeBudgetExceeded now then
      { s with phase := .stopping summary }
    else s.leave .polling
  | .failing failedReason =>
    if .failed ∈ legalTransitions s.seenStatus then
      { s.leave .ended with
        study := { s.study with
          status := .failed, completedAt := some now, failedReason := some failedReason } }
    else s.leave .ended
  | .stopping summary =>
    if .completed ∈ legalTransitions s.seenStatus then
      { s with phase := .completing (completedWith now summary s.study) }
    else s.leave .ended
  | .completing row => { s.leave .ended with study := row }
  | .ended => s

/-- `cancel_study`, and its commit. It waits for the lock of a transaction that completes. -/
def cancel (s : State T) (now : ℕ) : State T :=
  match s.phase with
  | .completing _ => s
  | _ =>
    if .cancelled ∈ legalTransitions s.study.status then
      { s with study := { s.study with status := .cancelled, completedAt := some now } }
    else s

/-- The delivery of `t` goes on with `phase`. -/
def goto (s : State T) (t : T) (phase : WorkerPhase) : State T :=
  { s with worker := Function.update s.worker t phase }

/-- `repo.create_trial`, and the commit. The id is the primary key. -/
def createTrial (s : State T) (row : Trial) : State T :=
  if row.id ∈ s.trials.map Trial.id then s else { s with trials := s.trials ++ [row] }

/-- One step of the delivery of `t`. The study is loaded, and its status plays no part. -/
def work (s : State T) (t : T) : State T :=
  match s.worker t with
  | .delivered inputs => s.goto t (.studyLoaded inputs)
  | .studyLoaded inputs =>
    if s.trials.any fun row =>
        row.studyId = inputs.studyId ∧ row.optunaTrialNumber = inputs.optunaTrialNumber then
      s.goto t .idle
    else s.goto t (.executing inputs)
  | .recording row => (s.createTrial row).goto t .idle
  | _ => s

/-- The trial of `t` has run. -/
def report (s : State T) (t : T) (report : Report) : State T :=
  match s.worker t with
  | .executing inputs =>
    match report.row inputs with
    | some row => s.goto t (.recording row)
    | none => s.goto t .idle
  | _ => s

/-- One event. -/
def step (s : State T) : Event T → State T
  | .orchestrate now => s.orchestrate now
  | .orchestratorDies => s.leave .polling
  | .cancel now => s.cancel now
  | .deliver t inputs =>
    match s.worker t with
    | .idle => s.goto t (.delivered inputs)
    | _ => s
  | .work t => s.work t
  | .report t report => s.report t report
  | .workerDies t => s.goto t .idle

/-- A run whose events all meet `cond`. -/
def Run (cond : State T → Event T → Prop) : State T → State T → Prop :=
  Relation.ReflTransGen fun s s' => ∃ e, cond s e ∧ s' = s.step e

/-- The trials that were recorded after the summary. -/
def late (s : State T) : List Trial := s.trials.drop s.read.length

/-- A completed study has the winner of its trials. -/
def WinnerRecorded (s : State T) : Prop :=
  s.study.status = .completed →
    s.study.bestMetric = (aggregateTrialsSummary s.trials s.studyId).bestPrimaryMetric ∧
    s.study.bestTrialId = (aggregateTrialsSummary s.trials s.studyId).bestTrialId

/-- No trial that is recorded after the summary with which the study is completed is better than
the trials of the summary. -/
def Timely (s : State T) : Event T → Prop
  | .orchestrate _ => ∀ completed, s.phase = .completing completed →
      ∀ row ∈ s.late, ¬ Overtakes s.read s.studyId row
  | .work t => ∀ row, s.study.status = .completed → s.worker t = .recording row →
      row.id ∉ s.trials.map Trial.id → ¬ Overtakes s.trials s.studyId row
  | _ => True

/-! ## All runs -/

variable {s s' : State T} {e : Event T}

/-- The start of a run: the study is not completed, and the orchestrator has not begun. -/
structure Start (s : State T) : Prop where
  ids : (s.trials.map Trial.id).Nodup
  read : s.read = []
  phase : s.phase = .polling
  notCompleted : s.study.status ≠ .completed

/-- The record of a row is that of the trials read last. -/
def Carries (s : State T) (row : Study) : Prop :=
  row.status = .completed ∧
    row.bestMetric = (aggregateTrialsSummary s.read s.studyId).bestPrimaryMetric ∧
    row.bestTrialId = (aggregateTrialsSummary s.read s.studyId).bestTrialId

/-- The orchestrator agrees with the trials that it has read. -/
structure Sound (s : State T) : Prop where
  ids : (s.trials.map Trial.id).Nodup
  read : s.read <+: s.trials
  summary : ∀ summary, s.phase.summary? = some summary →
    summary = aggregateTrialsSummary s.read s.studyId
  completing : ∀ row, s.phase = .completing row → s.Carries row
  completed : s.study.status = .completed →
    s.Carries s.study ∧ (s.phase = .polling ∨ s.phase = .ended)

omit [DecidableEq T] in
theorem Start.sound (h : s.Start) : s.Sound where
  ids := h.ids
  read := by simp [h.read]
  summary summary hsummary := by simp [h.phase, Phase.summary?] at hsummary
  completing row hrow := by simp [h.phase] at hrow
  completed hstatus := absurd hstatus h.notCompleted

omit [DecidableEq T] in
/-- Within a tick the study is not completed. -/
theorem Sound.not_completed (h : s.Sound) (hpolling : s.phase ≠ .polling)
    (hended : s.phase ≠ .ended) : s.study.status ≠ .completed := by
  intro hstatus
  rcases (h.completed hstatus).2 with hphase | hphase
  · exact hpolling hphase
  · exact hended hphase

omit [DecidableEq T] in
/-- The orchestrator goes on with the summary that it has in hand, if any. -/
theorem Sound.goOn (h : s.Sound) (phase : Phase) (loaded : Option Study)
    (hsummary : phase.summary? = none ∨ phase.summary? = s.phase.summary?)
    (hcompleting : ∀ row, phase ≠ .completing row)
    (hcompleted : s.study.status = .completed → phase = .polling ∨ phase = .ended) :
    ({ s with phase := phase, loaded := loaded } : State T).Sound where
  ids := h.ids
  read := h.read
  summary summary hphase := by
    dsimp only at hphase
    rcases hsummary with hnone | hsame
    · simp [hnone] at hphase
    · exact h.summary summary (hsame ▸ hphase)
  completing row hrow := absurd hrow (hcompleting row)
  completed hstatus := ⟨(h.completed hstatus).1, hcompleted hstatus⟩

omit [DecidableEq T] in
theorem Sound.leave (h : s.Sound) {phase : Phase} (hphase : phase = .polling ∨ phase = .ended) :
    (s.leave phase).Sound := by
  rcases hphase with rfl | rfl
  · exact h.goOn .polling none (Or.inl rfl) (by simp) (by simp)
  · exact h.goOn .ended none (Or.inl rfl) (by simp) (by simp)

omit [DecidableEq T] in
/-- The study gets a status other than `completed`. -/
theorem Sound.setStudy (h : s.Sound) {study : Study} (hstudy : study.status ≠ .completed) :
    ({ s with study := study } : State T).Sound where
  ids := h.ids
  read := h.read
  summary := h.summary
  completing := h.completing
  completed hstatus := absurd hstatus hstudy

omit [DecidableEq T] in
theorem Sound.orchestrate (h : s.Sound) (now : ℕ) : (s.orchestrate now).Sound := by
  unfold State.orchestrate
  cases hphase : s.phase with
  | polling =>
    dsimp only
    split
    · rename_i hrunning
      exact h.goOn .running _ (Or.inl rfl) (by simp) (by simp [hrunning])
    · exact h.leave (Or.inr rfl)
  | running =>
    have hstatus := h.not_completed (by simp [hphase]) (by simp [hphase])
    refine ⟨h.ids, List.prefix_rfl, fun summary hsummary => ?_, by simp, fun hcompleted => ?_⟩
    · exact (Option.some.inj hsummary).symm
    · exact absurd hcompleted hstatus
  | summarized summary =>
    have hstatus := h.not_completed (by simp [hphase]) (by simp [hphase])
    dsimp only
    split
    · exact h.goOn _ _ (Or.inl rfl) (by simp) fun hcompleted => absurd hcompleted hstatus
    · exact h.goOn _ _ (Or.inr (by rw [hphase]; rfl)) (by simp) fun hcompleted =>
        absurd hcompleted hstatus
  | withoutFailures summary =>
    have hstatus := h.not_completed (by simp [hphase]) (by simp [hphase])
    dsimp only
    split
    · exact h.goOn _ _ (Or.inl rfl) (by simp) fun hcompleted => absurd hcompleted hstatus
    · exact h.goOn _ _ (Or.inr (by rw [hphase]; rfl)) (by simp) fun hcompleted =>
        absurd hcompleted hstatus
  | withoutZeros summary =>
    have hstatus := h.not_completed (by simp [hphase]) (by simp [hphase])
    dsimp only
    split
    · exact h.goOn _ _ (Or.inr (by rw [hphase]; rfl)) (by simp) fun hcompleted =>
        absurd hcompleted hstatus
    · exact h.leave (Or.inl rfl)
  | failing failedReason =>
    dsimp only
    split
    · exact (h.leave (Or.inr rfl)).setStudy (by simp)
    · exact h.leave (Or.inr rfl)
  | stopping summary =>
    have hstatus := h.not_completed (by simp [hphase]) (by simp [hphase])
    have hsummary := h.summary summary (by rw [hphase]; rfl)
    dsimp only
    split
    · refine ⟨h.ids, h.read, by simp [Phase.summary?], ?_, fun hcompleted => ?_⟩
      · rintro row hrow
        obtain rfl := Phase.completing.inj hrow
        rw [hsummary]
        exact ⟨rfl, rfl, rfl⟩
      · exact absurd hcompleted hstatus
    · exact h.leave (Or.inr rfl)
  | completing row =>
    have hcarries := h.completing row hphase
    exact ⟨h.ids, h.read, by simp [State.leave, Phase.summary?], by simp [State.leave],
      fun _ => ⟨hcarries, Or.inr rfl⟩⟩
  | ended => exact h

omit [DecidableEq T] in
theorem Sound.cancel (h : s.Sound) (now : ℕ) : (s.cancel now).Sound := by
  unfold State.cancel
  split
  · exact h
  split
  · exact h.setStudy (by simp)
  · exact h

theorem Sound.goto (h : s.Sound) (t : T) (phase : WorkerPhase) : (s.goto t phase).Sound :=
  ⟨h.ids, h.read, h.summary, h.completing, h.completed⟩

omit [DecidableEq T] in
theorem Sound.createTrial (h : s.Sound) (row : Trial) : (s.createTrial row).Sound := by
  unfold State.createTrial
  split
  · exact h
  · rename_i hfresh
    refine ⟨?_, h.read.trans (List.prefix_append _ _), h.summary, h.completing, h.completed⟩
    rw [List.map_append, List.nodup_append]
    refine ⟨h.ids, by simp, ?_⟩
    rintro id hid other hother rfl
    obtain rfl : id = row.id := by simpa using hother
    exact hfresh hid

theorem Sound.step (h : s.Sound) (e : Event T) : (s.step e).Sound := by
  cases e with
  | orchestrate now => exact h.orchestrate now
  | orchestratorDies => exact h.leave (Or.inl rfl)
  | cancel now => exact h.cancel now
  | deliver t inputs =>
    simp only [State.step]
    split
    · exact h.goto t _
    · exact h
  | work t =>
    simp only [State.step, State.work]
    split
    · exact h.goto t _
    · split
      · exact h.goto t _
      · exact h.goto t _
    · exact (h.createTrial _).goto t _
    · exact h
  | report t report =>
    simp only [State.step, State.report]
    split
    · split
      · exact h.goto t _
      · exact h.goto t _
    · exact h
  | workerDies t => exact h.goto t .idle

theorem Sound.run {cond : State T → Event T → Prop} (h : s.Sound) (hrun : Run cond s s') :
    s'.Sound :=
  EventRun.keeps (fun _ e hs _ => hs.step e) h hrun

/-! ## When the winner is recorded -/

omit [DecidableEq T] in
theorem Sound.read_append_late (h : s.Sound) : s.read ++ s.late = s.trials := by
  obtain ⟨rest, hrest⟩ := h.read
  simp [late, ← hrest]

omit [DecidableEq T] in
/-- The record is the winner exactly when no late trial overtakes. -/
theorem Sound.winnerRecorded_iff (h : s.Sound) (hstatus : s.study.status = .completed) :
    s.WinnerRecorded ↔ ∀ row ∈ s.late, ¬ Overtakes s.read s.studyId row := by
  obtain ⟨-, hmetric, hid⟩ := (h.completed hstatus).1
  have hlate := h.read_append_late
  constructor
  · intro hrecorded row hrow hovertakes
    obtain ⟨hmetric', hid'⟩ := hrecorded hstatus
    have hids : ((s.read ++ s.late).map Trial.id).Nodup := hlate ▸ h.ids
    apply not_sameWinner_append hids hrow hovertakes
    rw [hlate]
    exact ⟨hmetric.symm.trans hmetric', hid.symm.trans hid'⟩
  · intro hlast _
    obtain ⟨hmetric', hid'⟩ := sameWinner_append hlast
    rw [hlate] at hmetric' hid'
    exact ⟨hmetric.trans hmetric', hid.trans hid'⟩

omit [DecidableEq T] in
/-- A new trial leaves the winner of a completed study exactly when it does not overtake. -/
theorem Sound.winnerRecorded_createTrial_iff (h : s.Sound) (hs : s.WinnerRecorded)
    (hstatus : s.study.status = .completed) {row : Trial}
    (hfresh : row.id ∉ s.trials.map Trial.id) :
    (s.createTrial row).WinnerRecorded ↔ ¬ Overtakes s.trials s.studyId row := by
  obtain ⟨hmetric, hid⟩ := hs hstatus
  have hids := (h.createTrial row).ids
  have hcreate : s.createTrial row = { s with trials := s.trials ++ [row] } := if_neg hfresh
  rw [hcreate] at hids ⊢
  constructor
  · intro hrecorded hovertakes
    obtain ⟨hmetric', hid'⟩ := hrecorded hstatus
    exact not_sameWinner_append hids List.mem_cons_self hovertakes
      ⟨hmetric.symm.trans hmetric', hid.symm.trans hid'⟩
  · intro hbehind _
    have hlater : ∀ later ∈ [row], ¬ Overtakes s.trials s.studyId later := by
      intro later hlater
      rwa [List.mem_singleton.mp hlater]
    obtain ⟨hmetric', hid'⟩ := sameWinner_append hlater
    exact ⟨hmetric.trans hmetric', hid.trans hid'⟩

/-- A step that meets the condition keeps the winner recorded. -/
theorem Sound.winnerRecorded_step (h : s.Sound) (hs : s.WinnerRecorded) (he : s.Timely e) :
    (s.step e).WinnerRecorded := by
  cases e with
  | orchestrate now =>
    have hsound := h.orchestrate now
    show (s.orchestrate now).WinnerRecorded
    cases hphase : s.phase with
    | completing row =>
      intro hstatus
      refine (hsound.winnerRecorded_iff hstatus).mpr ?_ hstatus
      have hstep : s.orchestrate now = { s.leave .ended with study := row } := by
        simp [State.orchestrate, hphase]
      rw [hstep]
      exact he row hphase
    | failing failedReason =>
      simp only [State.orchestrate, hphase]
      split
      · rintro hstatus
        cases hstatus
      · exact hs
    | running =>
      simp only [State.orchestrate, hphase]
      exact hs
    | ended =>
      simp only [State.orchestrate, hphase]
      exact hs
    | _ =>
      simp only [State.orchestrate, hphase]
      split
      · exact hs
      · exact hs
  | cancel now =>
    simp only [State.step, State.cancel]
    split
    · exact hs
    split
    · rintro hstatus
      cases hstatus
    · exact hs
  | work t =>
    simp only [State.step, State.work]
    split
    · exact hs
    · split
      · exact hs
      · exact hs
    · rename_i row hworker
      show (s.createTrial row).WinnerRecorded
      by_cases hfresh : row.id ∈ s.trials.map Trial.id
      · rwa [State.createTrial, if_pos hfresh]
      intro hstatus
      have hcompleted : s.study.status = .completed := by
        rwa [State.createTrial, if_neg hfresh] at hstatus
      exact (h.winnerRecorded_createTrial_iff hs hcompleted hfresh).mpr
        (he row hcompleted hworker hfresh) hstatus
    · exact hs
  | orchestratorDies => exact hs
  | deliver t inputs =>
    simp only [State.step]
    split
    · exact hs
    · exact hs
  | report t report =>
    simp only [State.step, State.report]
    split
    · split
      · exact hs
      · exact hs
    · exact hs
  | workerDies t => exact hs

/-- A step that does not meet the condition leaves a completed study with another winner. -/
theorem Sound.not_winnerRecorded_step (h : s.Sound) (hs : s.WinnerRecorded) (he : ¬ s.Timely e) :
    ¬ (s.step e).WinnerRecorded := by
  cases e with
  | orchestrate now =>
    simp only [Timely, not_forall, not_not] at he
    obtain ⟨completed, hphase, row, hrow, hovertakes⟩ := he
    have hsound := h.orchestrate now
    have hstep : s.orchestrate now = { s.leave .ended with study := completed } := by
      simp [State.orchestrate, hphase]
    show ¬ (s.orchestrate now).WinnerRecorded
    rw [hstep] at hsound ⊢
    rw [hsound.winnerRecorded_iff (h.completing completed hphase).1]
    exact fun hlast => hlast row hrow hovertakes
  | work t =>
    simp only [Timely, not_forall, not_not] at he
    obtain ⟨row, hstatus, hworker, hfresh, hovertakes⟩ := he
    have hstep : s.step (.work t) = (s.createTrial row).goto t .idle := by
      simp [State.step, State.work, hworker]
    rw [hstep]
    show ¬ (s.createTrial row).WinnerRecorded
    rw [h.winnerRecorded_createTrial_iff hs hstatus hfresh]
    exact not_not.mpr hovertakes
  | _ => exact absurd trivial he

/-! ## Undisturbed ticks -/

/-- No trial was recorded after the summary that the orchestrator has in hand. -/
def UpToDate (s : State T) : Prop :=
  s.phase = .polling ∨ s.phase = .running ∨ s.phase = .ended ∨ s.late = []

omit [DecidableEq T] in
theorem UpToDate.orchestrate (h : s.UpToDate) (now : ℕ) : (s.orchestrate now).UpToDate := by
  unfold State.orchestrate
  cases hphase : s.phase with
  | polling =>
    dsimp only
    split
    · exact Or.inr (Or.inl rfl)
    · exact Or.inr (Or.inr (Or.inl rfl))
  | running => exact Or.inr (Or.inr (Or.inr (by simp [late])))
  | ended => exact h
  | _ =>
    have hlate : s.late = [] := by simpa [UpToDate, hphase] using h
    dsimp only
    repeat' split
    all_goals exact Or.inr (Or.inr (Or.inr hlate))

omit [DecidableEq T] in
theorem UpToDate.timely (h : s.UpToDate) (now : ℕ) : s.Timely (.orchestrate now) := by
  intro completed hphase row hrow
  have hlate : s.late = [] := by simpa [UpToDate, hphase] using h
  simp [hlate] at hrow

/-- Without trials that are recorded in between, the orchestrator's run meets the condition. -/
theorem UpToDate.run (h : s.UpToDate) (times : List ℕ) :
    Run Timely s (times.foldl State.orchestrate s) := by
  induction times generalizing s with
  | nil => exact Relation.ReflTransGen.refl
  | cons now times ih =>
    exact Relation.ReflTransGen.head ⟨.orchestrate now, h.timely now, rfl⟩
      (ih (h.orchestrate now))

/-! ## The winner of a completed study -/

/-- A completed study has the winner of its trials exactly when no trial that was recorded after the
summary overtakes those of the summary. So as long as none does, the winner is recorded; and the
first one that does leaves the study with another winner. -/
theorem winner_is_recorded {s₀ : State T} (hstart : s₀.Start) :
    (∀ s, Run (fun _ _ => True) s₀ s → s.study.status = .completed →
      (s.WinnerRecorded ↔ ∀ row ∈ s.late, ¬ Overtakes s.read s.studyId row)) ∧
    (∀ s, Run Timely s₀ s → s.WinnerRecorded) ∧
    ∀ s e, Run Timely s₀ s → ¬ s.Timely e → ¬ (s.step e).WinnerRecorded := by
  have hsound : ∀ {cond : State T → Event T → Prop} {s}, Run cond s₀ s → s.Sound := fun hrun =>
    hstart.sound.run hrun
  have htimely : ∀ s, Run Timely s₀ s → s.WinnerRecorded := by
    intro s hrun
    induction hrun with
    | refl => exact fun hstatus => absurd hstatus hstart.notCompleted
    | tail hbefore hstep ih =>
      obtain ⟨e, he, rfl⟩ := hstep
      exact (hsound hbefore).winnerRecorded_step ih he
  refine ⟨fun s hrun hstatus => (hsound hrun).winnerRecorded_iff hstatus, htimely, ?_⟩
  intro s e hrun he
  exact (hsound hrun).not_winnerRecorded_step (htimely s hrun) he

/-- A running study with a trial, and a time budget of a minute. -/
def budgeted : State ℕ where
  studyId := 7
  study := {
    objective := ⟨.mrr, none, .maximize⟩
    config := { timeBudgetMin := some 1 }
    status := .running }
  trials := [lowTrial]
  timeBudgetMin := some 1

theorem budgeted_start : budgeted.Start := ⟨by decide, rfl, rfl, by decide⟩

/-- The operations of a tick that stops at the end of the budget. -/
def lastTick : List ℕ := List.replicate 7 60000000

/-- Left alone, the study is completed with the winner of its trials. -/
theorem winner_is_recorded_budgeted :
    ∃ s, Run Timely budgeted s ∧ s.study.status = .completed ∧
      s.study.bestMetric = some (1 / 5) ∧ s.WinnerRecorded := by
  have hrun := UpToDate.run (s := budgeted) (Or.inl rfl) lastTick
  exact ⟨_, hrun, by decide +kernel, by decide +kernel,
    (winner_is_recorded budgeted_start).2.1 _ hrun⟩

/-- A second trial of the study, in flight when the budget ends. -/
def inFlightTrial : TrialInputs :=
  { mrrTrial bothAnswered with trialId := 2, optunaTrialNumber := 1 }

/-- A delivery that runs the trial, and scores more than the trial before. -/
def untilScored : List (Event ℕ) :=
  [.deliver 0 inFlightTrial, .work 0, .work 0, .report 0 (.finished "mrr" (.complete (4 / 5)))]

/-- The study is completed, and then the trial is recorded. -/
def afterwards : List (Event ℕ) :=
  untilScored ++ lastTick.map Event.orchestrate ++ [.work 0]

/-- The trial is recorded after the study is completed, which keeps the metric of the first. -/
theorem late_trial_overtakes :
    ∃ s, Run (fun _ _ => True) budgeted s ∧ s.study.status = .completed ∧
      s.study.bestMetric = some (1 / 5) ∧ s.study.bestTrialId = some 1 ∧
      (aggregateTrialsSummary s.trials s.studyId).bestPrimaryMetric = some (4 / 5) ∧
      (aggregateTrialsSummary s.trials s.studyId).bestTrialId = some 2 ∧ ¬ s.WinnerRecorded := by
  have hrun := eventRun_foldl State.step afterwards (fun _ _ _ => trivial) budgeted
  have hstatus : (afterwards.foldl State.step budgeted).study.status = .completed := by
    decide +kernel
  refine ⟨_, hrun, hstatus, by decide +kernel, by decide +kernel, by decide +kernel,
    by decide +kernel, fun h => ?_⟩
  exact absurd (h hstatus).2 (by decide +kernel)

end State

end RelyLoop.Trials.FrozenWinner
