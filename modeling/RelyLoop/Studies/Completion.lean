import RelyLoop.Studies.StudyState

/-!
# What a completed study records

The completion path: a tick aggregates the trials, and `_stop` completes the
study with the summary. The aggregation takes the greatest metric whatever the
direction of the objective is, so the record is the optimum exactly when the
study maximizes or all its metrics agree.
-/

namespace RelyLoop.Studies

open Concurrency Store

/-- `x` is at least as good as `y` in a direction. -/
def Direction.AtLeastAsGood : Direction → ℚ → ℚ → Prop
  | .maximize, x, y => y ≤ x
  | .minimize, x, y => x ≤ y

variable {T : Type} [DecidableEq T] {t : T} {s : Store T ℕ Study} {study : Study} {studyId : ℕ}

/-- The session of a tick that has seen the study running, before `_stop`. -/
structure Stoppable (t : T) (studyId : ℕ) (study : Study) (s : Store T ℕ Study) : Prop where
  committed : s.committed studyId = some study
  running : study.status = .running
  unlocked : s.lock studyId = none
  loaded : ∀ loaded, s.identity t studyId = some loaded → loaded.status = .running

/-- The study as `complete_study` leaves it. -/
def completedWith (now : ℕ) (summary : TrialsSummary) (study : Study) : Study :=
  { study with
    status := .completed
    completedAt := some now
    bestMetric := summary.bestPrimaryMetric
    bestTrialId := summary.bestTrialId }

/-- An undisturbed `_stop` commits the summary it is given. -/
theorem stop_alone (h : Stoppable t studyId study s) (now : ℕ) (summary : TrialsSummary) :
    ∃ s', (stop now studyId summary).alone (Store.exec t) s = some (s', .ok ()) ∧
      s'.committed studyId = some (completedWith now summary study) := by
  have hvis : s.visible t studyId = some study := by
    rw [visible_of_not_held (not_held_of_free h.unlocked), h.committed]
  have hfree := not_lockedByOther_of_free (t := t) h.unlocked
  obtain ⟨loaded, hobject, hstatus⟩ :
      ∃ loaded, s.object t studyId = some loaded ∧ loaded.status = .running := by
    cases hidentity : s.identity t studyId with
    | none => exact ⟨study, by simp [object, hvis, hidentity], h.running⟩
    | some loaded => exact ⟨loaded, by simp [object, hvis, hidentity], h.loaded loaded hidentity⟩
  let f : Study → Study := completedWith now summary
  let s₁ := (s.acquire t studyId).load t studyId
  let s₂ := (s₁.write t studyId (f study)).remember t studyId ((s₁.identity t studyId).map f)
  have hload : Store.exec t s (.selectForUpdate studyId) = some (s₁, some loaded) := by
    simp [Store.exec, hvis, hfree, hobject, s₁]
  have hflush : Store.exec t s₁ (.update studyId f) = some (s₂, ()) := by
    have hvis₁ : s₁.visible t studyId = some study := by simp [s₁, hvis]
    have hfree₁ : s₁.lockedByOther t studyId = false :=
      not_lockedByOther_of_held (by simp [s₁, held_acquire])
    simp [Store.exec, hvis₁, hfree₁, s₂]
  have hlegal : StudyStatus.completed ∈ legalTransitions loaded.status := by
    rw [hstatus]
    decide
  have hcheck : ensureLegal loaded.status .completed = .done () := by simp [ensureLegal, hlegal]
  refine ⟨s₂.commit t, (Program.alone_call hload).trans ?_, ?_⟩
  · simp only [Program.done_bind, Program.pure_eq, Program.bind_eq, hcheck]
    exact (Program.alone_call hflush).trans rfl
  · rw [committed_commit]
    exact visible_of_written (by simp [s₂, f])

/-! ## The record and the optimum -/

/-- The record of a study names an optimal trial in the direction `d`, the one
with the lowest number. -/
def RecordsOptimum (d : Direction) (trials : List Trial) (studyId : ℕ) (study : Study) : Prop :=
  ∃ best winner, study.bestMetric = some best ∧ study.bestTrialId = some winner.id ∧
    Scored trials studyId winner best ∧
    ∀ other metric, Scored trials studyId other metric → d.AtLeastAsGood best metric ∧
      (metric = best → winner.optunaTrialNumber ≤ other.optunaTrialNumber)

/-- Whatever the order of the trial rows, the undisturbed completion path
commits a record of the optimum in the study's own direction, with one and the
same metric. -/
def CompletionRecordsOptimum (t : T) (now studyId : ℕ) (trials : List Trial) (study : Study)
    (s : Store T ℕ Study) : Prop :=
  ∃ best, ∀ rows : List Trial, rows.Perm trials →
    ∃ s' study', (stop now studyId (aggregateTrialsSummary rows studyId)).alone (Store.exec t) s =
        some (s', .ok ()) ∧
      s'.committed studyId = some study' ∧ study'.status = .completed ∧
      study'.bestMetric = some best ∧
      RecordsOptimum study.objective.direction rows studyId study'

/-- All scored trials of the study have the same metric. -/
def MetricsAgree (trials : List Trial) (studyId : ℕ) : Prop :=
  ∀ x y metric metric', Scored trials studyId x metric → Scored trials studyId y metric' →
    metric = metric'

/-- The aggregation records the greatest metric and its winner. -/
theorem recordsOptimum_maximize {trials : List Trial} {trial : Trial} {metric : ℚ}
    (h : Scored trials studyId trial metric) (now : ℕ) (study : Study) :
    RecordsOptimum .maximize trials studyId
      (completedWith now (aggregateTrialsSummary trials studyId) study) := by
  obtain ⟨best, hbest⟩ := exists_bestOf h
  obtain ⟨⟨first, hfirst⟩, hgreatest⟩ := bestOf_eq_some_iff.mp hbest
  obtain ⟨winner, hwinner, hscored, hlowest⟩ := winnerOf_spec hfirst
  refine ⟨best, winner, ?_, ?_, hscored, fun other m hother => ⟨hgreatest other m hother, ?_⟩⟩
  · simp [completedWith, aggregateTrialsSummary, hbest]
  · simp [completedWith, aggregateTrialsSummary, hbest, hwinner]
  · rintro rfl
    exact hlowest other hother

/-- Where all metrics agree, the greatest metric is the optimum in any direction. -/
theorem RecordsOptimum.of_agree {d : Direction} {trials : List Trial}
    (hagree : MetricsAgree trials studyId)
    (h : RecordsOptimum .maximize trials studyId study) :
    RecordsOptimum d trials studyId study := by
  obtain ⟨best, winner, hbest, hid, hwinner, hothers⟩ := h
  refine ⟨best, winner, hbest, hid, hwinner, fun other metric hother => ⟨?_, ?_⟩⟩
  · obtain rfl := hagree winner other best metric hwinner hother
    cases d <;> exact le_rfl
  · exact (hothers other metric hother).2

/-- A running study that minimizes, and its table. -/
def minimizing : Study where
  objective := ⟨.ndcg, some .k10, .minimize⟩
  config := { maxTrials := some 2 }
  status := .running

/-- The table that holds `minimizing` alone. -/
def minimizingTable : Store ℕ ℕ Study where
  keys := [7]
  committed k := if k = 7 then some minimizing else none
  lock _ := none
  identity _ _ := none

/-- A complete trial of `minimizing` with the metric 1/5. -/
def lowTrial : Trial :=
  { id := 1, studyId := 7, optunaTrialNumber := 0, status := .complete,
    primaryMetric := some (1 / 5) }

/-- A complete trial of `minimizing` with the metric 4/5. -/
def highTrial : Trial :=
  { id := 2, studyId := 7, optunaTrialNumber := 1, status := .complete,
    primaryMetric := some (4 / 5) }

theorem stoppable_minimizing : Stoppable 0 7 minimizing minimizingTable :=
  ⟨rfl, rfl, rfl, fun _ h => by cases h⟩

end RelyLoop.Studies
