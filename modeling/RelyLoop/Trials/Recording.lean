import RelyLoop.Trials.Workers
import Mathlib.Data.List.Dedup

/-!
# What a trial records

A delivery that meets no failure but those of the search records its outcome. The
outcome is a score as soon as the adapter returns hits for some judged query, so
a failure that the adapter turns into an empty list of hits is scored.
-/

namespace RelyLoop.Trials

open Concurrency Eval Studies Store

/-- The primary metric and the scores of a trial, or the exception of its search. -/
def outcome (ev : Evaluator) (inputs : TrialInputs) : Except TrialException (ℚ × ScoreResult) :=
  match objectiveMetricKey inputs.objective with
  | .error e => .error (.other e.text)
  | .ok objectiveKey => searchAndScore ev inputs objectiveKey

/-- The trial has no score whatever comes of the single queries: the adapter
raises, no query of the batch is judged, or the metric set does not keep the
objective's token, because some token names no measure or because another
spelling of the measure comes later in the set. -/
def FailsAnyway (ev : Evaluator) (inputs : TrialInputs) : Prop :=
  inputs.call.HardFails ∨
  (∀ queryId ∈ inputs.call.queryIds, ¬inputs.qrels.judged queryId) ∨
  ∀ objectiveKey, objectiveMetricKey inputs.objective = .ok objectiveKey →
    (∃ token ∈ metricsSet objectiveKey inputs.config, ∀ measure,
      translateMetricName token ≠ .ok measure) ∨
    ¬LastSpelling (ev.setOrder (metricsSet objectiveKey inputs.config)) objectiveKey

variable {ev : Evaluator} {inputs : TrialInputs}

/-- A query has an entry in the run when it is one of the batch. -/
theorem validQid_runDict_iff {hits : Python.Dict String (List ScoredHit)}
    (h : inputs.call.searchBatch false = .ok hits) (qrels : Qrels) (queryId : String) :
    validQid qrels (runDict hits) queryId ↔
      queryId ∈ inputs.call.queryIds ∧ qrels.judged queryId := by
  have hentry : ((runDict hits).get? queryId).isSome ↔ queryId ∈ inputs.call.queryIds := by
    rw [← searchBatch_keys h, runDict, Python.Dict.get?_mapValues, Option.isSome_map]
  rw [validQid, Bool.and_eq_true, hentry, and_comm]

theorem searchAndScore_isOk_iff (hev : ev.Documented) (inputs : TrialInputs)
    (objectiveKey : String) :
    (∃ scored, searchAndScore ev inputs objectiveKey = .ok scored) ↔
      ¬inputs.call.HardFails ∧
      (∃ queryId ∈ inputs.call.queryIds, inputs.qrels.judged queryId) ∧
      (∀ token ∈ metricsSet objectiveKey inputs.config,
        ∃ measure, translateMetricName token = .ok measure) ∧
      LastSpelling (ev.setOrder (metricsSet objectiveKey inputs.config)) objectiveKey := by
  have hmem : ∀ token, token ∈ ev.setOrder (metricsSet objectiveKey inputs.config) ↔
      token ∈ metricsSet objectiveKey inputs.config := fun token => by
    rw [(hev.setOrder _).mem_iff, List.mem_dedup]
  have hkey : objectiveKey ∈ ev.setOrder (metricsSet objectiveKey inputs.config) :=
    (hmem objectiveKey).mpr List.mem_cons_self
  rw [← searchBatch_isOk_iff, searchAndScore]
  cases hsearch : inputs.call.searchBatch false with
  | error e => simp
  | ok hits =>
    have hscore : (∃ result, score ev inputs.qrels (runDict hits)
        (ev.setOrder (metricsSet objectiveKey inputs.config)) = .ok result ∧
          (result.aggregate.get? objectiveKey).isSome) ↔ _ := score_isSome_iff hev hkey
    simp only [hmem, validQid_runDict_iff hsearch] at hscore
    have hsucceeds : ∃ found, (Except.ok hits : Except SearchError _) = .ok found := ⟨hits, rfl⟩
    simp only [hsucceeds, true_and]
    rw [and_left_comm, ← hscore]
    cases score ev inputs.qrels (runDict hits)
        (ev.setOrder (metricsSet objectiveKey inputs.config)) with
    | error e => simp
    | ok result => cases hprimary : result.aggregate.get? objectiveKey <;> simp [hprimary]

/-- A trial has an outcome with a score unless it fails anyway. -/
theorem outcome_isOk_iff (hev : ev.Documented) (inputs : TrialInputs) :
    (∃ scored, outcome ev inputs = .ok scored) ↔ ¬FailsAnyway ev inputs := by
  unfold outcome FailsAnyway
  cases hkey : objectiveMetricKey inputs.objective with
  | error e => simp
  | ok objectiveKey =>
    simp only [searchAndScore_isOk_iff hev, Except.ok.injEq, forall_eq', not_or, not_forall,
      not_not, not_exists, exists_prop, not_and]

/-- The exceptions of an outcome are none of the infrastructure. -/
theorem outcome_error {exc : TrialException} (h : outcome ev inputs = .error exc) :
    ∃ message, exc = .other message := by
  unfold outcome searchAndScore at h
  split at h
  · exact ⟨_, (Except.error.inj h).symm⟩
  split at h
  · exact ⟨_, (Except.error.inj h).symm⟩
  split at h
  · exact ⟨_, (Except.error.inj h).symm⟩
  split at h
  · exact ⟨_, (Except.error.inj h).symm⟩
  · cases h

/-! ## Undisturbed deliveries -/

variable {T : Type} [DecidableEq T] {t : T} {w : Beside T ℕ Trial Optuna}

/-- The id of the trial is new to the table. -/
structure Unused {T : Type} (trialId : ℕ) (s : Store T ℕ Trial) : Prop where
  keys : trialId ∉ s.keys
  committed : s.committed trialId = none
  lock : s.lock trialId = none

/-- The table in which a session has inserted a row, and committed it. -/
def recorded (t : T) (s : Store T ℕ Trial) (row : Trial) : Store T ℕ Trial :=
  ((({ s with keys := s.keys ++ [row.id] } : Store T ℕ Trial).write t row.id row).remember t row.id
    (some row)).commit t

theorem committed_recorded (t : T) (s : Store T ℕ Trial) (row : Trial) :
    (recorded t s row).committed row.id = some row := by
  rw [recorded, committed_commit, visible_remember]
  exact visible_of_written held_write

theorem Unused.rollback {trialId : ℕ} {s : Store T ℕ Trial} (h : Unused trialId s) :
    Unused trialId (s.rollback t) where
  keys := h.keys
  committed := h.committed
  lock := by simp [Store.rollback, Store.unlock, h.lock]

/-- The effect of a statement, alone. -/
abbrev run (ev : Evaluator) (t : T) {α : Type} (p : Db α) (w : Beside T ℕ Trial Optuna) :
    Option (Beside T ℕ Trial Optuna × Except TrialFailure α) :=
  p.alone ((trialSystem T ev).exec t) w

theorem run_statement {o : RowOp ℕ Trial} {s : Store T ℕ Trial} {a : o.Res}
    (h : Store.exec t w.table o = some (s, a)) :
    run ev t (statement o) w = some (⟨s, w.outside⟩, .ok a) := by
  have hexec : (trialSystem T ev).exec t w (.row o) = some (⟨s, w.outside⟩, a) := by
    simp [trialSystem, besideSystem, h]
  exact (Program.alone_call hexec).trans rfl

theorem run_createTrial {row : Trial} (h : Unused row.id w.table) :
    run ev t (createTrial row) w = some (⟨recorded t w.table row, w.outside⟩, .ok ()) := by
  have hinsert : run ev t (statement (.insert row.id row)) w = some
      (⟨(({ w.table with keys := w.table.keys ++ [row.id] } : Store T ℕ Trial).write t row.id
        row).remember t row.id (some row), w.outside⟩, .ok ()) := by
    refine run_statement ?_
    simp [Store.exec, h.keys, h.committed, h.lock]
  exact (Program.alone_bind_ok _ hinsert).trans (run_statement rfl)

/-- The search for a terminal row finds none. -/
theorem run_select {p : ℕ → Trial → Bool} {before : ℕ × Trial → ℕ × Trial → Bool}
    (hclean : w.table.Clean t)
    (h : ∀ key row, w.table.committed key = some row → p key row = false) :
    run ev t (statement (.selectWhere p before)) w = some (w, .ok []) := by
  have hnone : w.table.hits t p before = [] := by
    refine List.eq_nil_iff_forall_not_mem.mpr fun x hx => ?_
    obtain ⟨hvisible, hp⟩ := mem_hits hx
    rw [hclean.visible] at hvisible
    simp [h x.1 x.2 hvisible] at hp
  refine run_statement ?_
  simp [Store.exec, hnone]

/-- The session is closed in the end. -/
theorem run_inSession {w' : Beside T ℕ Trial Optuna} {p : Db Unit}
    (h : run ev t p w = some (w', .ok ())) :
    run ev t (inSession p) w = some (⟨w'.table.rollback t, w'.outside⟩, .ok ()) := by
  have hclose : run ev t (statement .rollback) w' =
      some (⟨w'.table.rollback t, w'.outside⟩, .ok ()) := run_statement rfl
  refine Program.alone_handle_ok _ ((Program.alone_bind_ok _ h).trans ?_)
  exact (Program.alone_bind_ok _ hclose).trans rfl

theorem run_outside {o : OptunaOp} {optuna : Optuna} {a : o.Res}
    (h : execOptuna w.outside o = some (optuna, a)) :
    run ev t (Program.perform (BesideOp.outside o)) w = some (⟨w.table, optuna⟩, .ok a) := by
  have hexec : (trialSystem T ev).exec t w (.outside o) = some (⟨w.table, optuna⟩, a) := by
    simp [trialSystem, besideSystem, h]
  exact (Program.alone_call hexec).trans rfl

theorem run_tell {state : TrialState}
    (hrunning : w.outside inputs.studyId inputs.optunaTrialNumber = .running) :
    run ev t (tell inputs true state none) w = some
      (⟨w.table, w.outside.update inputs.studyId inputs.optunaTrialNumber state⟩, .ok none) := by
  refine run_outside ?_
  simp [execOptuna, hrunning]

/-! ## `run_trial` -/

/-- A running trial without a row, and a session that has just begun. -/
structure Pending (t : T) (inputs : TrialInputs) (w : Beside T ℕ Trial Optuna) : Prop where
  fresh : Fresh t w
  unused : Unused inputs.trialId w.table
  noRow : ∀ key row, w.table.committed key = some row →
    ¬(row.studyId = inputs.studyId ∧ row.optunaTrialNumber = inputs.optunaTrialNumber)
  running : w.outside inputs.studyId inputs.optunaTrialNumber = .running

/-- The checks of `run_trial` let a pending trial pass. -/
theorem run_attemptTrial (h : Pending t inputs w) :
    run ev t (attemptTrial ev { inputs }) w = match objectiveMetricKey inputs.objective with
      | .error e => some (w, .error { exc := .other e.text, studyLoaded := true })
      | .ok objectiveKey => run ev t (executeTrial ev { inputs } objectiveKey) w := by
  have hnone : run ev t (existingTerminalAppRow inputs.studyId inputs.optunaTrialNumber) w =
      some (w, .ok none) := by
    refine (Program.alone_bind_ok _ (run_select h.fresh.1 fun key row hrow => ?_)).trans rfl
    exact decide_eq_false (h.noRow key row hrow)
  have hsnapshot : run ev t (snapshotOptunaTrial inputs.studyId inputs.optunaTrialNumber) w =
      some (w, .ok .running) := by
    refine run_outside ?_
    simp [execOptuna, h.running]
  refine (Program.alone_bind_ok _ hnone).trans ?_
  cases objectiveMetricKey inputs.objective with
  | error e => rfl
  | ok objectiveKey => exact Program.alone_bind_ok _ hsnapshot

/-- The body of `run_trial` comes down to the outcome. -/
theorem run_attemptTrial_ok (h : Pending t inputs w) {primary : ℚ} {scored : ScoreResult}
    (houtcome : outcome ev inputs = .ok (primary, scored)) :
    run ev t (attemptTrial ev { inputs }) w = some
      (⟨recorded t w.table (completeRow inputs primary scored),
        w.outside.update inputs.studyId inputs.optunaTrialNumber (.complete primary)⟩, .ok ()) := by
  rw [run_attemptTrial h]
  unfold outcome at houtcome
  cases hkey : objectiveMetricKey inputs.objective with
  | error e => simp [hkey] at houtcome
  | ok objectiveKey =>
    rw [hkey] at houtcome
    dsimp only at houtcome ⊢
    have htell : run ev t (tell inputs true (.complete primary) none) w = some (⟨w.table,
        w.outside.update inputs.studyId inputs.optunaTrialNumber (.complete primary)⟩, .ok none) :=
      run_tell h.running
    have hcreate : run ev t (createTrial (completeRow inputs primary scored))
        ⟨w.table, w.outside.update inputs.studyId inputs.optunaTrialNumber (.complete primary)⟩ =
        some (⟨recorded t w.table (completeRow inputs primary scored),
          w.outside.update inputs.studyId inputs.optunaTrialNumber (.complete primary)⟩, .ok ()) :=
      run_createTrial h.unused
    simp only [executeTrial, raiseIfAny, Program.pure_eq, Program.bind_eq, Program.done_bind,
      houtcome]
    exact (Program.alone_bind_ok _ htell).trans hcreate

theorem run_attemptTrial_error (h : Pending t inputs w) {exc : TrialException}
    (houtcome : outcome ev inputs = .error exc) :
    run ev t (attemptTrial ev { inputs }) w = some (w, .error { exc, studyLoaded := true }) := by
  rw [run_attemptTrial h]
  unfold outcome at houtcome
  cases hkey : objectiveMetricKey inputs.objective with
  | error e =>
    rw [hkey] at houtcome
    simp [← Except.error.inj houtcome]
  | ok objectiveKey =>
    rw [hkey] at houtcome
    dsimp only at houtcome ⊢
    simp only [executeTrial, raiseIfAny, Program.pure_eq, Program.bind_eq, Program.done_bind,
      houtcome]
    rfl

/-- The handler of `run_trial` tells the optimizer, and writes the failed row. -/
theorem run_recordFailure (h : Pending t inputs w) (message : String) :
    run ev t (recordFailure { inputs } { exc := .other message, studyLoaded := true }) w = some
      (⟨recorded t (w.table.rollback t) (failedRow inputs (.other message)),
        w.outside.update inputs.studyId inputs.optunaTrialNumber .fail⟩, .ok ()) := by
  have hrollback : run ev t (statement .rollback) w =
      some (⟨w.table.rollback t, w.outside⟩, .ok ()) := run_statement rfl
  have htell : run ev t (tell inputs true .fail none) ⟨w.table.rollback t, w.outside⟩ = some
      (⟨w.table.rollback t, w.outside.update inputs.studyId inputs.optunaTrialNumber .fail⟩,
        .ok none) := run_tell h.running
  have hcreate : run ev t (createTrial (failedRow inputs (.other message)))
      ⟨w.table.rollback t, w.outside.update inputs.studyId inputs.optunaTrialNumber .fail⟩ =
      some (⟨recorded t (w.table.rollback t) (failedRow inputs (.other message)),
        w.outside.update inputs.studyId inputs.optunaTrialNumber .fail⟩, .ok ()) :=
    run_createTrial h.unused.rollback
  refine (Program.alone_bind_ok _ hrollback).trans ?_
  exact (Program.alone_bind_ok _ htell).trans hcreate

/-- What a delivery of `run_trial` leaves: the row and the state of its outcome. -/
theorem run_runTrial (ev : Evaluator) (h : Pending t inputs w) :
    ∃ w', run ev t (runTrial ev { inputs }) w = some (w', .ok ()) ∧
      (∀ primary scored, outcome ev inputs = .ok (primary, scored) →
        w'.table.committed inputs.trialId = some (completeRow inputs primary scored) ∧
        w'.outside inputs.studyId inputs.optunaTrialNumber = .complete primary) ∧
      (∀ exc, outcome ev inputs = .error exc →
        w'.table.committed inputs.trialId = some (failedRow inputs exc) ∧
        w'.outside inputs.studyId inputs.optunaTrialNumber = .fail) := by
  cases houtcome : outcome ev inputs with
  | ok result =>
    obtain ⟨primary, scored⟩ := result
    have hattempt := Program.alone_handle_ok (recordFailure { inputs })
      (run_attemptTrial_ok h houtcome)
    refine ⟨_, run_inSession hattempt, fun primary' scored' heq => ?_, fun exc heq => ?_⟩
    · obtain ⟨rfl, rfl⟩ := Prod.mk.inj (Except.ok.inj heq)
      refine ⟨committed_recorded t w.table (completeRow inputs primary scored), ?_⟩
      simp [Optuna.update]
    · cases heq
  | error exc =>
    obtain ⟨message, rfl⟩ := outcome_error houtcome
    have hattempt := Program.alone_handle_error (recordFailure { inputs })
      (run_attemptTrial_error h houtcome)
    refine ⟨_, run_inSession (hattempt.trans (run_recordFailure h message)),
      fun primary scored heq => ?_, fun exc heq => ?_⟩
    · cases heq
    · obtain rfl := Except.error.inj heq
      refine ⟨committed_recorded t _ (failedRow inputs (.other message)), ?_⟩
      simp [Optuna.update]

/-! ## `run_baseline_trial` -/

/-- The row that a baseline trial records for its outcome. -/
def baselineRow (inputs : TrialInputs) : Except TrialException (ℚ × ScoreResult) → Trial
  | .ok (primary, scored) => { completeRow inputs.baseline primary scored with isBaseline := true }
  | .error exc => { failedRow inputs.baseline exc with isBaseline := true }

/-- The body of `run_baseline_trial` comes down to the outcome. -/
theorem run_attemptBaseline (hfresh : Fresh t w) (hunused : Unused inputs.trialId w.table) :
    run ev t (attemptBaseline ev { inputs }) w = match outcome ev inputs with
      | .error exc => some (w, .error { exc })
      | .ok result => some (⟨recorded t w.table (baselineRow inputs (.ok result)), w.outside⟩,
          .ok ()) := by
  have hnone : run ev t (existingTerminalRow inputs.trialId) w = some (w, .ok none) := by
    refine (Program.alone_bind_ok _ (run_select hfresh.1 fun key row hrow => ?_)).trans rfl
    refine decide_eq_false fun hkey => ?_
    rw [hkey, hunused.committed] at hrow
    cases hrow
  refine (Program.alone_bind_ok _ hnone).trans ?_
  unfold outcome
  cases hkey : objectiveMetricKey inputs.objective with
  | error e => rfl
  | ok objectiveKey =>
    cases houtcome : searchAndScore ev inputs objectiveKey with
    | error exc => simp [raiseIfAny, houtcome, Program.alone]
    | ok result =>
      obtain ⟨primary, scored⟩ := result
      have hcreate : run ev t (createTrial (baselineRow inputs (.ok (primary, scored)))) w =
          some (⟨recorded t w.table (baselineRow inputs (.ok (primary, scored))), w.outside⟩,
            .ok ()) := run_createTrial hunused
      simp only [raiseIfAny, Program.pure_eq, Program.bind_eq, Program.done_bind,
        Bool.false_eq_true, if_false, houtcome]
      exact hcreate

/-- What a delivery of `run_baseline_trial` leaves. -/
theorem run_runBaselineTrial (ev : Evaluator) (hfresh : Fresh t w)
    (hunused : Unused inputs.trialId w.table) :
    ∃ w', run ev t (runBaselineTrial ev { inputs }) w = some (w', .ok ()) ∧
      w'.outside = w.outside ∧
      w'.table.committed inputs.trialId = some (baselineRow inputs (outcome ev inputs)) := by
  have hattempt : run ev t (attemptBaseline ev { inputs }) w = _ :=
    run_attemptBaseline hfresh hunused
  cases houtcome : outcome ev inputs with
  | ok result =>
    rw [houtcome] at hattempt
    have hhandled := Program.alone_handle_ok (recordBaselineFailure { inputs }) hattempt
    exact ⟨_, run_inSession hhandled, rfl,
      committed_recorded t w.table (baselineRow inputs (.ok result))⟩
  | error exc =>
    rw [houtcome] at hattempt
    obtain ⟨message, rfl⟩ := outcome_error houtcome
    have hrollback : run ev t (statement .rollback) w =
        some (⟨w.table.rollback t, w.outside⟩, .ok ()) := run_statement rfl
    have hcreate : run ev t (createTrial (baselineRow inputs (.error (.other message))))
        ⟨w.table.rollback t, w.outside⟩ = some (⟨recorded t (w.table.rollback t)
          (baselineRow inputs (.error (.other message))), w.outside⟩, .ok ()) :=
      run_createTrial hunused.rollback
    have hhandled := (Program.alone_handle_error (recordBaselineFailure { inputs }) hattempt).trans
      ((Program.alone_bind_ok _ hrollback).trans hcreate)
    exact ⟨_, run_inSession hhandled, rfl,
      committed_recorded t _ (baselineRow inputs (.error (.other message)))⟩

/-! ## Honest records -/

/-- A delivery of `run_trial` for a pending trial records a complete row, and
tells the optimizer a value, only if the engine has answered every query, and
records a failed row if it has not. -/
def OptunaTrialHonest (t : T) (ev : Evaluator) (inputs : TrialInputs) : Prop :=
  ∀ w, Pending t inputs w → ∃ w' row, run ev t (runTrial ev { inputs }) w = some (w', .ok ()) ∧
    w'.table.committed inputs.trialId = some row ∧
    (row.status = .complete → inputs.call.AnsweredAll) ∧
    (∀ value, w'.outside inputs.studyId inputs.optunaTrialNumber = .complete value →
      inputs.call.AnsweredAll) ∧
    (¬inputs.call.AnsweredAll → row.status = .failed)

/-- A delivery of `run_baseline_trial` for a new trial records a complete row only
if the engine has answered every query, records a failed row if it has not, and
tells the optimizer nothing. -/
def BaselineTrialHonest (t : T) (ev : Evaluator) (inputs : TrialInputs) : Prop :=
  ∀ w, Fresh t w → Unused inputs.trialId w.table →
    ∃ w' row, run ev t (runBaselineTrial ev { inputs }) w = some (w', .ok ()) ∧
      w'.table.committed inputs.trialId = some row ∧ w'.outside = w.outside ∧
      (row.status = .complete → inputs.call.AnsweredAll) ∧
      (¬inputs.call.AnsweredAll → row.status = .failed)

/-- An empty table, and trials that are running. -/
def nothingRecorded {T : Type} : Beside T ℕ Trial Optuna where
  table :=
    { keys := []
      committed := fun _ => none
      lock := fun _ => none
      identity := fun _ _ => none }
  outside := fun _ _ => .running

theorem unused_nothingRecorded {T : Type} (trialId : ℕ) :
    Unused trialId (nothingRecorded : Beside T ℕ Trial Optuna).table :=
  ⟨List.not_mem_nil, rfl, rfl⟩

theorem fresh_nothingRecorded (t : T) : Fresh t (nothingRecorded : Beside T ℕ Trial Optuna) :=
  ⟨fun _ => rfl, fun _ => rfl⟩

theorem pending_nothingRecorded (t : T) (inputs : TrialInputs) :
    Pending t inputs (nothingRecorded : Beside T ℕ Trial Optuna) where
  fresh := fresh_nothingRecorded t
  unused := unused_nothingRecorded inputs.trialId
  noRow _ _ h := by cases h
  running := rfl

/-- `run_trial` is honest when a score means that every query was answered. -/
theorem optunaTrialHonest_iff (t : T) (ev : Evaluator) (inputs : TrialInputs) :
    OptunaTrialHonest t ev inputs ↔
      ((∃ scored, outcome ev inputs = .ok scored) → inputs.call.AnsweredAll) := by
  constructor
  · rintro hhonest ⟨⟨primary, scored⟩, houtcome⟩
    have hpending := pending_nothingRecorded t inputs
    obtain ⟨w', row, hrun, hrow, hcomplete, -, -⟩ := hhonest _ hpending
    obtain ⟨w₁, hrun₁, hok, -⟩ := run_runTrial ev hpending
    obtain ⟨rfl, -⟩ := Prod.mk.inj (Option.some.inj (hrun.symm.trans hrun₁))
    have hrow₁ := (hok primary scored houtcome).1
    obtain rfl := Option.some.inj (hrow.symm.trans hrow₁)
    exact hcomplete rfl
  · intro hanswered w hpending
    obtain ⟨w', hrun, hok, herror⟩ := run_runTrial ev hpending
    cases houtcome : outcome ev inputs with
    | ok result =>
      obtain ⟨hrow, hstate⟩ := hok result.1 result.2 houtcome
      have hall := hanswered ⟨result, houtcome⟩
      exact ⟨w', _, hrun, hrow, fun _ => hall, fun _ _ => hall, fun hnot => absurd hall hnot⟩
    | error exc =>
      obtain ⟨hrow, hstate⟩ := herror exc houtcome
      have hfailed : (failedRow inputs exc).status = .failed := rfl
      refine ⟨w', failedRow inputs exc, hrun, hrow, fun h => ?_, fun value h => ?_,
        fun _ => hfailed⟩
      · simp [hfailed] at h
      · simp [hstate] at h

/-- `run_baseline_trial` is honest when a score means that every query was answered. -/
theorem baselineTrialHonest_iff (t : T) (ev : Evaluator) (inputs : TrialInputs) :
    BaselineTrialHonest t ev inputs ↔
      ((∃ scored, outcome ev inputs = .ok scored) → inputs.call.AnsweredAll) := by
  constructor
  · rintro hhonest ⟨result, houtcome⟩
    have hfresh := fresh_nothingRecorded t
    have hunused : Unused inputs.trialId (nothingRecorded : Beside T ℕ Trial Optuna).table :=
      unused_nothingRecorded inputs.trialId
    obtain ⟨w', row, hrun, hrow, -, hcomplete, -⟩ := hhonest _ hfresh hunused
    obtain ⟨w₁, hrun₁, -, hrow₁⟩ := run_runBaselineTrial ev hfresh hunused
    obtain ⟨rfl, -⟩ := Prod.mk.inj (Option.some.inj (hrun.symm.trans hrun₁))
    obtain rfl := Option.some.inj (hrow.symm.trans hrow₁)
    exact hcomplete (by rw [houtcome]; rfl)
  · intro hanswered w hfresh hunused
    obtain ⟨w', hrun, hsame, hrow⟩ := run_runBaselineTrial ev hfresh hunused
    cases houtcome : outcome ev inputs with
    | ok result =>
      have hall := hanswered ⟨result, houtcome⟩
      exact ⟨w', _, hrun, hrow, hsame, fun _ => hall, fun hnot => absurd hall hnot⟩
    | error exc =>
      have hfailed : (baselineRow inputs (outcome ev inputs)).status = .failed := by
        rw [houtcome]
        rfl
      refine ⟨w', _, hrun, hrow, hsame, fun h => ?_, fun _ => hfailed⟩
      simp [hfailed] at h

/-- The records of both workers are honest exactly when no failure of the engine
is turned into an empty list of hits, or the trial fails anyway. -/
theorem records_honest_iff (t : T) (hev : ev.Documented) (inputs : TrialInputs) :
    (OptunaTrialHonest t ev inputs ∧ BaselineTrialHonest t ev inputs) ↔
      ¬inputs.call.SoftFails ∨ FailsAnyway ev inputs := by
  rw [optunaTrialHonest_iff, baselineTrialHonest_iff, and_self, outcome_isOk_iff hev]
  constructor
  · intro hanswered
    by_cases hfails : FailsAnyway ev inputs
    · exact Or.inr hfails
    · have hhard : ¬inputs.call.HardFails := fun h => hfails (Or.inl h)
      exact Or.inl ((answeredAll_iff hhard).mp (hanswered hfails))
  · rintro (hsoft | hfails) hscored
    · have hhard : ¬inputs.call.HardFails := fun h => hscored (Or.inl h)
      exact (answeredAll_iff hhard).mpr hsoft
    · exact absurd hfails hscored

/-! ## An evaluator -/

/-- The reciprocal rank of the first relevant document of a query. -/
def reciprocalRank (qrels : Qrels) (run : Run) (queryId : String) : ℚ :=
  let ranked := (((run.get? queryId).map Python.Dict.entries).getD []).insertionSort
    fun x y => y.2 ≤ x.2
  let relevant := fun docId => ((qrels.get? queryId).bind fun ratings => ratings.get? docId).any
    fun rating => 0 < rating
  match ranked.findIdx? fun entry => relevant entry.1 with
  | none => 0
  | some position => 1 / (position + 1)

/-- An evaluator of the measure RR. -/
def rrEvaluator : Evaluator where
  iterCalc measures qrels run := (qrels.entries.map Prod.fst).flatMap fun queryId =>
    measures.map fun measure =>
      (queryId, measure, if measure = .rr then reciprocalRank qrels run queryId else 0)
  setOrder tokens := tokens.dedup

theorem rrEvaluator_documented : rrEvaluator.Documented where
  requested measures qrels run value hvalue := by
    obtain ⟨queryId, -, hvalue⟩ := List.mem_flatMap.mp hvalue
    obtain ⟨measure, hmeasure, rfl⟩ := List.mem_map.mp hvalue
    exact hmeasure
  covers measures qrels run queryId measure hjudged _ hmeasure := by
    obtain ⟨ratings, hratings⟩ : ∃ ratings, qrels.get? queryId = some ratings := by
      cases hlookup : qrels.get? queryId with
      | none => simp [Qrels.judged, hlookup] at hjudged
      | some ratings => exact ⟨ratings, rfl⟩
    have hquery : queryId ∈ qrels.entries.map Prod.fst :=
      List.mem_map_of_mem ((qrels.get?_eq_some_iff queryId ratings).mp hratings)
    exact ⟨_, List.mem_flatMap.mpr ⟨queryId, hquery, List.mem_map_of_mem hmeasure⟩⟩
  setOrder _ := List.Perm.refl _

/-- A trial of a study that maximizes MRR over two judged queries. -/
def mrrTrial (call : EngineCall) : TrialInputs where
  trialId := 1
  studyId := 7
  optunaTrialNumber := 0
  objective := ⟨.mrr, none, .maximize⟩
  config := { maxTrials := some 10, secondaryMetrics := some [] }
  qrels := Python.Dict.ofList
    [("q1", Python.Dict.ofList [("d1", 3)]), ("q2", Python.Dict.ofList [("d2", 3)])]
  call := call

/-- An engine that answers both queries. -/
def bothAnswered : EngineCall := .elastic ["q1", "q2"] (.response 200 "" "" (.ok
  [.hits [⟨some "d1", some 5⟩], .hits [⟨some "d1", some 4⟩, ⟨some "d2", some 2⟩]]))

/-- An engine that fails on the second query. -/
def secondFails : EngineCall := .elastic ["q1", "q2"] (.response 200 "" "" (.ok
  [.hits [⟨some "d1", some 5⟩], .error (some "search_phase_execution_exception") "timeout"]))

/-- When both queries are answered the records are honest, and the trial scores
the mean of 1 and 1/2. -/
theorem records_honest_of_bothAnswered :
    (OptunaTrialHonest 0 rrEvaluator (mrrTrial bothAnswered) ∧
      BaselineTrialHonest 0 rrEvaluator (mrrTrial bothAnswered)) ∧
      (outcome rrEvaluator (mrrTrial bothAnswered)).toOption.map Prod.fst = some (3 / 4) := by
  have hsoft : ¬(mrrTrial bothAnswered).call.SoftFails := by
    rintro ⟨-, items, hitems, item, hitem, hfails⟩
    obtain rfl := Option.some.inj hitems
    simp only [List.mem_cons, List.not_mem_nil, or_false] at hitem
    rcases hitem with rfl | rfl <;> cases hfails
  exact ⟨(records_honest_iff 0 rrEvaluator_documented _).mpr (Or.inl hsoft), by decide +kernel⟩

/-- When the engine fails on a query, the trial is complete with that query's
score 0 in its mean, and neither worker is honest. -/
theorem engine_failure_scored_zero :
    (outcome rrEvaluator (mrrTrial secondFails)).toOption.map Prod.fst = some (1 / 2) ∧
      ¬OptunaTrialHonest 0 rrEvaluator (mrrTrial secondFails) ∧
      ¬BaselineTrialHonest 0 rrEvaluator (mrrTrial secondFails) := by
  have hscore : (outcome rrEvaluator (mrrTrial secondFails)).toOption.map Prod.fst =
      some (1 / 2) := by decide +kernel
  have hscored : ∃ scored, outcome rrEvaluator (mrrTrial secondFails) = .ok scored := by
    cases houtcome : outcome rrEvaluator (mrrTrial secondFails) with
    | error exc => simp [houtcome, Except.toOption] at hscore
    | ok scored => exact ⟨scored, rfl⟩
  have hanswered : ¬(mrrTrial secondFails).call.AnsweredAll := by
    rintro (hnil | ⟨items, hitems, -, hall⟩)
    · cases hnil
    · obtain rfl := Option.some.inj hitems
      have hsecond := hall (.error (some "search_phase_execution_exception") "timeout") (by simp)
      simp [MsearchItem.answered] at hsecond
  refine ⟨hscore, fun hhonest => ?_, fun hhonest => ?_⟩
  · exact hanswered ((optunaTrialHonest_iff 0 _ _).mp hhonest hscored)
  · exact hanswered ((baselineTrialHonest_iff 0 _ _).mp hhonest hscored)

end RelyLoop.Trials
