import RelyLoop.Trials.BaselineSafety
import RelyLoop.Trials.Recording

/-!
# The baseline of a study, in every run

The worker, the orchestrator and the other requests on a study keep the contract. So
a stamp is never changed, refers to a complete baseline trial of its study and has
its metric, and a study has at most one complete baseline trial.
-/

namespace RelyLoop.Trials.Baseline

open Concurrency Eval Studies

variable {T : Type} [DecidableEq T] {t : T} {w : BaselineWorld T}
variable {ev : Evaluator} {recursionLimit : ℕ} {j : Job}

/-! ## The worker -/

/-- An insertion; a row that was inserted belongs to the transaction. -/
theorem safe_createTrial {E : BaselineError → BaselineWorld T → Prop} (row : Trial)
    (hrow : isCompleteBaseline row → row.primaryMetric.isSome) :
    BaselineSafe ev recursionLimit t j (fun created w => created = true → row ∈ w.trials.own t) E
      (createTrial row) w := by
  refine safe_perform (o := .insertTrial row) (P := fun _ => True) (fun _ _ _ _ => trivial) trivial
    (fun _ _ _ => hrow) fun w w' created _ _ hexec hcreated => ?_
  obtain ⟨⟨s, created'⟩, hinsert, heq⟩ := Option.map_eq_some_iff.mp hexec
  obtain ⟨rfl, rfl⟩ := Prod.mk.inj heq
  rcases InsertTable.insert_cases hinsert with ⟨-, hrefused⟩ | ⟨rfl, -, -⟩
  · simp [hcreated] at hrefused
  · simp [InsertTable.own, List.filter_append]

/-- The others leave the insertions of a transaction alone. -/
theorem mem_own_of_frame {s s' : InsertTable T Trial} {row : Trial}
    (hframe : InsertTable.Frame t s s') (h : row ∈ s.own t) : row ∈ s'.own t := by
  rw [hframe.own]
  exact h

/-- The insertion of the complete row, and the worker's own stamp. -/
theorem safe_insertAndStamp (run : BaselineRun) (study : Study) (primary : ℚ)
    (scored : ScoreResult) :
    BaselineSafe ev recursionLimit t j (fun _ _ => True) (fun _ _ => True)
      (insertAndStamp run study primary scored) w := by
  have hrollback : ∀ w, BaselineSafe ev recursionLimit t j (fun _ _ => True) (fun _ _ => True)
      rollback w := fun w => (safe_rollback durable_true trivial).post fun _ _ _ => trivial
  unfold insertAndStamp
  split
  · exact hrollback w
  · trivial
  refine Safe.seq (safe_createTrial (baselineRow run study primary scored) fun _ => rfl) ?_
  intro created w₁ hcreated
  cases created with
  | false => exact hrollback w₁
  | true =>
    have hown := hcreated rfl
    refine Safe.seq (safe_commit (P := fun s => baselineRow run study primary scored ∈ s.own t)
      (fun _ _ => mem_own_of_frame) hown) ?_
    rintro _ w₂ ⟨s, hrow, hcommit⟩
    have hidle : w₂.trials.own t = [] := by rw [hcommit, InsertTable.own_commit]
    have hmetered : Metered run.trialId primary w₂.trials.committed := by
      refine ⟨baselineRow run study primary scored, ?_, rfl, fun _ => rfl⟩
      rw [hcommit]
      exact List.mem_append_right _ hrow
    cases run.stampRaises with
    | none => exact safe_stampAndCommit hidle hmetered
    | some exc => trivial

/-- The body of `run_baseline_trial`. -/
theorem safe_attemptBaseline (run : BaselineRun) (hidle : w.trials.own t = []) :
    BaselineSafe ev recursionLimit t j (fun _ _ => True) (fun _ _ => True)
      (attemptBaseline ev run) w := by
  refine Safe.seq (safe_findTrial durable_true hidle trivial) ?_
  rintro found w₁ ⟨-, ⟨hidle₁, -⟩, hfound, hp⟩
  cases found with
  | some existing =>
    obtain ⟨hmem, hmetric⟩ := hfound existing rfl
    have hid : existing.id = run.trialId := by simpa using hp existing rfl
    dsimp only
    split
    · rename_i primaryMetric _ hprimary
      exact safe_stampAndCommit hidle₁ ⟨existing, hmem, hid, fun _ => hprimary⟩
    · trivial
  | none =>
    refine Safe.seq (safe_getStudy (P := fun _ => True) (fun _ _ _ _ => trivial) trivial
      run.studyId) ?_
    intro study w₂ _
    cases study with
    | none => trivial
    | some study =>
      refine Safe.seq (Q := fun _ _ => True) ?_ fun _ w₃ _ => ?_
      · cases run.prepareRaises <;> trivial
      · split
        · trivial
        · split
          · trivial
          · exact safe_insertAndStamp run study _ _

/-- The handler of `run_baseline_trial`. -/
theorem safe_recordFailure (run : BaselineRun) (e : BaselineError) :
    BaselineSafe ev recursionLimit t j (fun _ _ => True) (fun _ _ => True)
      (recordFailure run e) w := by
  have hrollback : ∀ w, BaselineSafe ev recursionLimit t j (fun _ _ => True) (fun _ _ => True)
      rollback w := fun w => (safe_rollback durable_true trivial).post fun _ _ _ => trivial
  refine Safe.seq (hrollback w) fun _ w₁ _ => ?_
  split
  · trivial
  split
  · exact hrollback w₁
  · trivial
  refine Safe.seq (safe_createTrial (failedBaselineRow run _) fun h => ?_)
    fun created w₂ _ => ?_
  · simp [isCompleteBaseline, failedBaselineRow] at h
  · cases created with
    | false => exact hrollback w₂
    | true =>
      exact (safe_commit (P := fun _ => True) (fun _ _ _ _ => trivial) trivial).post
        fun _ _ _ => trivial

/-- `run_baseline_trial`. -/
theorem safe_runBaselineTrial (run : BaselineRun) (hidle : w.trials.own t = []) :
    BaselineSafe ev recursionLimit t j (fun _ _ => True) (fun _ _ => True)
      (runBaselineTrial ev run) w := by
  have hbody : BaselineSafe ev recursionLimit t j (fun _ _ => True) (fun _ _ => True)
      ((attemptBaseline ev run).handle (recordFailure run)) w :=
    Safe.handle ((safe_attemptBaseline run hidle).mono (fun _ _ _ => trivial)
      fun e w₁ _ => safe_recordFailure run e)
  exact (safe_inSession (R := fun _ _ => True) (fun _ => durable_true) hbody).post
    fun _ _ _ => trivial

/-! ## The orchestrator -/

/-- What the orchestrator knows of a trial that it has found is what a stamp needs. -/
theorem FoundIn.metered {trial : Trial} {trials : List Trial} (h : FoundIn (some trial) trials) :
    Metered trial.id (metricOrZero trial) trials := by
  obtain ⟨hmem, hmetric⟩ := h trial rfl
  exact ⟨trial, hmem, rfl, hmetric⟩

/-- The first session of the phase. -/
theorem safe_restamp (run : PhaseRun) (hidle : w.trials.own t = []) :
    BaselineSafe ev recursionLimit t j (fun _ _ => True) (fun _ _ => True) (restamp run) w := by
  refine Safe.seq (safe_getStudy (stable_idle durable_true) ⟨hidle, trivial⟩ run.studyId) ?_
  rintro study w₁ ⟨hidle₁, -⟩
  cases study with
  | none => trivial
  | some study =>
    dsimp only
    split
    · trivial
    refine Safe.seq (safe_findTrial durable_true hidle₁ trivial) ?_
    rintro found w₂ ⟨-, ⟨hidle₂, -⟩, hfound, -⟩
    cases found with
    | none => trivial
    | some existing =>
      dsimp only
      split
      · exact Safe.seq (safe_stampAndCommit hidle₂ hfound.metered) fun _ _ _ => trivial
      · trivial
      · trivial

/-- The session that enqueues the job. -/
theorem safe_resolveAndEnqueueBaseline (run : PhaseRun) :
    BaselineSafe ev recursionLimit t j (fun _ _ => True) (fun _ _ => True)
      (resolveAndEnqueueBaseline run) w := by
  refine Safe.seq (safe_getStudy (P := fun _ => True) (fun _ _ _ _ => trivial) trivial
    run.studyId) ?_
  intro study w₁ _
  cases study with
  | none => trivial
  | some study =>
    dsimp only
    split
    · trivial
    refine Safe.seq (safe_perform (o := .enqueue run.studyId run.trialId run.accepted)
      (R := fun _ _ => True) (P := fun _ => True) (fun _ _ _ _ => trivial) trivial
      (fun _ _ _ => trivial) fun _ _ _ _ _ _ => trivial) fun accepted _ _ => ?_
    cases accepted <;> trivial

/-- A search for the trial, as the polls use it. -/
def FindsTrial (ev : Evaluator) (recursionLimit : ℕ) (t : T) (j : Job)
    (find : Db (Option Trial)) : Prop :=
  ∀ w : BaselineWorld T, w.trials.own t = [] → BaselineSafe ev recursionLimit t j
    (fun found w => w.trials.own t = [] ∧ FoundIn found w.trials.committed) (fun _ _ => True)
    find w

theorem findsTrial (p : Trial → Bool) (before : Trial → Trial → Bool) :
    FindsTrial ev recursionLimit t j (findTrial p before) := by
  intro w hidle
  refine (safe_findTrial durable_true hidle trivial).post ?_
  rintro found w₁ ⟨-, ⟨hidle₁, -⟩, hfound, -⟩
  exact ⟨hidle₁, hfound⟩

/-- A poll in a session of its own. -/
theorem safe_poll {studyId : ℕ} {find : Db (Option Trial)}
    (hfind : FindsTrial ev recursionLimit t j find) (hidle : w.trials.own t = []) :
    BaselineSafe ev recursionLimit t j
      (fun result w => w.trials.own t = [] ∧ ∀ found, result = some found →
        FoundIn found w.trials.committed) (fun _ _ => True) (inSession (poll studyId find)) w := by
  refine safe_inSession (R := fun result trials => ∀ found, result = some found →
    FoundIn found trials) (fun result trials trials' hmore h found hresult =>
      durable_foundIn found _ _ hmore (h found hresult)) ?_
  refine Safe.seq (hfind w hidle) ?_
  rintro found w₁ ⟨-, hfound⟩
  cases found with
  | some trial =>
    intro found hresult
    obtain rfl : some trial = found := Option.some.inj hresult
    exact hfound
  | none =>
    refine Safe.seq (safe_getStudy (P := fun _ => True) (fun _ _ _ _ => trivial) trivial
      studyId) ?_
    intro study w₂ _
    have hnothing : FoundIn none w₂.trials.committed := fun trial h => by cases h
    have hgone : ∀ found, some (none : Option Trial) = some found →
        FoundIn found w₂.trials.committed := by
      intro found hresult
      obtain rfl : none = found := Option.some.inj hresult
      exact hnothing
    cases study with
    | none => exact hgone
    | some study =>
      dsimp only
      split
      · exact hgone
      · intro found hresult
        cases hresult

/-- The polls of the orchestrator. -/
theorem safe_waitForBaselineTrial {studyId : ℕ} {find : Db (Option Trial)}
    (hfind : FindsTrial ev recursionLimit t j find) (polls : ℕ) (hidle : w.trials.own t = []) :
    BaselineSafe ev recursionLimit t j
      (fun found w => w.trials.own t = [] ∧ FoundIn found w.trials.committed) (fun _ _ => True)
      (waitForBaselineTrial studyId find polls) w := by
  induction polls generalizing w with
  | zero =>
    refine Safe.seq (safe_poll hfind hidle) ?_
    rintro result w₁ ⟨hidle₁, hfound⟩
    cases result with
    | none => exact ⟨hidle₁, fun trial h => by cases h⟩
    | some found => exact ⟨hidle₁, hfound found rfl⟩
  | succ polls ih =>
    refine Safe.seq (safe_poll hfind hidle) ?_
    rintro result w₁ ⟨hidle₁, hfound⟩
    cases result with
    | none => exact ih hidle₁
    | some found => exact ⟨hidle₁, hfound found rfl⟩

/-- The stamp of the trial that was waited for. -/
theorem safe_stampWaitedFor (studyId : ℕ) (found : Option Trial) (hidle : w.trials.own t = [])
    (hfound : FoundIn found w.trials.committed) :
    BaselineSafe ev recursionLimit t j (fun _ _ => True) (fun _ _ => True)
      (stampWaitedFor studyId found) w := by
  cases found with
  | none => trivial
  | some trial =>
    cases hstatus : trial.status with
    | complete =>
      simp only [stampWaitedFor, hstatus]
      exact (safe_inSession (R := fun _ _ => True) (fun _ => durable_true)
        (safe_stampAndCommit hidle hfound.metered)).post fun _ _ _ => trivial
    | failed => simp only [stampWaitedFor, hstatus]; trivial
    | pruned => simp only [stampWaitedFor, hstatus]; trivial

/-- `_run_baseline_phase`. -/
theorem safe_runBaselinePhase (run : PhaseRun) (hidle : w.trials.own t = []) :
    BaselineSafe ev recursionLimit t j (fun _ _ => True) (fun _ _ => True)
      (runBaselinePhase run) w := by
  refine Safe.seq (safe_inSession (R := fun _ _ => True) (fun _ => durable_true)
    (safe_restamp run hidle)) ?_
  rintro goesOn w₁ -
  cases goesOn with
  | false => trivial
  | true =>
    refine Safe.seq (safe_inSession (R := fun _ _ => True) (fun _ => durable_true)
      (safe_resolveAndEnqueueBaseline run)) ?_
    rintro result w₂ ⟨hidle₂, -⟩
    have hwait : ∀ p before, BaselineSafe ev recursionLimit t j (fun _ _ => True)
        (fun _ _ => True) ((waitForBaselineTrial run.studyId (findTrial p before) run.polls).bind
          fun trial => stampWaitedFor run.studyId trial) w₂ := fun p before =>
      Safe.seq (safe_waitForBaselineTrial (findsTrial p before) run.polls hidle₂)
        fun found _ h => safe_stampWaitedFor run.studyId found h.1 h.2
    cases result with
    | none => trivial
    | some result =>
      cases result with
      | skipped => trivial
      | enqueued trialId => exact hwait _ _
      | deduped => exact hwait _ _

/-! ## Other requests on the study -/

/-- A statement of the state machine: it leaves the baseline columns alone. -/
def LeavesBaseline : RowOp ℕ Study → Prop
  | .update _ f => ∀ v, (f v).baselineTrialId = v.baselineTrialId ∧
      (f v).baselineMetric = v.baselineMetric
  | .updateWhere _ _ _ => False
  | .insert _ _ => False
  | _ => True

/-- Such a statement is allowed everywhere. -/
theorem allowed_of_leavesBaseline {o : RowOp ℕ Study} (ho : LeavesBaseline o)
    (hinv : BaselinesConsistent w) : Allowed t w (.study o) := by
  intro k r hwrite
  cases o with
  | update k' f =>
    obtain ⟨rfl, v, hv, rfl⟩ := hwrite
    obtain ⟨hid, hmetric⟩ := ho v
    constructor
    · intro v' hv' trialId hstamp
      obtain rfl : v = v' := Option.some.inj (hv.symm.trans hv')
      exact ⟨hid.trans hstamp, hmetric⟩
    · intro trialId hstamp
      have hbefore := hinv.stamped k v (Store.mem_versions_of_visible hv) trialId
        (hid.symm.trans hstamp)
      rwa [hmetric]
  | updateWhere k' p f => exact ho.elim
  | insert k' r' => exact ho.elim
  | _ => exact hwrite.elim

section Requests

variable {now studyId : ℕ}

theorem leavesBaseline_loadForUpdate : (loadForUpdate studyId).Every LeavesBaseline := by
  refine Program.Every.bind ⟨trivial, fun _ => trivial⟩ fun study => ?_
  cases study <;> trivial

theorem leavesBaseline_ensureLegal {current target : StudyStatus} :
    (ensureLegal current target).Every LeavesBaseline := by
  unfold ensureLegal
  split <;> trivial

theorem leavesBaseline_flush {f : Study → Study}
    (hf : ∀ v, (f v).baselineTrialId = v.baselineTrialId ∧
      (f v).baselineMetric = v.baselineMetric) :
    (flush studyId f).Every LeavesBaseline := ⟨hf, fun _ => trivial⟩

theorem leavesBaseline_transition {target : StudyStatus} {stampColumns : Study → Study}
    (hstamp : ∀ v, (stampColumns v).baselineTrialId = v.baselineTrialId ∧
      (stampColumns v).baselineMetric = v.baselineMetric) :
    (transition studyId target stampColumns).Every LeavesBaseline := by
  refine leavesBaseline_loadForUpdate.bind fun study => ?_
  refine leavesBaseline_ensureLegal.bind fun _ => ?_
  exact (leavesBaseline_flush fun v => hstamp { v with status := target }).bind fun _ => trivial

theorem leavesBaseline_cancelStudy : (cancelStudy now studyId).Every LeavesBaseline :=
  leavesBaseline_transition fun _ => ⟨rfl, rfl⟩

theorem leavesBaseline_startStudy : (startStudy now studyId).Every LeavesBaseline := by
  refine leavesBaseline_loadForUpdate.bind fun study => ?_
  split
  · trivial
  · refine leavesBaseline_ensureLegal.bind fun _ => ?_
    refine Program.Every.bind (leavesBaseline_flush ?_) fun _ => trivial
    exact fun _ => ⟨rfl, rfl⟩

theorem leavesBaseline_cancelUnlessTerminal {study : Study} :
    (cancelUnlessTerminal now studyId study).Every LeavesBaseline := by
  refine leavesBaseline_cancelStudy.handle fun e => ?_
  cases e <;> trivial

theorem leavesBaseline_cascadeParent {parent : Study} :
    (cascadeParent now studyId parent).Every LeavesBaseline := by
  unfold cascadeParent
  split
  · exact leavesBaseline_cancelUnlessTerminal
  · unfold zeroFollowupDepth
    split
    · split
      · refine Program.Every.bind (leavesBaseline_flush ?_) fun _ => trivial
        exact fun _ => ⟨rfl, rfl⟩
      · trivial
    · trivial

/-- The cascade, by induction on the depth that the interpreter allows. -/
theorem leavesBaseline_cascadeCancel (fuel studyId : ℕ) :
    (cascadeCancel now fuel studyId).Every LeavesBaseline := by
  induction fuel generalizing studyId with
  | zero => trivial
  | succ fuel ih =>
    refine leavesBaseline_loadForUpdate.bind fun study => ?_
    refine leavesBaseline_cascadeParent.bind fun parent => ?_
    refine Program.Every.bind ⟨trivial, fun _ => trivial⟩ fun children => ?_
    refine Program.Every.bind (Program.every_each fun child _ => ?_) fun _ => trivial
    refine Program.Every.bind ?_ fun _ => (ih child.1).bind fun _ => trivial
    unfold cascadeChild
    split
    · exact leavesBaseline_cancelUnlessTerminal.bind fun _ => trivial
    · trivial

theorem leavesBaseline_transact {p : Studies.Db Study} (h : p.Every LeavesBaseline) :
    (transact p).Every LeavesBaseline :=
  Program.Every.handle (h.bind fun _ => ⟨trivial, fun _ => trivial⟩)
    fun _ => ⟨trivial, fun _ => trivial⟩

/-- The requests leave the baseline columns alone. -/
theorem leavesBaseline_serve (recursionLimit : ℕ) (request : Request) :
    (Studies.serve recursionLimit request).Every LeavesBaseline := by
  cases request with
  | get studyId => exact ⟨trivial, fun _ => trivial⟩
  | listChildren studyId => exact ⟨trivial, fun _ => trivial⟩
  | release studyId => exact ⟨trivial, fun _ => trivial⟩
  | start now studyId => exact leavesBaseline_transact leavesBaseline_startStudy
  | cancel now studyId cascade =>
    refine leavesBaseline_transact ?_
    unfold cancelStudyWithChainCascade
    split
    · exact leavesBaseline_cascadeCancel recursionLimit studyId
    · exact leavesBaseline_cancelStudy
  | complete now studyId bestMetric bestTrialId =>
    exact leavesBaseline_transact (leavesBaseline_transition fun _ => ⟨rfl, rfl⟩)
  | fail now studyId failedReason =>
    exact leavesBaseline_transact (leavesBaseline_transition fun _ => ⟨rfl, rfl⟩)
  | tick now studyId decision =>
    refine Program.Every.bind ⟨trivial, fun _ => trivial⟩ fun current => ?_
    cases current with
    | none => trivial
    | some current =>
      dsimp only
      split
      · trivial
      · cases decision with
        | goOn => trivial
        | fail failedReason =>
          exact leavesBaseline_transact (leavesBaseline_transition fun _ => ⟨rfl, rfl⟩)
        | stop summary =>
          exact leavesBaseline_transact (leavesBaseline_transition fun _ => ⟨rfl, rfl⟩)

end Requests

/-- A program on `studies` is safe when its statements leave the baseline alone. -/
theorem safe_onStudies {α : Type} {p : Transaction ℕ Study StudyError α}
    (h : p.Every LeavesBaseline) :
    BaselineSafe ev recursionLimit t j (fun _ _ => True) (fun _ _ => True) (onStudies p) w := by
  have hevery : (onStudies p).Every fun o => ∃ o', o = .study o' ∧ LeavesBaseline o' := by
    induction p with
    | done a => trivial
    | raise e => trivial
    | call o next ih => exact ⟨⟨o, rfl, h.1⟩, fun r => ih r (h.2 r)⟩
  refine Safe.of_every ?_ hevery
  rintro o ⟨o', rfl, ho⟩ w₁ w₂ r hinv hexec
  exact guarantees_exec hinv (allowed_of_leavesBaseline ho hinv) hexec

/-! ## Runs -/

/-- A process that starts or dies leaves its transaction undone. -/
theorem guarantees_reset (hinv : BaselinesConsistent w) :
    (baselineContract T).Guarantees t j w
      { w with studies := w.studies.rollback t, trials := w.trials.rollback t } :=
  guarantees_study (o := .rollback) (a := ()) hinv
    (allowed_of_no_write fun _ _ hwrite => hwrite) rfl

/-- The contract is met by all jobs. -/
theorem baselineContract_met (ev : Evaluator) (recursionLimit : ℕ) :
    (baselineContract T).Met (baselineSystem T ev recursionLimit) where
  code t j w _ _ := by
    cases j with
    | phase run => exact safe_runBaselinePhase run InsertTable.own_rollback
    | deliver run => exact safe_runBaselineTrial run InsertTable.own_rollback
    | serve request =>
      exact (safe_inSession (R := fun _ _ => True) (fun _ => durable_true)
        (safe_onStudies (leavesBaseline_serve recursionLimit request))).post fun _ _ _ => trivial
  reset _ _ _ hinv := guarantees_reset hinv

/-- The committed stamps refer to complete baseline trials of their studies and have
their metrics, and a study has at most one complete baseline trial. -/
structure BaselinesSafe (w : BaselineWorld T) : Prop where
  stamped : ∀ studyId study, w.studies.committed studyId = some study →
    StampedAt w.trials.committed studyId study
  single : ∀ studyId, (w.trials.committed.filter fun trial =>
    trial.studyId = studyId && isCompleteBaseline trial).length ≤ 1

/-- The committed stamps of `s` are in `s'`, with their metrics. -/
def StampsKept (s s' : Store T ℕ Study) : Prop :=
  ∀ studyId study, s.committed studyId = some study → ∃ study',
    s'.committed studyId = some study' ∧ KeepsBaseline study study'

omit [DecidableEq T] in
theorem StampsKept.refl (s : Store T ℕ Study) : StampsKept s s :=
  fun _ study h => ⟨study, h, KeepsBaseline.refl study⟩

omit [DecidableEq T] in
theorem StampsKept.step {s s₁ s₂ : Store T ℕ Study} (h : StampsKept s s₁)
    (hchange : s₁.Changes KeepsBaseline s₂) : StampsKept s s₂ := by
  intro studyId study hstudy
  obtain ⟨study₁, hstudy₁, hkeep₁⟩ := h studyId study hstudy
  obtain ⟨study₂, hstudy₂, hsame | hkeep₂⟩ := hchange studyId study₁ hstudy₁
  · exact ⟨study₂, hstudy₂, hsame ▸ hkeep₁⟩
  · exact ⟨study₂, hstudy₂, hkeep₁.trans hkeep₂⟩

omit [DecidableEq T] in
theorem single_of_unique {s : InsertTable T Trial} (h : s.Unique clash) (studyId : ℕ) :
    (s.committed.filter fun trial =>
      trial.studyId = studyId && isCompleteBaseline trial).length ≤ 1 := by
  have hpairwise : s.committed.Pairwise fun x y => clash x y = false :=
    h.sublist (List.sublist_append_left _ _)
  by_contra hlength
  have hfirst := List.getElem_mem (Nat.lt_of_succ_lt (Nat.lt_of_not_le hlength))
  have hsecond := List.getElem_mem (Nat.lt_of_not_le hlength)
  have hdistinct := List.pairwise_iff_getElem.mp (hpairwise.filter _) 0 1
    (Nat.lt_of_succ_lt (Nat.lt_of_not_le hlength)) (Nat.lt_of_not_le hlength) Nat.zero_lt_one
  have hfirst := (List.mem_filter.mp hfirst).2
  have hsecond := (List.mem_filter.mp hsecond).2
  simp only [Bool.and_eq_true, decide_eq_true_eq] at hfirst hsecond
  simp [clash, hfirst, hsecond] at hdistinct

/-- Consistent baselines are safe. -/
theorem BaselinesConsistent.safe (h : BaselinesConsistent w) : BaselinesSafe w where
  stamped studyId study hstudy :=
    h.stamped studyId study (Store.mem_versions.mpr (Or.inl hstudy))
  single := single_of_unique h.unique

/-- In every run from idle processes on `w` the baselines are safe, and what is
stamped stays stamped. -/
def BaselinesStaySafe (T : Type) [DecidableEq T] (ev : Evaluator) (recursionLimit : ℕ)
    (w : BaselineWorld T) : Prop :=
  ∀ c c', (baselineSystem T ev recursionLimit).Run (fun _ _ _ => True) (System.idle w) c →
    (baselineSystem T ev recursionLimit).Run (fun _ _ _ => True) c c' →
    BaselinesSafe c.world ∧ StampsKept c.world.studies c'.world.studies

/-- A stamp is never changed, refers to a complete baseline trial of its study and has
its metric, and a study has at most one complete baseline trial. -/
theorem baselines_stay_safe (ev : Evaluator) (recursionLimit : ℕ) (hw : BaselinesConsistent w) :
    BaselinesStaySafe T ev recursionLimit w := by
  intro c c' hrun hrun'
  have hmet := baselineContract_met (T := T) ev recursionLimit
  have hsound := hmet.run (Contract.sound_idle hw) hrun
  refine ⟨hsound.1.safe, ?_⟩
  exact hmet.run_keeps (P := fun w => StampsKept c.world.studies w.studies)
    (fun _ _ _ hchange h => h.step hchange.1) hsound (StampsKept.refl _) hrun'

/-- A database without baselines and without open transactions is consistent. -/
theorem consistent_of_no_baseline (hunique : w.trials.Unique clash)
    (hnone : ∀ trial ∈ w.trials.rows, ¬isCompleteBaseline trial)
    (hunlocked : ∀ k, w.studies.lock k = none)
    (hunstamped : ∀ k study, w.studies.committed k = some study → study.baselineTrialId = none) :
    BaselinesConsistent w where
  unique := hunique
  metered trial htrial hbaseline := absurd hbaseline (hnone trial htrial)
  kept := Store.Disciplined.of_unlocked hunlocked fun _ _ _ => trivial
  stamped studyId study hstudy trialId hstamp := by
    have hcommitted := (Store.mem_versions_of_unlocked hunlocked).mp hstudy
    simp [hunstamped studyId study hcommitted] at hstamp

/-- A running study without a baseline. -/
def newStudy : BaselineWorld ℕ where
  studies := {
    keys := [7]
    committed k := if k = 7 then some
      { objective := (mrrTrial bothAnswered).objective, config := (mrrTrial bothAnswered).config,
        status := .running }
      else none
    lock _ := none
    identity _ _ := none }
  trials := ⟨[], []⟩
  queue := []

/-- A start of the study, whose orchestrator enqueues the trial 100. -/
def startOfPhase : PhaseRun where
  studyId := 7
  paramsResolved := true
  trialId := 100
  accepted := true
  polls := 3
  before _ _ := true

/-- A delivery of the trial 100. -/
def baselineDelivery : BaselineRun where
  studyId := 7
  trialId := 100
  qrels := (mrrTrial bothAnswered).qrels
  call := bothAnswered

/-- The committed stamp, and the committed trials. -/
def baselineState (c : Config ℕ Job (BaselineWorld ℕ) BaselineOp BaselineOp.Res BaselineError) :
    Option (Option ℕ × Option ℚ) × List (ℕ × TrialStatus) :=
  ((c.world.studies.committed 7).map fun study => (study.baselineTrialId, study.baselineMetric),
    c.world.trials.committed.map fun trial => (trial.id, trial.status))

/-- Two workers run the trial: one dies after its row, before its stamp; the other one
finds the row. The orchestrator stamps the study. -/
theorem baselines_stay_safe_newStudy :
    BaselinesStaySafe ℕ rrEvaluator 1000 newStudy ∧
      ∃ c, (baselineSystem ℕ rrEvaluator 1000).Run (fun _ _ _ => True) (System.idle newStudy) c ∧
        baselineState c = (some (some 100, some (3 / 4)), [(100, .complete)]) := by
  have hconsistent : BaselinesConsistent newStudy := by
    refine consistent_of_no_baseline List.Pairwise.nil ?_ (fun _ => rfl) fun k study hstudy => ?_
    · intro trial htrial
      cases htrial
    · simp only [newStudy, Option.ite_none_right_eq_some, Option.some.injEq] at hstudy
      obtain ⟨-, rfl⟩ := hstudy
      rfl
  refine ⟨baselines_stay_safe rrEvaluator 1000 hconsistent, ?_⟩
  have hrun : (((baselineSystem ℕ rrEvaluator 1000).guard fun _ _ _ => true).schedule
      (System.idle newStudy) ([.start 0 (.phase startOfPhase)] ++ List.replicate 6 (.call 0) ++
        [.start 1 (.deliver baselineDelivery), .call 1, .call 1,
          .start 2 (.deliver baselineDelivery), .call 2, .call 2, .call 1, .call 1, .stop 1,
          .call 2, .call 2, .call 2] ++ List.replicate 6 (.call 0))).map baselineState =
      some (some (some 100, some (3 / 4)), [(100, .complete)]) := by decide +kernel
  obtain ⟨c, hc, hstate⟩ := Option.map_eq_some_iff.mp hrun
  exact ⟨c, (baselineSystem ℕ rrEvaluator 1000).run_of_guarded (fun _ _ _ _ => trivial) hc, hstate⟩

end RelyLoop.Trials.Baseline
