import RelyLoop.Concurrency.RelyGuarantee
import RelyLoop.Concurrency.RowContract
import RelyLoop.Concurrency.RowVersions
import RelyLoop.Trials.Baseline

/-!
# A stamp refers to its trial

Trials are never changed, so what a session has read of a committed trial stays
true. A stamp is written only while the study has none, under the lock of the study
until it is committed, and with the metric of the trial that it names.
-/

namespace RelyLoop.Trials.Baseline

open Concurrency Eval Studies

/-- A stamp that is there is kept, with its metric. -/
def KeepsBaseline (r r' : Study) : Prop :=
  ∀ trialId, r.baselineTrialId = some trialId →
    r'.baselineTrialId = some trialId ∧ r'.baselineMetric = r.baselineMetric

theorem KeepsBaseline.refl (r : Study) : KeepsBaseline r r := fun _ h => ⟨h, rfl⟩

theorem KeepsBaseline.trans {r₁ r₂ r₃ : Study} (h : KeepsBaseline r₁ r₂)
    (h' : KeepsBaseline r₂ r₃) : KeepsBaseline r₁ r₃ := by
  intro trialId hstamp
  obtain ⟨hid, hmetric⟩ := h trialId hstamp
  obtain ⟨hid', hmetric'⟩ := h' trialId hid
  exact ⟨hid', hmetric'.trans hmetric⟩

/-- The stamp of a study refers to a complete baseline trial of the study, and has its
metric. -/
def StampedAt (trials : List Trial) (studyId : ℕ) (study : Study) : Prop :=
  ∀ trialId, study.baselineTrialId = some trialId → ∃ trial ∈ trials, trial.id = trialId ∧
    trial.studyId = studyId ∧ isCompleteBaseline trial ∧
      study.baselineMetric = trial.primaryMetric

theorem StampedAt.mono {trials trials' : List Trial} {studyId : ℕ} {study : Study}
    (h : StampedAt trials studyId study) (hmore : ∀ trial ∈ trials, trial ∈ trials') :
    StampedAt trials' studyId study := by
  intro trialId hstamp
  obtain ⟨trial, htrial, hrest⟩ := h trialId hstamp
  exact ⟨trial, hmore trial htrial, hrest⟩

theorem clash_comm (x y : Trial) : clash x y = clash y x := by
  unfold clash
  rw [Bool.and_comm (isCompleteBaseline x)]
  congr 1
  · simp [eq_comm]
  · congr 1
    simp [eq_comm]

variable {T : Type} [DecidableEq T] {t t' : T} {w w' : BaselineWorld T}

/-- The baselines are consistent: the unique constraints hold, complete baseline
trials have a metric, and every version of a study that has a stamp refers to its
trial. A database without baselines and without open transactions is consistent. -/
structure BaselinesConsistent (w : BaselineWorld T) : Prop where
  unique : w.trials.Unique clash
  metered : ∀ trial ∈ w.trials.rows, isCompleteBaseline trial → trial.primaryMetric.isSome
  kept : w.studies.Disciplined KeepsBaseline fun _ => True
  stamped : ∀ studyId, ∀ study ∈ w.studies.versions studyId,
    StampedAt w.trials.committed studyId study

/-- The version of a study that a session sees keeps the committed stamp. -/
theorem keepsBaseline_visible (h : w.studies.Disciplined KeepsBaseline fun _ => True) {k : ℕ}
    {r₀ v : Study} (hv : w.studies.visible t k = some v) (hr₀ : w.studies.committed k = some r₀) :
    KeepsBaseline r₀ v := by
  unfold Store.visible at hv
  split at hv
  · rename_i r hheld
    obtain rfl := Option.some.inj hv
    exact h.replaces t k r₀ r hheld hr₀
  · obtain rfl : r₀ = v := Option.some.inj (hr₀.symm.trans hv)
    exact KeepsBaseline.refl r₀

/-- What the contract asks of an operation: a version of a study that it writes keeps
the stamp of the one that it replaces and refers to a committed trial, and a complete
baseline trial that it inserts has a metric. -/
def Allowed (t : T) (w : BaselineWorld T) : BaselineOp → Prop
  | .study o => ∀ k r, w.studies.Writes t o k r →
      (∀ v, w.studies.visible t k = some v → KeepsBaseline v r) ∧
        StampedAt w.trials.committed k r
  | .insertTrial row => isCompleteBaseline row → row.primaryMetric.isSome
  | _ => True

/-- What a session relies on: the others leave its transaction alone, and remove no
committed trial. -/
def BaselineRely (t : T) (w w' : BaselineWorld T) : Prop :=
  Store.Frame t w.studies w'.studies ∧ InsertTable.Frame t w.trials w'.trials

/-- What a step may change: committed stamps and committed trials stay. -/
def BaselineChange (w w' : BaselineWorld T) : Prop :=
  w.studies.Changes KeepsBaseline w'.studies ∧
    ∀ trial ∈ w.trials.committed, trial ∈ w'.trials.committed

/-- The contract of the jobs. -/
def baselineContract (T : Type) [DecidableEq T] :
    Contract T Job (BaselineWorld T) BaselineOp where
  inv := BaselinesConsistent
  change _ := BaselineChange
  rely := BaselineRely
  cond _ _ _ := True
  rely_refl t _ := ⟨Store.Frame.refl t _, InsertTable.Frame.refl t _⟩
  rely_trans _ _ _ _ h h' := ⟨h.1.trans h'.1, h.2.trans h'.2⟩

/-! ## Operations -/

/-- A statement on `studies`. -/
theorem guarantees_study {j : Job} {o : RowOp ℕ Study} {a : o.Res} {s : Store T ℕ Study}
    (hinv : BaselinesConsistent w) (hallowed : Allowed t w (.study o))
    (hexec : Store.exec t w.studies o = some (s, a)) :
    (baselineContract T).Guarantees t j w
      { w with studies := s, trials := w.trials.follow t o } := by
  have hkeep : w.studies.Allowed KeepsBaseline (fun _ => True) t o := by
    cases o with
    | update k f =>
      intro v hv
      refine ⟨trivial, fun r₀ hr₀ => ?_⟩
      have hwrite := (hallowed k (f v) ⟨rfl, v, hv, rfl⟩).1 v hv
      exact (keepsBaseline_visible hinv.kept hv hr₀).trans hwrite
    | updateWhere k p f =>
      intro v hv hp
      refine ⟨trivial, fun r₀ hr₀ => ?_⟩
      have hwrite := (hallowed k (f v) ⟨rfl, v, hv, hp, rfl⟩).1 v hv
      exact (keepsBaseline_visible hinv.kept hv hr₀).trans hwrite
    | _ => trivial
  obtain ⟨hkept, hchanges⟩ := hinv.kept.exec hkeep hexec
  have hmore : ∀ trial ∈ w.trials.committed, trial ∈ (w.trials.follow t o).committed :=
    fun trial => InsertTable.committed_follow o
  refine ⟨⟨hinv.unique.follow clash_comm o, fun trial htrial => ?_, hkept,
    fun k r hr => ?_⟩, ⟨hchanges, hmore⟩,
    fun t' hne => ⟨Store.exec_frame hexec hne, InsertTable.frame_follow hne o⟩⟩
  · exact hinv.metered trial (InsertTable.mem_rows_follow htrial)
  · rcases Store.mem_versions_exec hexec hr with hold | hwrite
    · exact (hinv.stamped k r hold).mono hmore
    · exact (hallowed k r hwrite).2.mono hmore

/-- An allowed operation keeps the contract. -/
theorem guarantees_exec {j : Job} {o : BaselineOp} {a : o.Res} (hinv : BaselinesConsistent w)
    (hallowed : Allowed t w o) (hexec : execBaseline t w o = some (w', a)) :
    (baselineContract T).Guarantees t j w w' := by
  have hsame : ∀ queue, (baselineContract T).Guarantees t j w { w with queue := queue } :=
    fun queue => ⟨⟨hinv.unique, hinv.metered, hinv.kept, hinv.stamped⟩,
      ⟨Store.Changes.refl rfl, fun _ h => h⟩,
      fun t' _ => ⟨Store.Frame.refl t' _, InsertTable.Frame.refl t' _⟩⟩
  cases o with
  | study o =>
    obtain ⟨⟨s, a'⟩, hstudy, heq⟩ := Option.map_eq_some_iff.mp hexec
    obtain ⟨rfl, rfl⟩ := Prod.mk.inj heq
    exact guarantees_study hinv hallowed hstudy
  | findTrials p before =>
    obtain ⟨rfl, -⟩ := Prod.mk.inj (Option.some.inj hexec)
    exact hsame w.queue
  | insertTrial row =>
    obtain ⟨⟨s, a'⟩, hinsert, heq⟩ := Option.map_eq_some_iff.mp hexec
    obtain ⟨rfl, rfl⟩ := Prod.mk.inj heq
    have hcommitted : s.committed = w.trials.committed := by
      rcases InsertTable.insert_cases hinsert with ⟨rfl, -⟩ | ⟨rfl, -, -⟩ <;> rfl
    refine ⟨⟨hinv.unique.insert hinsert, fun trial htrial => ?_, hinv.kept, fun k r hr => ?_⟩,
      ⟨Store.Changes.refl rfl, fun trial h => by rwa [hcommitted]⟩,
      fun t' hne => ⟨Store.Frame.refl t' _, InsertTable.frame_insert hinsert hne⟩⟩
    · rcases InsertTable.insert_cases hinsert with ⟨rfl, -⟩ | ⟨rfl, -, -⟩
      · exact hinv.metered trial htrial
      · rw [InsertTable.rows_insert, List.mem_append, List.mem_singleton] at htrial
        rcases htrial with hold | rfl
        · exact hinv.metered trial hold
        · exact hallowed
    · rw [hcommitted]
      exact hinv.stamped k r hr
  | enqueue studyId trialId accepted =>
    obtain ⟨rfl, -⟩ := Prod.mk.inj (Option.some.inj hexec)
    split
    · exact hsame _
    · exact hsame w.queue

/-! ## Programs -/

variable {ev : Evaluator} {recursionLimit : ℕ} {j : Job} {α : Type}
variable {Q : α → BaselineWorld T → Prop} {E : BaselineError → BaselineWorld T → Prop}

/-- `p` is safe from `w` on. -/
abbrev BaselineSafe (ev : Evaluator) (recursionLimit : ℕ) (t : T) (j : Job)
    (Q : α → BaselineWorld T → Prop) (E : BaselineError → BaselineWorld T → Prop) (p : Db α)
    (w : BaselineWorld T) : Prop :=
  Safe (baselineSystem T ev recursionLimit) (baselineContract T) t j Q E p w

/-- What a session knows of the trials is kept by the others. -/
def Stable (t : T) (P : InsertTable T Trial → Prop) : Prop :=
  ∀ s s', InsertTable.Frame t s s' → P s → P s'

/-- Facts about the committed trials that more trials do not spoil. -/
def Durable (R : List Trial → Prop) : Prop :=
  ∀ trials trials', (∀ trial ∈ trials, trial ∈ trials') → R trials → R trials'

/-- A session that has inserted nothing, and what it knows of the committed trials. -/
theorem stable_idle {R : List Trial → Prop} (hR : Durable R) :
    Stable t fun s => s.own t = [] ∧ R s.committed :=
  fun _ _ hframe h => ⟨hframe.own.trans h.1, hR _ _ hframe.committed h.2⟩

/-- The rule of an operation: what the session knows makes it allowed. -/
theorem safe_perform {P : InsertTable T Trial → Prop} (hP : Stable t P) (h : P w.trials)
    {o : BaselineOp} {R : o.Res → BaselineWorld T → Prop}
    (hallowed : ∀ w, P w.trials → BaselinesConsistent w → Allowed t w o)
    (hpost : ∀ w w' a, P w.trials → BaselinesConsistent w → execBaseline t w o = some (w', a) →
      R a w') :
    BaselineSafe ev recursionLimit t j R E (Program.perform o) w := by
  intro w₁ hrely hinv _ w₂ a hexec
  have h₁ := hP _ _ hrely.2 h
  exact ⟨guarantees_exec hinv (hallowed w₁ h₁ hinv) hexec, hpost w₁ w₂ a h₁ hinv hexec⟩

/-- Statements on `studies` that write nothing. -/
theorem allowed_of_no_write {o : RowOp ℕ Study} (h : ∀ k r, ¬w.studies.Writes t o k r) :
    Allowed t w (.study o) := fun k r hwrite => absurd hwrite (h k r)

theorem trials_of_exec_study {o : RowOp ℕ Study} {a : o.Res}
    (h : execBaseline t w (.study o) = some (w', a)) : w'.trials = w.trials.follow t o := by
  obtain ⟨⟨s, a'⟩, -, heq⟩ := Option.map_eq_some_iff.mp h
  obtain ⟨rfl, -⟩ := Prod.mk.inj heq
  rfl

/-- Reading the study. -/
theorem safe_getStudy {P : InsertTable T Trial → Prop} (hP : Stable t P) (h : P w.trials)
    (studyId : ℕ) :
    BaselineSafe ev recursionLimit t j (fun _ w => P w.trials) E (getStudy studyId) w := by
  refine safe_perform (o := .study (.select studyId)) hP h
    (fun w _ _ => allowed_of_no_write fun _ _ hwrite => hwrite) fun w w' a h _ hexec => ?_
  rw [trials_of_exec_study hexec]
  exact h

/-- The commit publishes the insertions of the session. -/
theorem safe_commit {P : InsertTable T Trial → Prop} (hP : Stable t P) (h : P w.trials) :
    BaselineSafe ev recursionLimit t j (fun _ w => ∃ s, P s ∧ w.trials = s.commit t) E
      commit w := by
  refine safe_perform (o := .study .commit) hP h
    (fun w _ _ => allowed_of_no_write fun _ _ hwrite => hwrite) fun w w' a h _ hexec => ?_
  exact ⟨w.trials, h, trials_of_exec_study hexec⟩

/-- A rollback ends the transaction. -/
theorem safe_rollback {R : List Trial → Prop} (hR : Durable R) (h : R w.trials.committed) :
    BaselineSafe ev recursionLimit t j (fun _ w => w.trials.own t = [] ∧ R w.trials.committed)
      E rollback w := by
  refine safe_perform (o := .study .rollback) (P := fun s => R s.committed)
    (fun _ _ hframe h => hR _ _ hframe.committed h) h
    (fun w _ _ => allowed_of_no_write fun _ _ hwrite => hwrite) fun w w' a h _ hexec => ?_
  rw [trials_of_exec_study hexec]
  exact ⟨InsertTable.own_rollback, h⟩

theorem durable_true : Durable fun _ => True := fun _ _ _ _ => trivial

/-- A session is closed in the end; what it has learnt of the committed trials stays. -/
theorem safe_inSession {R : α → List Trial → Prop} (hR : ∀ a, Durable (R a)) {body : Db α}
    (h : BaselineSafe ev recursionLimit t j (fun a w => R a w.trials.committed) (fun _ _ => True)
      body w) :
    BaselineSafe ev recursionLimit t j
      (fun a w => w.trials.own t = [] ∧ R a w.trials.committed) (fun _ _ => True)
      (inSession body) w := by
  refine Safe.handle (Safe.bind (h.mono (fun a w ha => ?_) fun e w _ => ?_))
  · exact Safe.seq (safe_rollback (hR a) ha) fun _ _ h => h
  · exact Safe.seq (safe_rollback durable_true trivial) fun _ _ _ => trivial

/-- What a session learns from a trial that it finds. -/
def FoundIn (found : Option Trial) (trials : List Trial) : Prop :=
  ∀ trial, found = some trial → trial ∈ trials ∧
    (isCompleteBaseline trial → trial.primaryMetric = some (metricOrZero trial))

theorem durable_foundIn (found : Option Trial) : Durable (FoundIn found) := by
  intro trials trials' hmore h trial hfound
  obtain ⟨hmem, hmetric⟩ := h trial hfound
  exact ⟨hmore trial hmem, hmetric⟩

/-- A session that has inserted nothing finds committed trials, with their metrics. -/
theorem safe_findTrial {R : List Trial → Prop} (hR : Durable R) {p : Trial → Bool}
    {before : Trial → Trial → Bool} (hidle : w.trials.own t = []) (h : R w.trials.committed) :
    BaselineSafe ev recursionLimit t j
      (fun found w => BaselinesConsistent w ∧ (w.trials.own t = [] ∧ R w.trials.committed) ∧
        FoundIn found w.trials.committed ∧ ∀ trial, found = some trial → p trial = true)
      E (findTrial p before) w := by
  refine Safe.seq (safe_perform (o := .findTrials p before) (stable_idle hR) ⟨hidle, h⟩
    (R := fun found w => BaselinesConsistent w ∧ (w.trials.own t = [] ∧ R w.trials.committed) ∧
      ∀ trial ∈ found, trial ∈ w.trials.committed ∧ p trial = true)
    (fun _ _ _ => trivial) fun w w' found hw hinv hexec => ?_) ?_
  · obtain ⟨rfl, rfl⟩ := Prod.mk.inj (Option.some.inj hexec)
    refine ⟨hinv, hw, fun trial htrial => ?_⟩
    obtain ⟨hvisible, hp⟩ := InsertTable.mem_find.mp htrial
    rw [InsertTable.visible, hw.1, List.append_nil] at hvisible
    exact ⟨hvisible, hp⟩
  · rintro found w ⟨hinv, hw, hfound⟩
    refine ⟨hinv, hw, fun trial hhead => ?_, fun trial hhead => ?_⟩
    · have hmem := (hfound trial (List.mem_of_head? hhead)).1
      refine ⟨hmem, fun hbaseline => ?_⟩
      have hsome := hinv.metered trial (List.mem_append_left _ hmem) hbaseline
      obtain ⟨metric, hmetric⟩ := Option.isSome_iff_exists.mp hsome
      simp [metricOrZero, hmetric]
    · exact (hfound trial (List.mem_of_head? hhead)).2

/-! ## The stamp -/

/-- The trial of this id has this metric, if it is a complete baseline. -/
def Metered (trialId : ℕ) (primaryMetric : ℚ) (trials : List Trial) : Prop :=
  ∃ trial ∈ trials, trial.id = trialId ∧
    (isCompleteBaseline trial → trial.primaryMetric = some primaryMetric)

theorem durable_metered (trialId : ℕ) (primaryMetric : ℚ) :
    Durable (Metered trialId primaryMetric) := by
  rintro trials trials' hmore ⟨trial, htrial, hrest⟩
  exact ⟨trial, hmore trial htrial, hrest⟩

/-- The statement that writes the stamp. -/
def writeStamp (studyId trialId : ℕ) (primaryMetric : ℚ) : BaselineOp :=
  .study (.updateWhere studyId (fun study => study.baselineTrialId = none)
    (stamp trialId primaryMetric))

/-- The stamp of a study without one refers to its trial. -/
theorem allowed_writeStamp {studyId : ℕ} {primaryMetric : ℚ} {trial : Trial}
    (htrial : trial ∈ w.trials.committed) (hstudy : trial.studyId = studyId)
    (hbaseline : isCompleteBaseline trial)
    (hmetric : trial.primaryMetric = some primaryMetric) :
    Allowed t w (writeStamp studyId trial.id primaryMetric) := by
  rintro k r ⟨rfl, v, hv, hnone, rfl⟩
  have hunstamped : v.baselineTrialId = none := by simpa using hnone
  constructor
  · intro v' hv' trialId hstamp
    obtain rfl : v = v' := Option.some.inj (hv.symm.trans hv')
    simp [hunstamped] at hstamp
  · intro trialId hstamp
    obtain rfl : trial.id = trialId := Option.some.inj hstamp
    exact ⟨trial, htrial, rfl, hstudy, hbaseline, hmetric.symm⟩

/-- `stamp_baseline_trial`: the caller knows the metric of the trial. -/
theorem safe_stampBaselineTrial {studyId trialId : ℕ} {primaryMetric : ℚ}
    (hidle : w.trials.own t = []) (h : Metered trialId primaryMetric w.trials.committed) :
    BaselineSafe ev recursionLimit t j (fun _ _ => True) (fun _ _ => True)
      (stampBaselineTrial studyId trialId primaryMetric) w := by
  refine Safe.seq (safe_findTrial (durable_metered trialId primaryMetric) hidle h) ?_
  rintro found w ⟨hinv, ⟨hidle, known, hknown, hknownId, hknownMetric⟩, hfound, hp⟩
  cases found with
  | none => trivial
  | some trial =>
    have htrial := (hfound trial rfl).1
    have hid : trial.id = trialId := by simpa using hp trial rfl
    -- the trial that is found is the one whose metric the caller knows
    have hsame : trial = known := by
      refine hinv.unique.eq_of_clash clash_comm (List.mem_append_left _ htrial)
        (List.mem_append_left _ hknown) ?_
      simp [clash, hid, hknownId]
    subst hsame
    dsimp only
    split
    · trivial
    rename_i hstudy
    split
    · trivial
    rename_i hbaseline
    split
    · trivial
    rename_i hcomplete
    have hcompleteBaseline : isCompleteBaseline trial := by
      simp only [not_not] at hbaseline hcomplete
      simp [isCompleteBaseline, hbaseline, hcomplete]
    subst hid
    refine safe_perform (o := writeStamp studyId trial.id primaryMetric)
      (P := fun s => trial ∈ s.committed) (fun _ _ hframe h => hframe.committed _ h) htrial
      (fun w h _ => ?_) fun _ _ _ _ _ _ => trivial
    exact allowed_writeStamp h (not_not.mp hstudy) hcompleteBaseline
      (hknownMetric hcompleteBaseline)

/-- A stamp and its commit. -/
theorem safe_stampAndCommit {studyId trialId : ℕ} {primaryMetric : ℚ}
    (hidle : w.trials.own t = []) (h : Metered trialId primaryMetric w.trials.committed) :
    BaselineSafe ev recursionLimit t j (fun _ _ => True) (fun _ _ => True)
      (stampAndCommit studyId trialId primaryMetric) w := by
  have hstable : Stable (T := T) t fun _ => True := fun _ _ _ _ => trivial
  have hend : ∀ w, BaselineSafe ev recursionLimit t j (fun _ _ => True)
      (fun e w => BaselineSafe ev recursionLimit t j (fun _ _ => True) (fun _ _ => True)
        (if e.ofStamp then rollback else throw e) w) commit w :=
    fun w => (safe_commit hstable trivial).post fun _ _ _ => trivial
  refine Safe.handle (Safe.bind ((safe_stampBaselineTrial hidle h).mono (fun _ w _ => hend w) ?_))
  intro e w _
  split
  · exact (safe_rollback durable_true trivial).post fun _ _ _ => trivial
  · trivial

end RelyLoop.Trials.Baseline
