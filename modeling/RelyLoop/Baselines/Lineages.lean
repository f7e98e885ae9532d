import RelyLoop.Baselines.Resolver
import RelyLoop.Concurrency.Program
import RelyLoop.Followups.ChainRuns

/-!
# Baselines over lineages

The rows of templates, studies, trials and proposals as they come to be, in any order. A trial of
the parents has the names of the space that its own study searches; midpoints are only taken by
studies whose space has the declared names.
-/

namespace RelyLoop.Baselines

open Python Spaces Studies Followups Creation Concurrency

/-! ## Events -/

variable (A : FloatArith) (validate : Json ℚ → Except String FollowupItem)

/-- What is written to the tables. -/
inductive Event where
  | template (id : ℕ) (row : QueryTemplate)
  | create (row : StudyRow (Json ℚ)) (space : SearchSpace)
      (baselineParams : Option (Dict String (Option Choice)))
  | followup (row : StudyRow SearchSpace) (parent : BaselineStudy)
  | insert (id : ℕ) (row : BaselineStudy)
  | trial (id : ℕ) (row : TrialRow)
  | update (id : ℕ) (row : BaselineStudy)
  | complete (id : ℕ) (row : BaselineStudy) (proposalId : ℕ)
  | propose (id : ℕ) (row : ProposalRow)

namespace Tables

variable (db : Tables)

def putTemplate (id : ℕ) (row : QueryTemplate) : Tables :=
  { db with templates := Function.update db.templates id (some row) }

def putStudy (id : ℕ) (row : BaselineStudy) : Tables :=
  { db with studies := Function.update db.studies id (some row) }

def putTrial (id : ℕ) (row : TrialRow) : Tables :=
  { db with trials := Function.update db.trials id (some row) }

def putProposal (id : ℕ) (row : ProposalRow) : Tables :=
  { db with proposals := Function.update db.proposals id (some row) }

/-- An event writes its row; the completion of a study writes its proposal too. -/
def apply (db : Tables) : Event → Tables
  | .template id row => db.putTemplate id row
  | .create row space baselineParams =>
    db.putStudy row.id ⟨{ row with searchSpace := space }, baselineParams, .endpoint⟩
  | .followup row parent =>
    db.putStudy row.id ⟨row, parent.baselineParams, .followupWorker⟩
  | .insert id row => db.putStudy id { row with origin := .other }
  | .trial id row => db.putTrial id row
  | .update id row => db.putStudy id row
  | .complete id row proposalId => (db.putStudy id row).putProposal proposalId ⟨row.bestTrialId⟩
  | .propose id row => db.putProposal id row

end Tables

/-- The columns that no update changes. -/
structure SameStudy (old row : BaselineStudy) : Prop where
  templateId : row.templateId = old.templateId
  searchSpace : row.searchSpace = old.searchSpace
  parentStudyId : row.parentStudyId = old.parentStudyId
  parentProposalId : row.parentProposalId = old.parentProposalId
  baselineParams : row.baselineParams = old.baselineParams
  origin : row.origin = old.origin

theorem SameStudy.refl (row : BaselineStudy) : SameStudy row row := ⟨rfl, rfl, rfl, rfl, rfl, rfl⟩

/-- A trial that the optimizer has suggested for a study. -/
def IsTrialOf (db : Tables) (studyId trialId : ℕ) : Prop :=
  ∃ trial, db.trials trialId = some trial ∧ trial.studyId = studyId ∧ trial.isBaseline = false

/-- When an event may happen. The ids of inserts are new. The endpoint and the follow-up worker
read the tables; a trial takes what the optimizer suggests for the space of its study, the
baseline trial anything; a study completes once, with a trial of its own or none, and a proposal
takes the best trial of a study or none. -/
def Happens (db : Tables) : Event → Prop
  | .template id _ => db.templates id = none
  | .create row space _ => db.studies row.id = none ∧
      ∃ services database request stamp, createStudy services database request stamp = .ok row ∧
        services.modelValidate request.searchSpace = some space ∧
        database.template = db.templates
  | .followup row parent => db.studies row.id = none ∧
      ∃ reads, db.studies parent.id = some parent ∧ reads.template = db.templates ∧
        reads.trialParams = (fun id => (db.trials id).map TrialRow.params) ∧
        followupRow A validate reads parent.toStudyRow = .ok (some row)
  | .insert id row => db.studies id = none ∧ row.bestTrialId = none
  | .trial id row => db.trials id = none ∧ ∃ study, db.studies row.studyId = some study ∧
      (row.isBaseline = false →
        ∃ suggest, row.params = applySearchSpace suggest study.searchSpace)
  | .update id row => ∃ old, db.studies id = some old ∧ SameStudy old row ∧
      row.bestTrialId = old.bestTrialId ∧ (old.status = .completed → row.status = .completed)
  | .complete id row proposalId => db.proposals proposalId = none ∧
      ∃ old, db.studies id = some old ∧ SameStudy old row ∧
        old.status = .running ∧ row.status = .completed ∧
        ∀ trialId, row.bestTrialId = some trialId → IsTrialOf db id trialId
  | .propose id row => db.proposals id = none ∧
      ∀ trialId, row.studyTrialId = some trialId →
        ∃ studyId study, db.studies studyId = some study ∧ study.bestTrialId = some trialId

/-- A run of the system, from empty tables. -/
def Run : Tables → Tables → Prop := EventRun Tables.apply (Happens A validate)

/-! ## What holds of the rows -/

/-- The names of a suggested trial are those that its study searches. -/
def TrialSound (db : Tables) (trial : TrialRow) : Prop :=
  trial.isBaseline = false →
    ∃ study, db.studies trial.studyId = some study ∧
      trial.params.keys = study.searchSpace.names

/-- A proposal has a suggested trial or none. -/
def ProposalSound (db : Tables) (proposal : ProposalRow) : Prop :=
  ∀ trialId, proposal.studyTrialId = some trialId → ∃ studyId, IsTrialOf db studyId trialId

/-- A best trial is a suggested trial of a completed study. A study of the endpoint searches what
its template declares, and one of the follow-up worker has a parent with a best trial. -/
structure StudySound (db : Tables) (id : ℕ) (study : BaselineStudy) : Prop where
  completed : ∀ trialId, study.bestTrialId = some trialId → study.status = .completed
  best : ∀ trialId, study.bestTrialId = some trialId → IsTrialOf db id trialId
  declared : study.origin = .endpoint → ∃ template,
    db.templates study.templateId = some template ∧
      ∀ name, name ∈ study.searchSpace.names ↔ name ∈ template.declaredParams.keys
  parent : study.origin = .followupWorker → ∃ parentId parent trialId,
    study.parentStudyId = some parentId ∧ db.studies parentId = some parent ∧
      parent.bestTrialId = some trialId

/-- All rows are sound. -/
structure Sound (db : Tables) : Prop where
  trial : ∀ id row, db.trials id = some row → TrialSound db row
  proposal : ∀ id row, db.proposals id = some row → ProposalSound db row
  study : ∀ id row, db.studies id = some row → StudySound db id row

/-! ## Rows stay -/

/-- Rows are kept, and a best trial stays the best trial. -/
structure Grows (db db' : Tables) : Prop where
  template : ∀ id row, db.templates id = some row → db'.templates id = some row
  trial : ∀ id row, db.trials id = some row → db'.trials id = some row
  study : ∀ id row, db.studies id = some row → ∃ row', db'.studies id = some row' ∧
    SameStudy row row' ∧ ∀ trialId, row.bestTrialId = some trialId →
      row'.bestTrialId = some trialId

variable {A validate} {db db' : Tables} {e : Event}

/-- A new key does not change the rows before. -/
theorem update_of_none {α : Type} {f : ℕ → Option α} {id : ℕ} {row : α} (h : f id = none)
    {id' : ℕ} {row' : α} (h' : f id' = some row') :
    Function.update f id (some row) id' = some row' := by
  have hne : id' ≠ id := by
    rintro rfl
    rw [h] at h'
    cases h'
  rw [Function.update_of_ne hne, h']

/-- A row of an updated table is the new one or was there before. -/
theorem eq_or_of_update {α : Type} {f : ℕ → Option α} {id id' : ℕ} {row row' : α}
    (h : Function.update f id (some row) id' = some row') :
    id' = id ∧ row = row' ∨ f id' = some row' := by
  rw [Function.update_apply] at h
  split at h
  · rename_i heq
    exact Or.inl ⟨heq, Option.some.inj h⟩
  · exact Or.inr h

theorem Grows.isTrialOf (h : Grows db db') {studyId trialId : ℕ}
    (ht : IsTrialOf db studyId trialId) : IsTrialOf db' studyId trialId := by
  obtain ⟨trial, hget, hrest⟩ := ht
  exact ⟨trial, h.trial trialId trial hget, hrest⟩

theorem Grows.trialSound (h : Grows db db') {trial : TrialRow} (ht : TrialSound db trial) :
    TrialSound db' trial := by
  intro hsuggested
  obtain ⟨study, hget, hkeys⟩ := ht hsuggested
  obtain ⟨study', hget', hsame, -⟩ := h.study _ study hget
  exact ⟨study', hget', by rw [hkeys, hsame.searchSpace]⟩

theorem Grows.proposalSound (h : Grows db db') {proposal : ProposalRow}
    (hp : ProposalSound db proposal) : ProposalSound db' proposal := by
  intro trialId hid
  obtain ⟨studyId, htrial⟩ := hp trialId hid
  exact ⟨studyId, h.isTrialOf htrial⟩

theorem Grows.studySound (h : Grows db db') {id : ℕ} {study : BaselineStudy}
    (hs : StudySound db id study) : StudySound db' id study := by
  constructor
  · exact hs.completed
  · exact fun trialId hid => h.isTrialOf (hs.best trialId hid)
  · intro horigin
    obtain ⟨template, hget, hnames⟩ := hs.declared horigin
    exact ⟨template, h.template _ template hget, hnames⟩
  · intro horigin
    obtain ⟨parentId, parent, trialId, hid, hget, hbest⟩ := hs.parent horigin
    obtain ⟨parent', hget', -, hkeeps⟩ := h.study parentId parent hget
    exact ⟨parentId, parent', trialId, hid, hget', hkeeps trialId hbest⟩

theorem grows_putStudy {id : ℕ} {row : BaselineStudy}
    (h : ∀ old, db.studies id = some old → SameStudy old row ∧
      ∀ trialId, old.bestTrialId = some trialId → row.bestTrialId = some trialId) :
    Grows db (db.putStudy id row) := by
  refine ⟨fun _ _ h => h, fun _ _ h => h, fun id' old hget => ?_⟩
  by_cases hid : id' = id
  · subst hid
    exact ⟨row, Function.update_self _ _ _, h old hget⟩
  · exact ⟨old, (Function.update_of_ne hid _ _).trans hget, SameStudy.refl old, fun _ h => h⟩

/-- Events only add rows, and keep what studies search. -/
theorem grows_of_happens (hs : Sound db) (h : Happens A validate db e) : Grows db (db.apply e) := by
  have hnew : ∀ {id : ℕ} {row : BaselineStudy}, db.studies id = none →
      Grows db (db.putStudy id row) := fun hnone =>
    grows_putStudy fun old hold => by cases hnone.symm.trans hold
  cases e with
  | template id row =>
    exact ⟨fun _ _ => update_of_none h, fun _ _ h => h,
      fun _ row hget => ⟨row, hget, SameStudy.refl row, fun _ h => h⟩⟩
  | create row space baselineParams => exact hnew h.1
  | followup row parent => exact hnew h.1
  | insert id row => exact hnew h.1
  | trial id row =>
    exact ⟨fun _ _ h => h, fun _ _ => update_of_none h.1,
      fun _ row hget => ⟨row, hget, SameStudy.refl row, fun _ h => h⟩⟩
  | update id row =>
    obtain ⟨old, hold, hsame, hbest, -⟩ := h
    refine grows_putStudy fun old' hold' => ?_
    obtain rfl := Option.some.inj (hold.symm.trans hold')
    exact ⟨hsame, fun trialId hid => hbest.trans hid⟩
  | complete id row proposalId =>
    obtain ⟨-, old, hold, hsame, hrunning, -⟩ := h
    refine ⟨fun _ _ h => h, fun _ _ h => h, (grows_putStudy fun old' hold' => ?_).study⟩
    obtain rfl := Option.some.inj (hold.symm.trans hold')
    refine ⟨hsame, fun trialId hid => ?_⟩
    cases hrunning.symm.trans ((hs.study id old hold).completed trialId hid)
  | propose id row =>
    exact ⟨fun _ _ h => h, fun _ _ h => h,
      fun _ row hget => ⟨row, hget, SameStudy.refl row, fun _ h => h⟩⟩

/-! ## New rows are sound -/

theorem followupRow_parent {reads : FollowupReads} {parent child : StudyRow SearchSpace}
    (h : followupRow A validate reads parent = .ok (some child)) :
    child.bestTrialId = none ∧ child.parentStudyId = some parent.id ∧
      ∃ trialId, parent.bestTrialId = some trialId := by
  have hbest : ∃ trialId, parent.bestTrialId = some trialId := by
    cases hid : parent.bestTrialId with
    | some trialId => exact ⟨trialId, rfl⟩
    | none => simp [followupRow, hid] at h
  obtain ⟨template, narrowed, hinserted⟩ := inserted_of_followupRow h
  rw [hinserted.row]
  exact ⟨rfl, rfl, hbest⟩

theorem studySound_create {row : StudyRow (Json ℚ)} {space : SearchSpace}
    {baselineParams : Option (Dict String (Option Choice))}
    (h : Happens A validate db (.create row space baselineParams)) :
    StudySound db row.id ⟨{ row with searchSpace := space }, baselineParams, .endpoint⟩ := by
  obtain ⟨-, services, database, request, stamp, hcreate, hspace, htemplates⟩ := h
  obtain ⟨⟨space', template, judgmentList, haccept, hmatch⟩, -, -, rfl⟩ :=
    createStudy_eq_ok_iff.mp hcreate
  obtain rfl : space = space' := Option.some.inj (hspace.symm.trans haccept.validSpace)
  have hget : db.templates request.templateId = some template := by
    rw [← htemplates]
    exact haccept.hasTemplate
  constructor
  · intro trialId hid
    cases hid
  · intro trialId hid
    cases hid
  · exact fun _ => ⟨template, hget, validateAgainstTemplate_iff.mp hmatch.declared⟩
  · intro horigin
    cases horigin

theorem studySound_followup {row : StudyRow SearchSpace} {parent : BaselineStudy}
    (h : Happens A validate db (.followup row parent)) :
    StudySound db row.id ⟨row, parent.baselineParams, .followupWorker⟩ := by
  obtain ⟨-, reads, hparent, -, -, hrow⟩ := h
  obtain ⟨hnone, hparentId, trialId, hbest⟩ := followupRow_parent hrow
  constructor
  · intro trialId hid
    cases hnone.symm.trans hid
  · intro trialId hid
    cases hnone.symm.trans hid
  · intro horigin
    cases horigin
  · exact fun _ => ⟨parent.id, parent, trialId, hparentId, hparent, hbest⟩

/-- A change of the other columns keeps a study sound. -/
theorem StudySound.of_same {id : ℕ} {old row : BaselineStudy} (h : StudySound db id old)
    (hsame : SameStudy old row)
    (hcompleted : ∀ trialId, row.bestTrialId = some trialId → row.status = .completed)
    (hbest : ∀ trialId, row.bestTrialId = some trialId → IsTrialOf db id trialId) :
    StudySound db id row := by
  refine ⟨hcompleted, hbest, fun horigin => ?_, fun horigin => ?_⟩
  · rw [hsame.templateId, hsame.searchSpace]
    exact h.declared (hsame.origin ▸ horigin)
  · rw [hsame.parentStudyId]
    exact h.parent (hsame.origin ▸ horigin)

/-- The study that an event writes is sound. -/
theorem studySound_apply (hs : Sound db) (h : Happens A validate db e) {id : ℕ}
    {row : BaselineStudy} (hget : (db.apply e).studies id = some row) : StudySound db id row := by
  have hput : ∀ {id' : ℕ} {row' : BaselineStudy}, (db.putStudy id' row').studies id = some row →
      StudySound db id' row' → StudySound db id row := by
    intro id' row' hget hsound
    rcases eq_or_of_update hget with ⟨rfl, rfl⟩ | hold
    · exact hsound
    · exact hs.study id row hold
  cases e with
  | template id' row' => exact hs.study id row hget
  | trial id' row' => exact hs.study id row hget
  | propose id' row' => exact hs.study id row hget
  | create row' space baselineParams => exact hput hget (studySound_create h)
  | followup row' parent => exact hput hget (studySound_followup h)
  | insert id' row' =>
    apply hput hget
    constructor
    · intro trialId hid
      cases h.2.symm.trans hid
    · intro trialId hid
      cases h.2.symm.trans hid
    · intro horigin
      cases horigin
    · intro horigin
      cases horigin
  | update id' row' =>
    obtain ⟨old, hold, hsame, hbest, hcompleted⟩ := h
    have hsound := hs.study id' old hold
    refine hput hget (hsound.of_same hsame (fun trialId hid => ?_) fun trialId hid => ?_)
    · exact hcompleted (hsound.completed trialId (hbest.symm.trans hid))
    · exact hsound.best trialId (hbest.symm.trans hid)
  | complete id' row' proposalId =>
    obtain ⟨-, old, hold, hsame, -, hcompleted, hbest⟩ := h
    exact hput hget ((hs.study id' old hold).of_same hsame (fun _ _ => hcompleted) hbest)

theorem trialSound_apply (hs : Sound db) (h : Happens A validate db e) {id : ℕ} {row : TrialRow}
    (hget : (db.apply e).trials id = some row) : TrialSound db row := by
  cases e with
  | trial id' row' =>
    rcases eq_or_of_update hget with ⟨-, rfl⟩ | hold
    · obtain ⟨-, study, hstudy, hparams⟩ := h
      intro hsuggested
      obtain ⟨suggest, heq⟩ := hparams hsuggested
      exact ⟨study, hstudy, by rw [heq, keys_applySearchSpace]⟩
    · exact hs.trial id row hold
  | template id' row' => exact hs.trial id row hget
  | propose id' row' => exact hs.trial id row hget
  | create row' space baselineParams => exact hs.trial id row hget
  | followup row' parent => exact hs.trial id row hget
  | insert id' row' => exact hs.trial id row hget
  | update id' row' => exact hs.trial id row hget
  | complete id' row' proposalId => exact hs.trial id row hget

theorem proposalSound_apply (hs : Sound db) (h : Happens A validate db e) {id : ℕ}
    {row : ProposalRow} (hget : (db.apply e).proposals id = some row) : ProposalSound db row := by
  cases e with
  | propose id' row' =>
    rcases eq_or_of_update hget with ⟨-, rfl⟩ | hold
    · intro trialId hid
      obtain ⟨studyId, study, hstudy, hbest⟩ := h.2 trialId hid
      exact ⟨studyId, (hs.study studyId study hstudy).best trialId hbest⟩
    · exact hs.proposal id row hold
  | complete id' row' proposalId =>
    rcases eq_or_of_update hget with ⟨-, rfl⟩ | hold
    · obtain ⟨-, old, -, -, -, -, hbest⟩ := h
      exact fun trialId hid => ⟨id', hbest trialId hid⟩
    · exact hs.proposal id row hold
  | trial id' row' => exact hs.proposal id row hget
  | template id' row' => exact hs.proposal id row hget
  | create row' space baselineParams => exact hs.proposal id row hget
  | followup row' parent => exact hs.proposal id row hget
  | insert id' row' => exact hs.proposal id row hget
  | update id' row' => exact hs.proposal id row hget

/-- Every event keeps the rows sound. -/
theorem sound_apply (hs : Sound db) (h : Happens A validate db e) : Sound (db.apply e) := by
  have hgrows := grows_of_happens hs h
  constructor
  · exact fun id row hget => hgrows.trialSound (trialSound_apply hs h hget)
  · exact fun id row hget => hgrows.proposalSound (proposalSound_apply hs h hget)
  · exact fun id row hget => hgrows.studySound (studySound_apply hs h hget)

/-- In every run all rows are sound. -/
theorem sound_of_run (h : Run A validate .empty db) : Sound db := by
  refine EventRun.keeps (fun _ _ hs he => sound_apply hs he) ?_ h
  constructor
  · intro id row hget
    cases hget
  · intro id row hget
    cases hget
  · intro id row hget
    cases hget

/-! ## Coverage -/

variable {M : MidpointArith} {study : BaselineStudy} {template : QueryTemplate}
  {params : Dict String (Json ℚ)}

theorem suggested_of_parentProposalTrial (hs : Sound db) {id : ℕ} {trial : TrialRow}
    (h : parentProposalTrial db id = some trial) : trial.isBaseline = false := by
  obtain ⟨trialId, hid, hfilter⟩ := Option.bind_eq_some_iff.mp h
  obtain ⟨proposal, hproposal, hid⟩ := Option.bind_eq_some_iff.mp hid
  obtain ⟨hget, -⟩ := Option.filter_eq_some_iff.mp hfilter
  obtain ⟨studyId, trial', hget', -, hsuggested⟩ := hs.proposal id proposal hproposal trialId hid
  obtain rfl := Option.some.inj (hget.symm.trans hget')
  exact hsuggested

theorem suggested_of_parentStudyTrial (hs : Sound db) {id : ℕ} {trial : TrialRow}
    (h : parentStudyTrial db id = some trial) : trial.isBaseline = false := by
  obtain ⟨trialId, hid, hfilter⟩ := Option.bind_eq_some_iff.mp h
  obtain ⟨parent, hparent, hid⟩ := Option.bind_eq_some_iff.mp hid
  obtain ⟨hget, -⟩ := Option.filter_eq_some_iff.mp hfilter
  obtain ⟨trial', hget', -, hsuggested⟩ := (hs.study id parent hparent).best trialId hid
  obtain rfl := Option.some.inj (hget.symm.trans hget')
  exact hsuggested

/-- The trial of the parents has the names of the space of its own study. -/
theorem keys_of_parentTrial (hs : Sound db) {trial : TrialRow}
    (h : parentTrial db study = some trial) :
    ∃ source, db.studies trial.studyId = some source ∧
      trial.params.keys = source.searchSpace.names := by
  have hstored : (∃ id, db.trials id = some trial) ∧ trial.isBaseline = false := by
    rcases Option.or_eq_some_iff.mp h with hproposal | ⟨-, hparent⟩
    · obtain ⟨id, -, htrial⟩ := Option.bind_eq_some_iff.mp hproposal
      obtain ⟨trialId, -, hfilter⟩ := Option.bind_eq_some_iff.mp htrial
      exact ⟨⟨trialId, (Option.filter_eq_some_iff.mp hfilter).1⟩,
        suggested_of_parentProposalTrial hs htrial⟩
    · obtain ⟨id, -, htrial⟩ := Option.bind_eq_some_iff.mp hparent
      obtain ⟨trialId, -, hfilter⟩ := Option.bind_eq_some_iff.mp htrial
      exact ⟨⟨trialId, (Option.filter_eq_some_iff.mp hfilter).1⟩,
        suggested_of_parentStudyTrial hs htrial⟩
  obtain ⟨⟨id, hget⟩, hsuggested⟩ := hstored
  exact hs.trial id trial hget hsuggested

/-- A study of the follow-up worker always has a trial of its parents. -/
theorem parentTrial_ne_none (hs : Sound db) {id : ℕ} (hget : db.studies id = some study)
    (horigin : study.origin = .followupWorker) : parentTrial db study ≠ none := by
  obtain ⟨parentId, parent, trialId, hparentId, hparent, hbest⟩ :=
    (hs.study id study hget).parent horigin
  obtain ⟨trial, htrial, hstudyId, hsuggested⟩ :=
    (hs.study parentId parent hparent).best trialId hbest
  obtain ⟨source, -, hkeys⟩ := hs.trial trialId trial htrial hsuggested
  have hparams : trial.hasParams = true := by
    have hnonempty : source.searchSpace.params.keys ≠ [] := by
      simpa [Dict.keys] using source.searchSpace.nonempty
    have hentries : trial.params.entries ≠ [] := by
      intro hempty
      apply hnonempty
      rw [← SearchSpace.names, ← hkeys, Dict.keys, hempty, List.map_nil]
    simp [TrialRow.hasParams, hentries]
  have hfound : parentStudyTrial db parentId = some trial := by
    simp [parentStudyTrial, hparent, hbest, htrial, Option.filter, hparams]
  simp [parentTrial, hparentId, hfound]

/-- A baseline with a value for each parameter of the template, of which the render misses
none. -/
structure Covers (template : QueryTemplate) (params : Dict String (Json ℚ)) : Prop where
  values : ∀ name ∈ template.declaredParams.keys, name ∈ params.keys
  rendered : missingTemplateParams template params = []

theorem Covers.of_values (h : ∀ name ∈ template.declaredParams.keys, name ∈ params.keys) :
    Covers template params := ⟨h, missingTemplateParams_eq_nil h⟩

/-- The study that has made the trial of the parents searches every parameter that the template
declares. -/
def ParentSearches (db : Tables) (study : BaselineStudy) (template : QueryTemplate) : Prop :=
  ∀ trial source, parentTrial db study = some trial → db.studies trial.studyId = some source →
    ∀ name ∈ template.declaredParams.keys, name ∈ source.searchSpace.names

/-- What the operator supplies, when it is used, names every parameter that the template
declares. -/
def SuppliedNames (db : Tables) (study : BaselineStudy) (template : QueryTemplate) : Prop :=
  ∀ supplied, parentTrial db study = none → suppliedParams study = some supplied →
    ∀ name ∈ template.declaredParams.keys, name ∈ supplied.keys

/-- A boost and a slop, as the defaults start them. -/
def twoParams : Dict String ParamSpec :=
  (Dict.empty.set "boost" boostParam).set "slop" (.int ⟨0, 5, zero_le_five⟩)

theorem twoParams_ne_nil : twoParams.entries ≠ [] := by decide

theorem twoParams_capped : estimateCardinality twoParams ≤ cardinalityCap := by decide

/-- The space of both. -/
def twoSpace : SearchSpace where
  params := twoParams
  nonempty := twoParams_ne_nil
  capped := twoParams_capped

/-- A template that declares both. -/
def twoTemplate : QueryTemplate where
  name := "products"
  engineType := "elasticsearch"
  declaredParams := (Dict.empty.set "boost" "float").set "slop" "int"

theorem ndcg10_valid : ({ metric := .ndcg, k := some (some .k10) } : ObjectiveSpec).validate =
    .ok () := rfl

/-- A request for a study of the template. -/
def twoRequest : CreateStudyRequest where
  name := "products"
  clusterId := 1
  target := "products"
  templateId := 1
  querySetId := 1
  judgmentListId := 1
  searchSpace := boostJson
  objective := { metric := .ndcg, k := some (some .k10) }
  config := followingSpec
  objectiveValid := ndcg10_valid
  configValid := followingSpec_valid

/-- The space of the request is read as both parameters, and the engine knows the judgments. -/
def twoServices : Services where
  modelValidate _ := some twoSpace
  validateFollowup := readSwap
  search _ _ ids := .hits ids.length

/-- What the endpoint reads beside the templates. -/
def twoDatabase : Database where
  cluster _ := true
  studyCluster _ := none
  template id := if id = 1 then some twoTemplate else none
  querySet _ := true
  judgmentList _ := some ⟨1, 1, "products"⟩
  proposalStudy _ := none
  suggestedFollowups _ := none
  queries := [(1, 1)]
  judgments := [⟨1, 1, "a"⟩]

/-- The template and one study, with what the operator supplies. -/
def twoEvents (supplied : Option (Dict String (Option Choice))) : List Event :=
  [.template 1 twoTemplate, .create (studyRow twoRequest ⟨1, 0⟩) twoSpace supplied]

/-- The tables after both. -/
def twoTables (supplied : Option (Dict String (Option Choice))) : Tables :=
  (twoEvents supplied).foldl Tables.apply .empty

/-- The study of the endpoint. -/
def twoStudy (supplied : Option (Dict String (Option Choice))) : BaselineStudy :=
  ⟨{ studyRow twoRequest ⟨1, 0⟩ with searchSpace := twoSpace }, supplied, .endpoint⟩

theorem studies_twoTables (supplied : Option (Dict String (Option Choice))) :
    (twoTables supplied).studies 1 = some (twoStudy supplied) := rfl

theorem run_twoTables (supplied : Option (Dict String (Option Choice))) :
    Run exactArith readSwap .empty (twoTables supplied) := by
  have htemplates : twoDatabase.template =
      (Tables.empty.apply (.template 1 twoTemplate)).templates := by
    funext id
    simp [twoDatabase, Tables.apply, Tables.putTemplate, Tables.empty, Function.update_apply]
  have hcreate : Happens exactArith readSwap (Tables.empty.apply (.template 1 twoTemplate))
      (.create (studyRow twoRequest ⟨1, 0⟩) twoSpace supplied) :=
    ⟨rfl, twoServices, twoDatabase, twoRequest, ⟨1, 0⟩, rfl, rfl, htemplates⟩
  exact (Relation.ReflTransGen.single ⟨.template 1 twoTemplate, rfl, rfl⟩).tail ⟨_, hcreate, rfl⟩

end RelyLoop.Baselines
