import RelyLoop.Creation.Endpoint
import RelyLoop.Spaces.Midpoints

/-!
# Parameters of a baseline trial

`resolve_baseline_params` tries four sources in order: the trial of the parent proposal, the best
trial of the parent study, what the operator has supplied, and the midpoints of the study's own
search space. Only the last one is made from what the study itself searches.
-/

namespace RelyLoop.Baselines

open Python Spaces Studies Followups

/-! ## The rows that the resolver reads -/

/-- How a study came to be; no column of the row. -/
inductive Origin where
  | endpoint
  | followupWorker
  | other
  deriving DecidableEq, Repr

/-- A study. The operator's `baseline_params` are the key of `config` that only the resolver
reads. -/
structure BaselineStudy extends StudyRow SearchSpace where
  baselineParams : Option (Dict String (Option Choice))
  origin : Origin

/-- A row of `trials`. -/
structure TrialRow where
  studyId : ℕ
  params : Dict String (Json ℚ)
  isBaseline : Bool

/-- A row of `proposals`. -/
structure ProposalRow where
  studyTrialId : Option ℕ

/-- The tables, by their ids. -/
structure Tables where
  templates : ℕ → Option QueryTemplate
  studies : ℕ → Option BaselineStudy
  trials : ℕ → Option TrialRow
  proposals : ℕ → Option ProposalRow

/-- No row in any table. -/
def Tables.empty : Tables := ⟨fun _ => none, fun _ => none, fun _ => none, fun _ => none⟩

/-! ## The four sources -/

/-- The truth of `trial.params`. -/
def TrialRow.hasParams (trial : TrialRow) : Bool := !trial.params.entries.isEmpty

/-- The trial that `_resolve_from_parent_proposal` takes. -/
def parentProposalTrial (db : Tables) (parentProposalId : ℕ) : Option TrialRow :=
  ((db.proposals parentProposalId).bind ProposalRow.studyTrialId).bind fun trialId =>
    (db.trials trialId).filter TrialRow.hasParams

/-- `_resolve_from_parent_proposal`. -/
def resolveFromParentProposal (db : Tables) (parentProposalId : ℕ) :
    Option (Dict String (Json ℚ)) :=
  (parentProposalTrial db parentProposalId).map TrialRow.params

/-- The trial that `_resolve_from_parent_study` takes. -/
def parentStudyTrial (db : Tables) (parentStudyId : ℕ) : Option TrialRow :=
  ((db.studies parentStudyId).bind fun parent => parent.bestTrialId).bind fun trialId =>
    (db.trials trialId).filter TrialRow.hasParams

/-- `_resolve_from_parent_study`. -/
def resolveFromParentStudy (db : Tables) (parentStudyId : ℕ) : Option (Dict String (Json ℚ)) :=
  (parentStudyTrial db parentStudyId).map TrialRow.params

/-- A scalar of `baseline_params`. -/
def scalarJson : Option Choice → Json ℚ
  | none => .null
  | some choice => choice.toJson

/-- `_resolve_from_operator_supplied`. -/
def resolveFromOperatorSupplied (study : BaselineStudy) : Option (Dict String (Json ℚ)) :=
  match study.baselineParams with
  | none => none
  | some params =>
    if params.entries.isEmpty then none else some (params.mapValues scalarJson)

/-- `_resolve_from_template_defaults`. -/
def resolveFromTemplateDefaults (M : MidpointArith) (study : BaselineStudy) :
    Option (Dict String (Json ℚ)) :=
  if study.searchSpace.params.entries.isEmpty then none
  else some (study.searchSpace.params.mapItems fun _ spec => midpoint M spec)

/-- `resolve_baseline_params_from_candidates`. -/
def resolveBaselineParamsFromCandidates (M : MidpointArith) (study : BaselineStudy)
    (parentProposalParams parentStudyParams : Option (Dict String (Json ℚ))) :
    Option (Dict String (Json ℚ)) :=
  match parentProposalParams.filter fun params => !params.entries.isEmpty with
  | some params => some params
  | none =>
    match parentStudyParams.filter fun params => !params.entries.isEmpty with
    | some params => some params
    | none =>
      match resolveFromOperatorSupplied study with
      | some params => some params
      | none => resolveFromTemplateDefaults M study

/-- `resolve_baseline_params`. -/
def resolveBaselineParams (M : MidpointArith) (db : Tables) (study : BaselineStudy) :
    Option (Dict String (Json ℚ)) :=
  let parentProposalParams := study.parentProposalId.bind (resolveFromParentProposal db)
  let parentStudyParams :=
    if parentProposalParams.isNone then study.parentStudyId.bind (resolveFromParentStudy db)
    else none
  resolveBaselineParamsFromCandidates M study parentProposalParams parentStudyParams

/-- The check of `render_template_to_dict`: the declared parameters that are not supplied, without
the reserved key, which is taken out of the parameters before. -/
def missingTemplateParams (template : QueryTemplate) (params : Dict String (Json ℚ)) :
    List String :=
  let localKeys := params.keys.filter (· ≠ queryNormalizer)
  sortedNames (template.declaredParams.keys.filter fun name =>
    name ∉ localKeys ∧ name ≠ queryNormalizer)

/-! ## Which source is used -/

variable {M : MidpointArith} {db : Tables} {study : BaselineStudy} {template : QueryTemplate}
  {params : Dict String (Json ℚ)}

/-- The trial of the parents whose parameters the baseline repeats. -/
def parentTrial (db : Tables) (study : BaselineStudy) : Option TrialRow :=
  (study.parentProposalId.bind (parentProposalTrial db)).or
    (study.parentStudyId.bind (parentStudyTrial db))

/-- What the operator has supplied, when it is not empty. -/
def suppliedParams (study : BaselineStudy) : Option (Dict String (Option Choice)) :=
  study.baselineParams.filter fun params => !params.entries.isEmpty

theorem hasParams_of_parentProposalTrial {id : ℕ} {trial : TrialRow}
    (h : parentProposalTrial db id = some trial) : trial.hasParams = true := by
  obtain ⟨trialId, -, hfilter⟩ := Option.bind_eq_some_iff.mp h
  exact (Option.filter_eq_some_iff.mp hfilter).2

theorem hasParams_of_parentStudyTrial {id : ℕ} {trial : TrialRow}
    (h : parentStudyTrial db id = some trial) : trial.hasParams = true := by
  obtain ⟨trialId, -, hfilter⟩ := Option.bind_eq_some_iff.mp h
  exact (Option.filter_eq_some_iff.mp hfilter).2

/-- The sources in order: a trial of the parents, the operator, the midpoints. -/
theorem resolveBaselineParams_eq : resolveBaselineParams M db study =
    ((parentTrial db study).map TrialRow.params).or
      (((suppliedParams study).map fun params => params.mapValues scalarJson).or
        (some (study.searchSpace.params.mapItems fun _ spec => midpoint M spec))) := by
  have hdefaults : resolveFromTemplateDefaults M study =
      some (study.searchSpace.params.mapItems fun _ spec => midpoint M spec) := by
    have hnonempty := study.searchSpace.nonempty
    simp [resolveFromTemplateDefaults, hnonempty]
  have hrest : (match resolveFromOperatorSupplied study with
      | some params => some params
      | none => resolveFromTemplateDefaults M study) =
      ((suppliedParams study).map fun params => params.mapValues scalarJson).or
        (some (study.searchSpace.params.mapItems fun _ spec => midpoint M spec)) := by
    rw [hdefaults, resolveFromOperatorSupplied, suppliedParams]
    cases study.baselineParams with
    | none => rfl
    | some params => cases hempty : params.entries.isEmpty <;> simp [hempty, Option.filter]
  unfold resolveBaselineParams resolveBaselineParamsFromCandidates parentTrial
  cases hproposal : study.parentProposalId.bind (parentProposalTrial db) with
  | some trial =>
    obtain ⟨id, hid, htrial⟩ := Option.bind_eq_some_iff.mp hproposal
    have hparams := hasParams_of_parentProposalTrial htrial
    simp only [TrialRow.hasParams] at hparams
    simp [hid, resolveFromParentProposal, htrial, Option.filter, hparams]
  | none =>
    have hnone : study.parentProposalId.bind (resolveFromParentProposal db) = none := by
      cases hid : study.parentProposalId with
      | none => rfl
      | some id =>
        rw [hid, Option.bind_some] at hproposal
        simp [resolveFromParentProposal, hproposal]
    simp only [hnone, Option.isNone_none, if_true, Option.none_or, Option.filter_none, hrest]
    cases hparent : study.parentStudyId.bind (parentStudyTrial db) with
    | some trial =>
      obtain ⟨id, hid, htrial⟩ := Option.bind_eq_some_iff.mp hparent
      have hparams := hasParams_of_parentStudyTrial htrial
      simp only [TrialRow.hasParams] at hparams
      simp [hid, resolveFromParentStudy, htrial, Option.filter, hparams]
    | none =>
      have hnone' : study.parentStudyId.bind (resolveFromParentStudy db) = none := by
        cases hid : study.parentStudyId with
        | none => rfl
        | some id =>
          rw [hid, Option.bind_some] at hparent
          simp [resolveFromParentStudy, hparent]
      simp [hnone']

/-- The render misses nothing when every declared parameter has a value. -/
theorem missingTemplateParams_eq_nil
    (h : ∀ name ∈ template.declaredParams.keys, name ∈ params.keys) :
    missingTemplateParams template params = [] := by
  have hnone : ∀ name, name ∉ missingTemplateParams template params := by
    intro name hname
    rw [missingTemplateParams, mem_sortedNames, List.mem_filter] at hname
    obtain ⟨hdeclared, hmissing⟩ := hname
    obtain ⟨hlocal, hplain⟩ := of_decide_eq_true hmissing
    exact hlocal (List.mem_filter.mpr ⟨h name hdeclared, by simpa using hplain⟩)
  exact List.eq_nil_iff_forall_not_mem.mpr hnone

end RelyLoop.Baselines
