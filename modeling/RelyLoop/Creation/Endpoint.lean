import RelyLoop.Followups.Worker
import RelyLoop.Studies.ConfigSpec

/-!
# Creating a study

`POST /api/v1/studies`: the checks of a request against the database and the search engine, in
their order, and the row of an accepted request. What Pydantic makes of the search space and of
one follow-up is a parameter.
-/

namespace RelyLoop.Creation

open Python Spaces Studies Followups

/-- `ParentFollowupRef`. -/
structure ParentFollowupRef where
  proposalId : ℕ
  followupIndex : ℕ
  deriving DecidableEq

/-- `CreateStudyRequest`, with valid specifications. -/
structure CreateStudyRequest where
  name : String
  clusterId : ℕ
  target : String
  templateId : ℕ
  querySetId : ℕ
  judgmentListId : ℕ
  searchSpace : Json ℚ
  objective : ObjectiveSpec
  config : StudyConfigSpec
  parent : Option ParentFollowupRef := none
  parentStudyId : Option ℕ := none
  objectiveValid : objective.validate = .ok ()
  configValid : config.validate = .ok ()

/-- A row of `judgment_lists`. -/
structure JudgmentListRow where
  querySetId : ℕ
  clusterId : ℕ
  target : String

/-- A row of `judgments`. -/
structure JudgmentRow where
  judgmentListId : ℕ
  queryId : ℕ
  docId : String

/-- What the checks read: the rows by their ids, the study of a proposal, the follow-ups of a
study's digest, the queries with their sets, and the judgments. -/
structure Database where
  cluster : ℕ → Bool
  studyCluster : ℕ → Option ℕ
  template : ℕ → Option QueryTemplate
  querySet : ℕ → Bool
  judgmentList : ℕ → Option JudgmentListRow
  proposalStudy : ℕ → Option (Option ℕ)
  suggestedFollowups : ℕ → Option (Json ℚ)
  queries : List (ℕ × ℕ)
  judgments : List JudgmentRow

/-- How the `ids` query of the probe ends. -/
inductive SearchOutcome where
  | hits (count : ℕ)
  | unreachable
  | timeout
  | invalidQueryDsl
  | raised
  deriving DecidableEq, Repr

/-- What stands outside of the database: Pydantic, and the engine of a cluster. -/
structure Services where
  modelValidate : Json ℚ → Option SearchSpace
  validateFollowup : Json ℚ → Except String FollowupItem
  search : ℕ → String → List String → SearchOutcome

/-- The `error_code` of a refusal. -/
inductive ErrorCode where
  | invalidSearchSpace
  | clusterNotFound
  | parentStudyNotFound
  | parentStudyWrongCluster
  | templateNotFound
  | searchSpaceUnknownParam
  | searchSpaceMissingDeclaredParam
  | normalizerChoiceInvalid
  | normalizerParamShape
  | querySetNotFound
  | judgmentListNotFound
  | validationError
  | judgmentClusterMismatch
  | judgmentTargetMismatch
  | insufficientJudgmentOverlap
  | proposalNotFound
  | digestNotFound
  | followupIndexOutOfRange
  deriving DecidableEq, Repr

/-- A refusal, or an exception that no handler expects. -/
inductive CreateError where
  | refused (status : ℕ) (code : ErrorCode) (retryable : Bool)
  | raised
  deriving DecidableEq, Repr

/-- `if row is None: raise error`. -/
def found {α : Type} (error : CreateError) : Option α → Except CreateError α
  | some a => .ok a
  | none => .error error

/-- `if not condition: raise error`. -/
def require (error : CreateError) (condition : Bool) : Except CreateError Unit :=
  if condition then .ok () else .error error

/-! ## The overlap probe -/

/-- `MIN_OVERLAP`. -/
def minOverlap : ℕ := 3

/-- `MAX_PROBED_DOCS`. -/
def maxProbedDocs : ℕ := 200

/-- `OverlapProbeResult`. -/
structure OverlapProbeResult where
  overlapSize : ℕ
  probedDocCount : ℕ
  judgedDocCount : ℕ
  representativeQueryId : Option ℕ
  deriving DecidableEq

/-- The judgments of a list for a query. -/
def Database.judgmentsFor (db : Database) (judgmentListId queryId : ℕ) : List JudgmentRow :=
  db.judgments.filter fun j => j.judgmentListId = judgmentListId ∧ j.queryId = queryId

/-- `find_first_judged_query`. -/
def findFirstJudgedQuery (db : Database) (querySetId judgmentListId : ℕ) : Option ℕ :=
  ((db.queries.filter fun q =>
    q.2 = querySetId ∧ db.judgmentsFor judgmentListId q.1 ≠ []).map Prod.fst).min?

/-- `list_doc_ids_for_list_and_query`. -/
def listDocIds (db : Database) (judgmentListId queryId limit : ℕ) : List String :=
  (((db.judgmentsFor judgmentListId queryId).map JudgmentRow.docId).insertionSort
    (· ≤ ·)).take limit

/-- `probe_judgment_overlap`; `none` skips the check. -/
def probeJudgmentOverlap (services : Services) (db : Database) (request : CreateStudyRequest) :
    Except CreateError (Option OverlapProbeResult) :=
  match findFirstJudgedQuery db request.querySetId request.judgmentListId with
  | none => .ok (some ⟨0, 0, 0, none⟩)
  | some queryId =>
    let judgedDocCount := (db.judgmentsFor request.judgmentListId queryId).length
    let judgedDocIds := listDocIds db request.judgmentListId queryId maxProbedDocs
    match services.search request.clusterId request.target judgedDocIds with
    | .hits count => .ok (some ⟨count, judgedDocIds.length, judgedDocCount, some queryId⟩)
    | .unreachable | .timeout | .invalidQueryDsl => .ok none
    | .raised => .error .raised

/-- The threshold of the handler. -/
def overlapSufficient : Option OverlapProbeResult → Bool
  | none => true
  | some result => min minOverlap (max result.judgedDocCount 1) ≤ result.overlapSize

/-! ## The checks -/

/-- How the handler maps an error of `validate_against_template`. -/
def mismatchError : TemplateMismatch → CreateError
  | .unknownParam _ _ _ => .refused 400 .searchSpaceUnknownParam false
  | .missingDeclaredParam _ _ => .refused 400 .searchSpaceMissingDeclaredParam false

/-- How the handler maps an error of `validate_normalizer_reservation`. -/
def reservationError : ReservationError → CreateError
  | .pipelineMisplaced _ => .refused 400 .invalidSearchSpace false
  | .choiceInvalid _ => .refused 400 .normalizerChoiceInvalid false
  | .paramShape => .refused 400 .normalizerParamShape false

/-- The lineage to a study that is cloned. -/
def checkParentStudy (db : Database) (request : CreateStudyRequest) : Except CreateError Unit :=
  match request.parentStudyId with
  | none => .ok ()
  | some parentStudyId => do
    let parentCluster ←
      found (.refused 404 .parentStudyNotFound false) (db.studyCluster parentStudyId)
    require (.refused 422 .parentStudyWrongCluster false) (parentCluster = request.clusterId)

/-- The lineage to a follow-up of a proposal. -/
def checkParentFollowup (services : Services) (db : Database) (request : CreateStudyRequest) :
    Except CreateError Unit :=
  match request.parent with
  | none => .ok ()
  | some parent => do
    let studyId ← found (.refused 404 .proposalNotFound false) (db.proposalStudy parent.proposalId)
    let studyId ← found (.refused 404 .digestNotFound false) studyId
    let followups ← found (.refused 404 .digestNotFound true) (db.suggestedFollowups studyId)
    require (.refused 422 .followupIndexOutOfRange false)
      (parent.followupIndex < (parseFollowupList services.validateFollowup followups).length)

/-- What a row is created with beside the request: the uuid and the clock. -/
structure Stamp where
  id : ℕ
  now : ℕ

/-- The row of the endpoint. -/
def studyRow (request : CreateStudyRequest) (stamp : Stamp) : StudyRow (Json ℚ) where
  objective := request.objective.stored
  config := request.config.stored
  status := .queued
  parentStudyId := request.parentStudyId
  createdAt := stamp.now
  id := stamp.id
  name := request.name
  clusterId := request.clusterId
  target := request.target
  templateId := request.templateId
  querySetId := request.querySetId
  judgmentListId := request.judgmentListId
  searchSpace := request.searchSpace
  optunaStudyName := stamp.id
  parentProposalId := request.parent.map (·.proposalId)
  parentProposalFollowupIndex := request.parent.map (·.followupIndex)

/-- `create_study` of the API. -/
def createStudy (services : Services) (db : Database) (request : CreateStudyRequest)
    (stamp : Stamp) : Except CreateError (StudyRow (Json ℚ)) := do
  let space ← found (.refused 400 .invalidSearchSpace false)
    (services.modelValidate request.searchSpace)
  require (.refused 404 .clusterNotFound false) (db.cluster request.clusterId)
  checkParentStudy db request
  let template ← found (.refused 404 .templateNotFound false) (db.template request.templateId)
  (validateAgainstTemplate space template.declaredParams template.name).mapError mismatchError
  (validateNormalizerReservation space).mapError reservationError
  require (.refused 404 .querySetNotFound false) (db.querySet request.querySetId)
  let judgmentList ← found (.refused 404 .judgmentListNotFound false)
    (db.judgmentList request.judgmentListId)
  require (.refused 422 .validationError false) (judgmentList.querySetId = request.querySetId)
  require (.refused 422 .judgmentClusterMismatch false)
    (judgmentList.clusterId = request.clusterId)
  require (.refused 422 .judgmentTargetMismatch false) (judgmentList.target = request.target)
  let probe ← probeJudgmentOverlap services db request
  require (.refused 422 .insufficientJudgmentOverlap false) (overlapSufficient probe)
  checkParentFollowup services db request
  return studyRow request stamp

/-! ## What the endpoint accepts -/

/-- The checks that a request passes. -/
structure Acceptable (services : Services) (db : Database) (request : CreateStudyRequest)
    (space : SearchSpace) (template : QueryTemplate) (judgmentList : JudgmentListRow) : Prop where
  validSpace : services.modelValidate request.searchSpace = some space
  hasCluster : db.cluster request.clusterId = true
  hasTemplate : db.template request.templateId = some template
  hasQuerySet : db.querySet request.querySetId = true
  hasJudgmentList : db.judgmentList request.judgmentListId = some judgmentList
  sameQuerySet : judgmentList.querySetId = request.querySetId

/-- The checks of the space, the judgment list and its overlap with the target. -/
structure Matching (services : Services) (db : Database) (request : CreateStudyRequest)
    (space : SearchSpace) (template : QueryTemplate) (judgmentList : JudgmentListRow) : Prop where
  declared : validateAgainstTemplate space template.declaredParams template.name = .ok ()
  reserved : validateNormalizerReservation space = .ok ()
  sameCluster : judgmentList.clusterId = request.clusterId
  sameTarget : judgmentList.target = request.target
  overlap : ∃ probe, probeJudgmentOverlap services db request = .ok probe ∧
    overlapSufficient probe = true

variable {services : Services} {db : Database} {request : CreateStudyRequest} {stamp : Stamp}
  {row : StudyRow (Json ℚ)}

/-- A sequence of checks succeeds when each of them does. -/
theorem bind_eq_ok {α β : Type} {x : Except CreateError α} {f : α → Except CreateError β} {b : β} :
    x >>= f = .ok b ↔ ∃ a, x = .ok a ∧ f a = .ok b := by
  cases x <;> simp [bind, Except.bind]

@[simp] theorem found_eq_ok {α : Type} {error : CreateError} {x : Option α} {a : α} :
    found error x = .ok a ↔ x = some a := by
  cases x <;> simp [found]

@[simp] theorem require_eq_ok {error : CreateError} {condition : Bool} {u : Unit} :
    require error condition = .ok u ↔ condition = true := by
  cases condition <;> simp [require]

@[simp] theorem mapError_eq_ok {ε α : Type} {f : ε → CreateError} {x : Except ε α} {a : α} :
    x.mapError f = .ok a ↔ x = .ok a := by
  cases x <;> simp [Except.mapError]

/-- The endpoint creates the row of a request that passes all checks. -/
theorem createStudy_eq_ok_iff :
    createStudy services db request stamp = .ok row ↔
      (∃ space template judgmentList,
        Acceptable services db request space template judgmentList ∧
        Matching services db request space template judgmentList) ∧
      checkParentStudy db request = .ok () ∧ checkParentFollowup services db request = .ok () ∧
      row = studyRow request stamp := by
  simp only [createStudy, bind_eq_ok, found_eq_ok, require_eq_ok, mapError_eq_ok, pure,
    Except.pure, Except.ok.injEq, decide_eq_true_eq, exists_const]
  constructor
  · rintro ⟨space, hspace, hcluster, _, hparentStudy, template, htemplate, _, hdeclared, _,
      hreserved, hquerySet, judgmentList, hjudgmentList, hsame, hsameCluster, hsameTarget, probe,
      hprobe, hoverlap, _, hfollowup, hrow⟩
    exact ⟨⟨space, template, judgmentList,
      ⟨hspace, hcluster, htemplate, hquerySet, hjudgmentList, hsame⟩,
      ⟨hdeclared, hreserved, hsameCluster, hsameTarget, probe, hprobe, hoverlap⟩⟩,
      hparentStudy, hfollowup, hrow.symm⟩
  · rintro ⟨⟨space, template, judgmentList, haccept, hmatch⟩, hparentStudy, hfollowup, hrow⟩
    obtain ⟨probe, hprobe, hoverlap⟩ := hmatch.overlap
    exact ⟨space, haccept.validSpace, haccept.hasCluster, (), hparentStudy, template,
      haccept.hasTemplate, (), hmatch.declared, (), hmatch.reserved, haccept.hasQuerySet,
      judgmentList, haccept.hasJudgmentList, haccept.sameQuerySet, hmatch.sameCluster,
      hmatch.sameTarget, probe, hprobe, hoverlap, (), hfollowup, hrow.symm⟩

end RelyLoop.Creation
