import RelyLoop.Creation.Endpoint
import RelyLoop.Followups.ChainRuns

/-!
# The chat tool that creates a study

`create_study_impl` mirrors the endpoint by hand: it makes the first checks of it, and writes the
row without the two parents. Where it accepts a request, the endpoint need not.
-/

namespace RelyLoop.Creation

open Python Spaces Studies Followups

/-- The row of the tool. -/
def toolRow (request : CreateStudyRequest) (stamp : Stamp) : StudyRow (Json ℚ) where
  objective := request.objective.stored
  config := request.config.stored
  status := .queued
  createdAt := stamp.now
  id := stamp.id
  name := request.name
  clusterId := request.clusterId
  target := request.target
  templateId := request.templateId
  querySetId := request.querySetId
  judgmentListId := request.judgmentListId
  searchSpace := request.searchSpace
  optunaStudyName := stamp.id

/-- `create_study_impl`. -/
def createStudyImpl (services : Services) (db : Database) (request : CreateStudyRequest)
    (stamp : Stamp) : Except CreateError (StudyRow (Json ℚ)) := do
  let _ ← found (.refused 400 .invalidSearchSpace false)
    (services.modelValidate request.searchSpace)
  require (.refused 404 .clusterNotFound false) (db.cluster request.clusterId)
  let _ ← found (.refused 404 .templateNotFound false) (db.template request.templateId)
  require (.refused 404 .querySetNotFound false) (db.querySet request.querySetId)
  let judgmentList ← found (.refused 404 .judgmentListNotFound false)
    (db.judgmentList request.judgmentListId)
  require (.refused 422 .validationError false) (judgmentList.querySetId = request.querySetId)
  return toolRow request stamp

variable {services : Services} {db : Database} {request : CreateStudyRequest} {stamp : Stamp}
  {row : StudyRow (Json ℚ)}

/-- The tool creates the row of a request that passes the checks it makes. -/
theorem createStudyImpl_eq_ok_iff :
    createStudyImpl services db request stamp = .ok row ↔
      (∃ space template judgmentList,
        Acceptable services db request space template judgmentList) ∧
      row = toolRow request stamp := by
  simp only [createStudyImpl, bind_eq_ok, found_eq_ok, require_eq_ok, pure, Except.pure,
    Except.ok.injEq, decide_eq_true_eq, exists_const]
  constructor
  · rintro ⟨space, hspace, hcluster, template, htemplate, hquerySet, judgmentList, hjudgmentList,
      hsame, hrow⟩
    exact ⟨⟨space, template, judgmentList,
      ⟨hspace, hcluster, htemplate, hquerySet, hjudgmentList, hsame⟩⟩, hrow.symm⟩
  · rintro ⟨⟨space, template, judgmentList, haccept⟩, hrow⟩
    exact ⟨space, haccept.validSpace, haccept.hasCluster, template, haccept.hasTemplate,
      haccept.hasQuerySet, judgmentList, haccept.hasJudgmentList, haccept.sameQuerySet, hrow.symm⟩

/-- The columns beside the generated id and its copy. -/
def withoutId (row : StudyRow (Json ℚ)) : StudyRow (Json ℚ) :=
  { row with id := 0, optunaStudyName := 0 }

/-- The tool and the endpoint agree on a request: what the tool creates, the endpoint creates, and
the rows are equal but for the generated ids. -/
structure Agree (services : Services) (db : Database) (request : CreateStudyRequest) (now : ℕ) :
    Prop where
  accepts : ∀ id row, createStudyImpl services db request ⟨id, now⟩ = .ok row →
    ∃ id' row', createStudy services db request ⟨id', now⟩ = .ok row'
  rows : ∀ id id' row row', createStudyImpl services db request ⟨id, now⟩ = .ok row →
    createStudy services db request ⟨id', now⟩ = .ok row' → withoutId row = withoutId row'

theorem withoutId_toolRow_eq_iff (request : CreateStudyRequest) (id id' now : ℕ) :
    withoutId (toolRow request ⟨id, now⟩) = withoutId (studyRow request ⟨id', now⟩) ↔
      request.parentStudyId = none ∧ request.parent = none := by
  constructor
  · intro h
    refine ⟨(congrArg (·.parentStudyId) h).symm, ?_⟩
    have hproposal := congrArg (·.parentProposalId) h
    exact Option.map_eq_none_iff.mp hproposal.symm
  · rintro ⟨hstudy, hproposal⟩
    simp [withoutId, toolRow, studyRow, hstudy, hproposal]

/-- The tool and the endpoint agree on a request exactly when the tool refuses it, or it passes
the checks that the tool leaves out and names no parent. -/
theorem agree_iff {now : ℕ} :
    Agree services db request now ↔
      ∀ space template judgmentList,
        Acceptable services db request space template judgmentList →
        Matching services db request space template judgmentList ∧
          request.parentStudyId = none ∧ request.parent = none := by
  constructor
  · intro h space template judgmentList haccept
    have htool : createStudyImpl services db request ⟨0, now⟩ = .ok (toolRow request ⟨0, now⟩) :=
      createStudyImpl_eq_ok_iff.mpr ⟨⟨space, template, judgmentList, haccept⟩, rfl⟩
    obtain ⟨id', row', hendpoint⟩ := h.accepts 0 _ htool
    have hrows := h.rows 0 id' _ row' htool hendpoint
    obtain ⟨⟨space', template', judgmentList', haccept', hmatch⟩, -, -, rfl⟩ :=
      createStudy_eq_ok_iff.mp hendpoint
    refine ⟨?_, (withoutId_toolRow_eq_iff request 0 id' now).mp hrows⟩
    obtain rfl : space' = space :=
      Option.some.inj (haccept'.validSpace.symm.trans haccept.validSpace)
    obtain rfl : template' = template :=
      Option.some.inj (haccept'.hasTemplate.symm.trans haccept.hasTemplate)
    obtain rfl : judgmentList' = judgmentList :=
      Option.some.inj (haccept'.hasJudgmentList.symm.trans haccept.hasJudgmentList)
    exact hmatch
  · intro h
    constructor
    · intro id row htool
      obtain ⟨⟨space, template, judgmentList, haccept⟩, -⟩ := createStudyImpl_eq_ok_iff.mp htool
      obtain ⟨hmatch, hstudy, hproposal⟩ := h space template judgmentList haccept
      refine ⟨id, studyRow request ⟨id, now⟩, createStudy_eq_ok_iff.mpr
        ⟨⟨space, template, judgmentList, haccept, hmatch⟩, ?_, ?_, rfl⟩⟩
      · rw [checkParentStudy, hstudy]
      · rw [checkParentFollowup, hproposal]
    · intro id id' row row' htool hendpoint
      obtain ⟨⟨space, template, judgmentList, haccept⟩, rfl⟩ := createStudyImpl_eq_ok_iff.mp htool
      obtain ⟨-, -, -, rfl⟩ := createStudy_eq_ok_iff.mp hendpoint
      exact (withoutId_toolRow_eq_iff request id id' now).mpr
        (h space template judgmentList haccept).2

/-! ## A judgment list for another target -/

theorem ndcg_valid : ({ metric := .ndcg, k := some (some .k10) } : ObjectiveSpec).validate =
    .ok () := rfl

/-- A request for the target `products`. -/
def productsRequest : CreateStudyRequest where
  name := "products"
  clusterId := 1
  target := "products"
  templateId := 1
  querySetId := 1
  judgmentListId := 1
  searchSpace := boostJson
  objective := { metric := .ndcg, k := some (some .k10) }
  config := followingSpec
  objectiveValid := ndcg_valid
  configValid := followingSpec_valid

/-- A database where the judgments are for the target `articles`. -/
def articlesDatabase : Database where
  cluster _ := true
  studyCluster _ := none
  template _ := some boostTemplate
  querySet _ := true
  judgmentList _ := some ⟨1, 1, "articles"⟩
  proposalStudy _ := none
  suggestedFollowups _ := none
  queries := [(1, 1)]
  judgments := [⟨1, 1, "a"⟩]

/-- The space of the request is read as the boost, and the engine knows no document. -/
def emptyEngine : Services where
  modelValidate _ := some boostSpace
  validateFollowup := readSwap
  search _ _ _ := .hits 0

/-- The tool creates a study whose trials cannot score; the endpoint refuses it. -/
theorem tool_ignores_judgment_target :
    (∃ row, createStudyImpl emptyEngine articlesDatabase productsRequest ⟨1, 0⟩ = .ok row) ∧
      ¬ Agree emptyEngine articlesDatabase productsRequest 0 := by
  have htool : createStudyImpl emptyEngine articlesDatabase productsRequest ⟨1, 0⟩ =
      .ok (toolRow productsRequest ⟨1, 0⟩) := rfl
  refine ⟨⟨_, htool⟩, fun h => ?_⟩
  obtain ⟨id', row', hendpoint⟩ := h.accepts 1 _ htool
  obtain ⟨⟨space, template, judgmentList, haccept, hmatch⟩, -⟩ :=
    createStudy_eq_ok_iff.mp hendpoint
  obtain rfl := Option.some.inj haccept.hasJudgmentList
  exact absurd hmatch.sameTarget (by decide)

/-! ## What is created may start a chain -/

/-- The root of a chain that a request creates. -/
def createdRoot (request : CreateStudyRequest) (stamp : Stamp) (space : SearchSpace) :
    RootStudy where
  row := { studyRow request stamp with searchSpace := space }
  spec := request.config
  valid := request.configValid
  config := rfl
  visited := rfl
  kind := rfl

/-- The chain of a created study has at most six links. -/
theorem length_chain_of_created (A : FloatArith) (validate : Json ℚ → Except String FollowupItem)
    (request : CreateStudyRequest) (stamp : Stamp) (space : SearchSpace)
    (deliveries : List (Outcome × FollowupReads)) :
    (chain A validate (createdRoot request stamp space) deliveries).length ≤ 6 := by
  have hlength : ((chain A validate (createdRoot request stamp space) deliveries).length : ℤ) ≤
      request.config.stored.autoFollowupDepth.getD 0 + 1 := length_chain_le _ deliveries
  have hdepth := (request.config.depth_bounds request.configValid).2
  omega

end RelyLoop.Creation
