import RelyLoop.Paging.Listing

/-!
# List endpoints

The endpoints that page by a `(value, id)` cursor, each with the filters of its list function
and of its count function, its sort keys, and its way to find the end of the listing.
-/

namespace RelyLoop.Paging

open Python

variable {F : Type}

/-! ## Filters -/

/-- The conditions of successive `where` calls. -/
def allOf (conditions : List Truth) : Truth := conditions.foldr Truth.and (some true)

/-- `if value is not None: stmt.where(column == value)`. -/
def whereEqual (column value : Option String) : Truth :=
  match value with
  | none => some true
  | some value => column.map fun text => text == value

/-- `if since is not None: stmt.where(created_at >= since)`. -/
def whereSince (createdAt : DateTime) (since : Option DateTime) : Truth :=
  match since with
  | none => some true
  | some since => some (decide (since.stamp ≤ createdAt.stamp))

/-- Full-text search of a table: the match of a query, and the rank bucket of a row. -/
structure TextSearch (R : Type) where
  matchesQuery : String → R → Truth
  rankBucket : String → R → ℤ

/-- `fts_predicate`. -/
def ftsPredicate {R : Type} (search : TextSearch R) (q : Option String) (row : R) : Truth :=
  match q with
  | none => some true
  | some q => if q = "" then some true else search.matchesQuery q row

/-- `rank_active`, with the `rank_bucket_expr` that it turns on. -/
def rankActive {R : Type} (search : TextSearch R) (q : Option String)
    (parsed : Option (ParsedSort R F)) : Option (R → ℤ) :=
  match q, parsed with
  | some q, none => if q = "" then none else some (search.rankBucket q)
  | _, _ => none

/-! ## Page boundaries -/

/-- How an endpoint finds the end of a listing: it asks for `limit` rows, or for one more.
The repository clamps the number of rows. -/
inductive Boundary where
  | atLimit (clamp : ℕ → ℕ)
  | overFetch (clamp : ℕ → ℕ)

/-- The number of rows that the query returns at most. -/
def Boundary.fetch : Boundary → ℕ → ℕ
  | atLimit clamp, limit => clamp limit
  | overFetch clamp, limit => clamp (limit + 1)

/-- The response to the rows. -/
def Boundary.pageOf {R C : Type} : Boundary → ℕ → (R → C) → ℕ → List R → Page R C
  | atLimit _, limit, cursorOf, total => pageOfLimit cursorOf limit total
  | overFetch _, limit, cursorOf, total => pageOfOverFetch cursorOf limit total

/-- `MAX_PAGE_LIMIT`. -/
def maxPageLimit : ℕ := 200

/-! ## Endpoints -/

/-- A list endpoint, with its repository functions. -/
structure ListEndpoint (F : Type) where
  Row : Type
  Query : Type
  idCol : Row → String
  order : Query → ListOrder Row F
  decode : ListOrder Row F → List Char → Option (CursorValue F × String)
  filter : Query → Row → Truth
  countFilter : Query → Row → Truth
  boundary : Boundary

/-- The response to a request. -/
def ListEndpoint.respond [PyFloat F] (e : ListEndpoint F) (db : Database F) (query : e.Query)
    (limit : ℕ) (table : List e.Row) : Option (List Char) → Option (Page e.Row (List Char)) :=
  listPage db e.idCol (e.order query) (e.decode (e.order query)) (e.filter query)
    (e.countFilter query) (e.boundary.fetch limit) (e.boundary.pageOf limit) table

/-- `decode_created_at_cursor`. -/
def decodeCreatedAtCursor [PyFloat F] (raw : List Char) : Option (CursorValue F × String) :=
  match decodeValueCursor (F := F) raw true with
  | some (.datetime createdAt, rowId) => some (.datetime createdAt, rowId)
  | _ => none

/-! ### Studies -/

structure StudyRow (F : Type) where
  id : String
  name : String
  clusterId : String
  target : String
  status : String
  bestMetric : Option F
  createdAt : DateTime
  completedAt : Option DateTime

structure StudyQuery where
  since : Option DateTime
  status : Option String
  clusterId : Option String
  target : Option String
  q : Option String
  sort : Option String

theorem status_not_timestamp : ColumnKind.text = .timestamp ↔ "status" ∈ datetimeSortCols := by
  decide

/-- `_STUDY_SORT_COLUMNS`. -/
def studySortColumns : List (SortColumn (StudyRow F) F) :=
  [⟨"name", .text, fun row => some row.name, by decide⟩,
    ⟨"created_at", .timestamp, fun row => some row.createdAt, by decide⟩,
    ⟨"completed_at", .timestamp, StudyRow.completedAt, by decide⟩,
    ⟨"best_metric", .float, StudyRow.bestMetric, best_metric_not_timestamp⟩,
    ⟨"status", .text, fun row => some row.status, status_not_timestamp⟩]

/-- The filters of `list_studies`. -/
def listStudiesWhere (search : TextSearch (StudyRow F)) (query : StudyQuery) (row : StudyRow F) :
    Truth :=
  allOf [whereEqual (some row.status) query.status, whereSince row.createdAt query.since,
    whereEqual (some row.clusterId) query.clusterId, whereEqual (some row.target) query.target,
    ftsPredicate search query.q row]

/-- The filters of `count_studies`. -/
def countStudiesWhere (search : TextSearch (StudyRow F)) (query : StudyQuery)
    (row : StudyRow F) : Truth :=
  allOf [whereEqual (some row.status) query.status, whereSince row.createdAt query.since,
    whereEqual (some row.clusterId) query.clusterId, whereEqual (some row.target) query.target,
    ftsPredicate search query.q row]

/-- `GET /studies`. -/
def listStudies [PyFloat F] (search : TextSearch (StudyRow F)) : ListEndpoint F where
  Row := StudyRow F
  Query := StudyQuery
  idCol := StudyRow.id
  order query :=
    let parsedSort := parseSort query.sort studySortColumns
    ⟨parsedSort, StudyRow.createdAt, rankActive search query.q parsedSort⟩
  decode order := order.decodeCursor
  filter := listStudiesWhere search
  countFilter := countStudiesWhere search
  boundary := .atLimit (min · 200)

/-! ### Clusters -/

structure ClusterRow where
  id : String
  name : String
  engineType : String
  environment : String
  createdAt : DateTime
  deletedAt : Option DateTime

structure ClusterQuery where
  since : Option DateTime
  engineType : Option String
  environment : Option String
  q : Option String
  sort : Option String

/-- `_CLUSTER_SORT_COLUMNS`. -/
def clusterSortColumns : List (SortColumn ClusterRow F) :=
  [⟨"name", .text, fun row => some row.name, by decide⟩,
    ⟨"created_at", .timestamp, fun row => some row.createdAt, by decide⟩,
    ⟨"environment", .text, fun row => some row.environment, by decide⟩]

/-- The filters of `list_clusters`. -/
def listClustersWhere (search : TextSearch ClusterRow) (query : ClusterQuery)
    (row : ClusterRow) : Truth :=
  allOf [some row.deletedAt.isNone, whereSince row.createdAt query.since,
    whereEqual (some row.engineType) query.engineType,
    whereEqual (some row.environment) query.environment, ftsPredicate search query.q row]

/-- The filters of `count_clusters`. -/
def countClustersWhere (search : TextSearch ClusterRow) (query : ClusterQuery)
    (row : ClusterRow) : Truth :=
  allOf [some row.deletedAt.isNone, whereSince row.createdAt query.since,
    whereEqual (some row.engineType) query.engineType,
    whereEqual (some row.environment) query.environment, ftsPredicate search query.q row]

/-- `GET /clusters`. -/
def listClusters [PyFloat F] (search : TextSearch ClusterRow) : ListEndpoint F where
  Row := ClusterRow
  Query := ClusterQuery
  idCol := ClusterRow.id
  order query :=
    let parsedSort := parseSort query.sort clusterSortColumns
    ⟨parsedSort, ClusterRow.createdAt, rankActive search query.q parsedSort⟩
  decode order := order.decodeCursor
  filter := listClustersWhere search
  countFilter := countClustersWhere search
  boundary := .atLimit (min · 200)

/-! ### Query sets -/

structure QuerySetRow where
  id : String
  name : String
  createdAt : DateTime

structure QuerySetQuery where
  since : Option DateTime
  q : Option String
  sort : Option String

/-- `_QUERY_SET_SORT_COLUMNS`. -/
def querySetSortColumns : List (SortColumn QuerySetRow F) :=
  [⟨"name", .text, fun row => some row.name, by decide⟩,
    ⟨"created_at", .timestamp, fun row => some row.createdAt, by decide⟩]

/-- The filters of `list_query_sets`. -/
def listQuerySetsWhere (search : TextSearch QuerySetRow) (query : QuerySetQuery)
    (row : QuerySetRow) : Truth :=
  allOf [whereSince row.createdAt query.since, ftsPredicate search query.q row]

/-- The filters of `count_query_sets`. -/
def countQuerySetsWhere (search : TextSearch QuerySetRow) (query : QuerySetQuery)
    (row : QuerySetRow) : Truth :=
  allOf [whereSince row.createdAt query.since, ftsPredicate search query.q row]

/-- `GET /query-sets`. -/
def listQuerySets [PyFloat F] (search : TextSearch QuerySetRow) : ListEndpoint F where
  Row := QuerySetRow
  Query := QuerySetQuery
  idCol := QuerySetRow.id
  order query :=
    let parsedSort := parseSort query.sort querySetSortColumns
    ⟨parsedSort, QuerySetRow.createdAt, rankActive search query.q parsedSort⟩
  decode order := order.decodeCursor
  filter := listQuerySetsWhere search
  countFilter := countQuerySetsWhere search
  boundary := .atLimit (min · 200)

/-! ### Query templates -/

structure QueryTemplateRow where
  id : String
  name : String
  engineType : String
  version : ℤ
  createdAt : DateTime

structure QueryTemplateQuery where
  since : Option DateTime
  engineType : Option String
  q : Option String
  sort : Option String

/-- `_QUERY_TEMPLATE_SORT_COLUMNS`. -/
def queryTemplateSortColumns : List (SortColumn QueryTemplateRow F) :=
  [⟨"name", .text, fun row => some row.name, by decide⟩,
    ⟨"created_at", .timestamp, fun row => some row.createdAt, by decide⟩,
    ⟨"engine_type", .text, fun row => some row.engineType, by decide⟩,
    ⟨"version", .integer, fun row => some row.version, by decide⟩]

/-- The filters of `list_query_templates`. -/
def listQueryTemplatesWhere (search : TextSearch QueryTemplateRow) (query : QueryTemplateQuery)
    (row : QueryTemplateRow) : Truth :=
  allOf [whereSince row.createdAt query.since, whereEqual (some row.engineType) query.engineType,
    ftsPredicate search query.q row]

/-- The filters of `count_query_templates`. -/
def countQueryTemplatesWhere (search : TextSearch QueryTemplateRow) (query : QueryTemplateQuery)
    (row : QueryTemplateRow) : Truth :=
  allOf [whereSince row.createdAt query.since, whereEqual (some row.engineType) query.engineType,
    ftsPredicate search query.q row]

/-- `GET /query-templates`. -/
def listQueryTemplates [PyFloat F] (search : TextSearch QueryTemplateRow) : ListEndpoint F where
  Row := QueryTemplateRow
  Query := QueryTemplateQuery
  idCol := QueryTemplateRow.id
  order query :=
    let parsedSort := parseSort query.sort queryTemplateSortColumns
    ⟨parsedSort, QueryTemplateRow.createdAt, rankActive search query.q parsedSort⟩
  decode order := order.decodeCursor
  filter := listQueryTemplatesWhere search
  countFilter := countQueryTemplatesWhere search
  boundary := .atLimit (min · 200)

/-! ### Judgment lists -/

structure JudgmentListRow where
  id : String
  name : String
  querySetId : String
  clusterId : String
  target : String
  status : String
  createdAt : DateTime

structure JudgmentListQuery where
  since : Option DateTime
  querySetId : Option String
  clusterId : Option String
  target : Option String
  q : Option String
  sort : Option String

/-- `_JUDGMENT_LIST_SORT_COLUMNS`. -/
def judgmentListSortColumns : List (SortColumn JudgmentListRow F) :=
  [⟨"name", .text, fun row => some row.name, by decide⟩,
    ⟨"created_at", .timestamp, fun row => some row.createdAt, by decide⟩,
    ⟨"status", .text, fun row => some row.status, status_not_timestamp⟩]

/-- The filters of `list_judgment_lists`. -/
def listJudgmentListsWhere (search : TextSearch JudgmentListRow) (query : JudgmentListQuery)
    (row : JudgmentListRow) : Truth :=
  allOf [whereSince row.createdAt query.since, whereEqual (some row.querySetId) query.querySetId,
    whereEqual (some row.clusterId) query.clusterId, whereEqual (some row.target) query.target,
    ftsPredicate search query.q row]

/-- The filters of `count_judgment_lists`. -/
def countJudgmentListsWhere (search : TextSearch JudgmentListRow) (query : JudgmentListQuery)
    (row : JudgmentListRow) : Truth :=
  allOf [whereSince row.createdAt query.since, whereEqual (some row.querySetId) query.querySetId,
    whereEqual (some row.clusterId) query.clusterId, whereEqual (some row.target) query.target,
    ftsPredicate search query.q row]

/-- `GET /judgment-lists`. -/
def listJudgmentLists [PyFloat F] (search : TextSearch JudgmentListRow) : ListEndpoint F where
  Row := JudgmentListRow
  Query := JudgmentListQuery
  idCol := JudgmentListRow.id
  order query :=
    let parsedSort := parseSort query.sort judgmentListSortColumns
    ⟨parsedSort, JudgmentListRow.createdAt, rankActive search query.q parsedSort⟩
  decode order := order.decodeCursor
  filter := listJudgmentListsWhere search
  countFilter := countJudgmentListsWhere search
  boundary := .overFetch id

/-! ### Judgments -/

structure JudgmentRow where
  id : String
  judgmentListId : String
  rating : ℤ
  source : String
  createdAt : DateTime

/-- The list is named by the path. -/
structure JudgmentQuery where
  judgmentListId : String
  source : Option String
  sort : Option String

/-- `_JUDGMENT_ROW_SORT_COLUMNS`. -/
def judgmentRowSortColumns : List (SortColumn JudgmentRow F) :=
  [⟨"created_at", .timestamp, fun row => some row.createdAt, by decide⟩,
    ⟨"rating", .integer, fun row => some row.rating, by decide⟩,
    ⟨"source", .text, fun row => some row.source, by decide⟩]

/-- The filters of `list_judgments_paginated`. -/
def listJudgmentsWhere (query : JudgmentQuery) (row : JudgmentRow) : Truth :=
  allOf [whereEqual (some row.judgmentListId) (some query.judgmentListId),
    whereEqual (some row.source) query.source]

/-- The filters of `count_judgments_for_list`. -/
def countJudgmentsWhere (query : JudgmentQuery) (row : JudgmentRow) : Truth :=
  allOf [whereEqual (some row.judgmentListId) (some query.judgmentListId),
    whereEqual (some row.source) query.source]

/-- `GET /judgment-lists/{judgment_list_id}/judgments`, of a list that exists. -/
def listJudgments [PyFloat F] : ListEndpoint F where
  Row := JudgmentRow
  Query := JudgmentQuery
  idCol := JudgmentRow.id
  order query := ⟨parseSort query.sort judgmentRowSortColumns, JudgmentRow.createdAt, none⟩
  decode order := order.decodeCursor
  filter := listJudgmentsWhere
  countFilter := countJudgmentsWhere
  boundary := .overFetch id

/-! ### Proposals -/

structure ProposalRow where
  id : String
  status : String
  clusterId : String
  templateId : String
  studyId : Option String
  prState : Option String
  createdAt : DateTime

/-- `ProposalSourceFilter`. -/
inductive ProposalSource where
  | study
  | manual

structure ProposalQuery where
  status : Option String
  clusterId : Option String
  source : Option ProposalSource
  templateId : Option String
  studyId : Option String
  isLastMerged : Option Bool
  includeSuperseded : Bool
  sort : Option String

/-- `_PROPOSAL_SORT_COLUMNS`. -/
def proposalSortColumns : List (SortColumn ProposalRow F) :=
  [⟨"created_at", .timestamp, fun row => some row.createdAt, by decide⟩,
    ⟨"status", .text, fun row => some row.status, status_not_timestamp⟩,
    ⟨"pr_state", .text, ProposalRow.prState, by decide⟩]

/-- The filter of `?status=` and `?include_superseded=`. -/
def whereStatus (query : ProposalQuery) (row : ProposalRow) : Truth :=
  match query.status with
  | some status => whereEqual (some row.status) (some status)
  | none => if query.includeSuperseded then some true else some (row.status ≠ "superseded")

/-- `_apply_source_filter`. -/
def applySourceFilter (source : Option ProposalSource) (row : ProposalRow) : Truth :=
  match source with
  | none => some true
  | some .study => some row.studyId.isSome
  | some .manual => some row.studyId.isNone

/-- `_apply_is_last_merged_filter`: a proposal is live if a config repo points at it. -/
def applyIsLastMergedFilter (livePointers : List String) (isLastMerged : Option Bool)
    (row : ProposalRow) : Truth :=
  match isLastMerged with
  | none => some true
  | some true => some (livePointers.contains row.id)
  | some false => some !livePointers.contains row.id

/-- The filters of `list_proposals_paginated`. -/
def listProposalsWhere (livePointers : List String) (query : ProposalQuery) (row : ProposalRow) :
    Truth :=
  allOf [whereStatus query row, whereEqual (some row.clusterId) query.clusterId,
    whereEqual (some row.templateId) query.templateId, whereEqual row.studyId query.studyId,
    applySourceFilter query.source row, applyIsLastMergedFilter livePointers query.isLastMerged row]

/-- The filters of `count_proposals`. -/
def countProposalsWhere (livePointers : List String) (query : ProposalQuery)
    (row : ProposalRow) : Truth :=
  allOf [whereStatus query row, whereEqual (some row.clusterId) query.clusterId,
    whereEqual (some row.templateId) query.templateId, whereEqual row.studyId query.studyId,
    applySourceFilter query.source row, applyIsLastMergedFilter livePointers query.isLastMerged row]

/-- `GET /proposals`. -/
def listProposals [PyFloat F] (livePointers : List String) : ListEndpoint F where
  Row := ProposalRow
  Query := ProposalQuery
  idCol := ProposalRow.id
  order query := ⟨parseSort query.sort proposalSortColumns, ProposalRow.createdAt, none⟩
  decode order := order.decodeCursor
  filter := listProposalsWhere livePointers
  countFilter := countProposalsWhere livePointers
  boundary := .overFetch (min · 200)

/-! ### Conversations -/

structure ConversationRow where
  id : String
  createdAt : DateTime
  deletedAt : Option DateTime

structure ConversationQuery where
  since : Option DateTime
  q : Option String

/-- The filters of `list_conversations_with_preview_data`. -/
def listConversationsWhere (search : TextSearch ConversationRow) (query : ConversationQuery)
    (row : ConversationRow) : Truth :=
  allOf [some row.deletedAt.isNone, whereSince row.createdAt query.since,
    ftsPredicate search query.q row]

/-- The filters of `count_conversations`. -/
def countConversationsWhere (search : TextSearch ConversationRow) (query : ConversationQuery)
    (row : ConversationRow) : Truth :=
  allOf [some row.deletedAt.isNone, whereSince row.createdAt query.since,
    ftsPredicate search query.q row]

/-- `GET /conversations`. Its condition on the cursor is written out in the repository, and is
that of the default order. -/
def listConversations [PyFloat F] (search : TextSearch ConversationRow) : ListEndpoint F where
  Row := ConversationRow
  Query := ConversationQuery
  idCol := ConversationRow.id
  order query := ⟨none, ConversationRow.createdAt, rankActive (F := F) search query.q none⟩
  decode order raw :=
    if order.rankBucket.isSome then order.decodeCursor raw else decodeCreatedAtCursor raw
  filter := listConversationsWhere search
  countFilter := countConversationsWhere search
  boundary := .overFetch (min · 200)

/-! ### Config repos -/

structure ConfigRepoRow where
  id : String
  createdAt : DateTime

/-- `GET /config-repos`. Its condition on the cursor is that of the default order. -/
def listConfigRepos [PyFloat F] : ListEndpoint F where
  Row := ConfigRepoRow
  Query := Unit
  idCol := ConfigRepoRow.id
  order _ := ⟨none, ConfigRepoRow.createdAt, none⟩
  decode _ := decodeCreatedAtCursor
  filter _ _ := some true
  countFilter _ _ := some true
  boundary := .overFetch (min · 201)

/-! ### All endpoints -/

inductive EndpointName where
  | studies
  | clusters
  | querySets
  | queryTemplates
  | judgmentLists
  | judgments
  | proposals
  | conversations
  | configRepos
  deriving DecidableEq

/-- What the endpoints read besides their own tables. -/
structure Surroundings (F : Type) where
  studies : TextSearch (StudyRow F)
  clusters : TextSearch ClusterRow
  querySets : TextSearch QuerySetRow
  queryTemplates : TextSearch QueryTemplateRow
  judgmentLists : TextSearch JudgmentListRow
  conversations : TextSearch ConversationRow
  /-- The proposals that config repos point at. -/
  livePointers : List String

def endpoint [PyFloat F] (surroundings : Surroundings F) : EndpointName → ListEndpoint F
  | .studies => listStudies surroundings.studies
  | .clusters => listClusters surroundings.clusters
  | .querySets => listQuerySets surroundings.querySets
  | .queryTemplates => listQueryTemplates surroundings.queryTemplates
  | .judgmentLists => listJudgmentLists surroundings.judgmentLists
  | .judgments => listJudgments
  | .proposals => listProposals surroundings.livePointers
  | .conversations => listConversations surroundings.conversations
  | .configRepos => listConfigRepos

end RelyLoop.Paging
