import RelyLoop.Python.Dict
import RelyLoop.Python.Loops
import Mathlib.Data.Rat.Defs

/-!
# Searching a batch of queries

The `search_batch` of the two adapters: from what the engine answered to the hits
of each query, or to an exception. One `_msearch` request carries all queries of
Elasticsearch; Solr gets a `/select` request for each. With `strict_errors=False`
some failures become an empty list of hits (`SoftFails`).
-/

namespace RelyLoop.Eval

open Python

/-- `ScoredHit`. -/
structure ScoredHit where
  docId : String
  score : ℚ
  deriving DecidableEq, Repr

/-- The exceptions of a search, with their texts. -/
inductive SearchError where
  | clusterUnreachable (message : String)
  | queryTimeout (message : String)
  | invalidQueryDsl (message : String)
  | targetNotFound (target : String)
  | other (message : String)
  deriving DecidableEq, Repr

/-- `str(exc)`. -/
def SearchError.text : SearchError → String
  | clusterUnreachable message => message
  | queryTimeout message => message
  | invalidQueryDsl message => message
  | targetNotFound target => target
  | other message => message

/-- The exceptions of the HTTP client that the adapters tell apart. -/
inductive HttpException where
  | readTimeout
  | connectTimeout
  | connectError
  | remoteProtocolError
  | other
  deriving DecidableEq, Repr

/-- `text[:500]`. -/
def upTo500 (text : String) : String := String.ofList (text.toList.take 500)

/-! ## Elasticsearch -/

/-- A hit of an `_msearch` response: its `_id` and `_score`. -/
structure RawHit where
  id : Option String
  score : Option ℚ
  deriving DecidableEq, Repr

/-- An element of `responses`. -/
inductive MsearchItem where
  | error (type : Option String) (reason : String)
  | hits (hits : List RawHit)
  deriving DecidableEq, Repr

/-- What `_request` gives for `_msearch`, after its retry: an exception, or a
response with its status, its text, the text that `raise_for_status` raises for
a status that is no success, and its `responses`, when the body can be read. -/
inductive MsearchReply where
  | raises (exc : HttpException) (message : String)
  | response (status : ℕ) (text statusError : String)
      (responses : Except String (List MsearchItem))

/-- The types of engine errors that are parse errors. -/
def parseErrorTypes : List String :=
  ["parsing_exception", "x_content_parse_exception", "json_parse_exception"]

/-- `ScoredHit(doc_id=h["_id"], score=float(h.get("_score") or 0.0))`. -/
def readHit (hit : RawHit) : Except SearchError ScoredHit :=
  match hit.id with
  | none => .error (.other "'_id'")
  | some docId => .ok { docId := docId, score := hit.score.getD 0 }

/-- The hits of one element of `responses`. -/
def readItem (queryId : String) (strictErrors : Bool) :
    MsearchItem → Except SearchError (List ScoredHit)
  | .error type reason =>
    if strictErrors then
      if type.any fun type => type ∈ parseErrorTypes then
        .error (.invalidQueryDsl ("query " ++ queryId ++ ": " ++ reason))
      else .error (.clusterUnreachable ("query " ++ queryId ++ " failed: " ++ reason))
    else .ok []
  | .hits hits => hits.mapM readHit

/-- The loop over the queries and the `responses`, which have to be as many. -/
def readResponses (strictErrors : Bool) : List String → List MsearchItem →
    Dict String (List ScoredHit) → Except SearchError (Dict String (List ScoredHit))
  | [], [], out => .ok out
  | queryId :: queryIds, item :: items, out =>
    match readItem queryId strictErrors item with
    | .error e => .error e
    | .ok hits => readResponses strictErrors queryIds items (out.set queryId hits)
  | _ :: _, [], _ => .error (.other "zip() argument 2 is shorter than argument 1")
  | [], _ :: _, _ => .error (.other "zip() argument 2 is longer than argument 1")

/-- `ElasticAdapter.search_batch`. -/
def elasticSearchBatch (queryIds : List String) (strictErrors : Bool) (reply : MsearchReply) :
    Except SearchError (Dict String (List ScoredHit)) :=
  if queryIds = [] then .ok Dict.empty
  else match reply with
    | .raises .readTimeout message =>
      if strictErrors then .error (.queryTimeout message) else .error (.clusterUnreachable message)
    | .raises .other message => .error (.other message)
    | .raises _ message => .error (.clusterUnreachable message)
    | .response status text statusError responses =>
      if status = 401 ∨ status = 403 then
        .error (.clusterUnreachable
          ("Authentication failed (HTTP " ++ toString status ++ ") for _msearch"))
      else if 500 ≤ status then
        .error (.clusterUnreachable ("HTTP " ++ toString status ++ " from _msearch"))
      else if status = 400 then
        if strictErrors then
          .error (.invalidQueryDsl ("_msearch rejected the request: " ++ upTo500 text))
        else .error (.clusterUnreachable ("HTTP 400 from _msearch: " ++ upTo500 text))
      else if status < 200 ∨ 300 ≤ status then .error (.other statusError)
      else match responses with
        | .error message => .error (.other message)
        | .ok items => readResponses strictErrors queryIds items Dict.empty

/-! ## Solr -/

/-- A document of a `/select` response: its unique key and its score. -/
structure SolrDoc where
  id : Option String
  score : Option ℚ
  deriving DecidableEq, Repr

/-- What `asyncio.gather` gives for one `/select` request: an exception, or a
response with its status, the detail of its error, and its documents, when the
body can be read. Elements of `docs` that are no objects are `none`. -/
inductive SelectReply where
  | raises (exc : HttpException) (message : String)
  | response (status : ℕ) (detail : String) (docs : Except String (List (Option SolrDoc)))

/-- `_consume_search_result`. -/
def consumeSearchResult (target : String) (strictErrors : Bool) :
    SelectReply → Except SearchError (List ScoredHit)
  | .raises exc message =>
    if ¬strictErrors then .ok []
    else if exc = .readTimeout then .error (.queryTimeout message)
    else .error (.clusterUnreachable message)
  | .response status detail docs =>
    if status = 404 then .error (.targetNotFound target)
    else if status = 400 then
      if strictErrors then .error (.invalidQueryDsl ("Solr parse error: " ++ detail)) else .ok []
    else if status = 401 ∨ status = 403 then
      if strictErrors then .error (.clusterUnreachable
        ("Authentication failed (HTTP " ++ toString status ++ ") on /select"))
      else .ok []
    else if status ≠ 200 then
      if strictErrors then .error (.clusterUnreachable
        ("HTTP " ++ toString status ++ " from /" ++ target ++ "/select"))
      else .ok []
    else match docs with
      | .error message => .error (.other message)
      | .ok docs => .ok (docs.filterMap fun doc => do
          let doc ← doc
          let docId ← doc.id
          let score ← doc.score
          return { docId := docId, score := score })

/-- The loop over the queries and their results. -/
def consumeAll (target : String) (strictErrors : Bool) : List (String × SelectReply) →
    Dict String (List ScoredHit) → Except SearchError (Dict String (List ScoredHit))
  | [], out => .ok out
  | (queryId, reply) :: rest, out =>
    match consumeSearchResult target strictErrors reply with
    | .error e => .error e
    | .ok hits => consumeAll target strictErrors rest (out.set queryId hits)

/-- `SolrAdapter.search_batch`; `uniqueKeyRaises` is the text of an exception
that `_resolve_unique_key` raises, if any. -/
def solrSearchBatch (target : String) (uniqueKeyRaises : Option String)
    (queries : List (String × SelectReply)) (strictErrors : Bool) :
    Except SearchError (Dict String (List ScoredHit)) :=
  if queries = [] then .ok Dict.empty
  else match uniqueKeyRaises with
    | some message => .error (.other message)
    | none => consumeAll target strictErrors queries Dict.empty

/-! ## Both engines -/

/-- The queries of a batch, with what the engine of the cluster answers. -/
inductive EngineCall where
  | elastic (queryIds : List String) (reply : MsearchReply)
  | solr (target : String) (uniqueKeyRaises : Option String)
      (queries : List (String × SelectReply))

/-- The ids of the queries. -/
def EngineCall.queryIds : EngineCall → List String
  | elastic queryIds _ => queryIds
  | solr _ _ queries => queries.map Prod.fst

/-- `adapter.search_batch`. -/
def EngineCall.searchBatch (strictErrors : Bool) :
    EngineCall → Except SearchError (Dict String (List ScoredHit))
  | elastic queryIds reply => elasticSearchBatch queryIds strictErrors reply
  | solr target uniqueKeyRaises queries =>
    solrSearchBatch target uniqueKeyRaises queries strictErrors

/-- An element of `responses` with hits that can be read. -/
def MsearchItem.answered : MsearchItem → Bool
  | .error _ _ => false
  | .hits found => found.all fun hit => hit.id.isSome

/-- An element of `responses` that reports an error of the engine. -/
def MsearchItem.softFails : MsearchItem → Bool
  | .error _ _ => true
  | .hits _ => false

/-- A `/select` response with documents that can be read. -/
def SelectReply.answered : SelectReply → Bool
  | raises _ _ => false
  | response status _ docs => status = 200 && docs.isOk

/-- A `/select` request that raises, or whose status is neither 200 nor 404. -/
def SelectReply.softFails : SelectReply → Bool
  | raises _ _ => true
  | response status _ _ => status ≠ 200 && status ≠ 404

/-- The elements of `responses`, when the request was a success. -/
def MsearchReply.items : MsearchReply → Option (List MsearchItem)
  | response status _ _ (.ok items) => if 200 ≤ status ∧ status < 300 then some items else none
  | _ => none

/-- The engine has answered every query. -/
def EngineCall.AnsweredAll : EngineCall → Prop
  | elastic queryIds reply => queryIds = [] ∨ ∃ items, reply.items = some items ∧
      items.length = queryIds.length ∧ ∀ item ∈ items, item.answered
  | solr _ _ queries => ∀ query ∈ queries, query.2.answered

/-- The engine has failed on some query in a way that the adapter, told not to be
strict, turns into an empty list of hits. -/
def EngineCall.SoftFails : EngineCall → Prop
  | elastic queryIds reply => queryIds ≠ [] ∧ ∃ items, reply.items = some items ∧
      ∃ item ∈ items, item.softFails
  | solr _ _ queries => ∃ query ∈ queries, query.2.softFails

/-- The engine has failed in a way that makes the adapter raise: for
Elasticsearch the request as a whole, a response with too few or too many
elements, or a hit without an id; for Solr the unique key, a missing target, or a
body that cannot be read. -/
def EngineCall.HardFails : EngineCall → Prop
  | elastic queryIds reply => queryIds ≠ [] ∧ ∀ items, reply.items = some items →
      items.length ≠ queryIds.length ∨ ∃ item ∈ items, ¬item.softFails ∧ ¬item.answered
  | solr _ uniqueKeyRaises queries => queries ≠ [] ∧ (uniqueKeyRaises.isSome ∨
      ∃ query ∈ queries, ¬query.2.softFails ∧ ¬query.2.answered)

/-! ## When the adapters raise -/

theorem readHit_isOk_iff (hit : RawHit) :
    (∃ scored, readHit hit = .ok scored) ↔ hit.id.isSome := by
  unfold readHit
  cases hit.id <;> simp

theorem readItem_isOk_iff (queryId : String) (item : MsearchItem) :
    (∃ hits, readItem queryId false item = .ok hits) ↔ item.softFails ∨ item.answered := by
  cases item with
  | error type reason => simp [readItem, MsearchItem.softFails]
  | hits hits =>
    rw [readItem, mapM_isOk_iff]
    simp [MsearchItem.softFails, MsearchItem.answered, readHit_isOk_iff]

theorem readResponses_isOk_iff (queryIds : List String) (items : List MsearchItem)
    (out : Dict String (List ScoredHit)) :
    (∃ hits, readResponses false queryIds items out = .ok hits) ↔
      items.length = queryIds.length ∧ ∀ item ∈ items, item.softFails ∨ item.answered := by
  induction queryIds generalizing items out with
  | nil => cases items <;> simp [readResponses]
  | cons queryId queryIds ih =>
    cases items with
    | nil => simp [readResponses]
    | cons item items =>
      rw [readResponses, List.forall_mem_cons, ← readItem_isOk_iff queryId]
      cases hitem : readItem queryId false item with
      | error e => simp
      | ok hits => simp [ih]

/-- A reply that is consumed is a soft failure or an answer. -/
theorem consumeSearchResult_isOk_iff (target : String) (reply : SelectReply) :
    (∃ hits, consumeSearchResult target false reply = .ok hits) ↔
      reply.softFails ∨ reply.answered := by
  cases reply with
  | raises exc message => simp [consumeSearchResult, SelectReply.softFails]
  | response status detail docs =>
    by_cases hok : status = 200
    · subst hok
      cases docs <;> simp [consumeSearchResult, SelectReply.softFails, SelectReply.answered,
        Except.isOk, Except.toBool]
    · by_cases hmissing : status = 404
      · simp [consumeSearchResult, SelectReply.softFails, SelectReply.answered, hmissing]
      · have hsoft : consumeSearchResult target false (.response status detail docs) = .ok [] := by
          simp [consumeSearchResult, hmissing, hok]
        simp [hsoft, SelectReply.softFails, hok, hmissing]

theorem consumeAll_isOk_iff (target : String) (queries : List (String × SelectReply))
    (out : Dict String (List ScoredHit)) :
    (∃ hits, consumeAll target false queries out = .ok hits) ↔
      ∀ query ∈ queries, query.2.softFails ∨ query.2.answered := by
  induction queries generalizing out with
  | nil => simp [consumeAll]
  | cons query queries ih =>
    rw [List.forall_mem_cons, ← consumeSearchResult_isOk_iff target, consumeAll]
    cases hreply : consumeSearchResult target false query.2 with
    | error e => simp
    | ok hits => simp [ih]

/-- A successful `_msearch` is one whose elements are read to the end. -/
theorem elasticSearchBatch_eq_ok_iff {queryIds : List String} (hne : queryIds ≠ [])
    (reply : MsearchReply) (hits : Dict String (List ScoredHit)) :
    elasticSearchBatch queryIds false reply = .ok hits ↔ ∃ items, reply.items = some items ∧
      readResponses false queryIds items Dict.empty = .ok hits := by
  cases reply with
  | raises exc message =>
    cases exc <;> simp [elasticSearchBatch, hne, MsearchReply.items]
  | response status text statusError responses =>
    by_cases hsuccess : 200 ≤ status ∧ status < 300
    · have hrefused : ¬(status = 401 ∨ status = 403) := by omega
      have hserver : ¬500 ≤ status := by omega
      have hbad : status ≠ 400 := by omega
      have hraised : ¬(status < 200 ∨ 300 ≤ status) := by omega
      cases responses with
      | error message =>
        simp [elasticSearchBatch, hne, hrefused, hserver, hbad, hraised, MsearchReply.items]
      | ok items =>
        simp [elasticSearchBatch, hne, hrefused, hserver, hbad, hraised, MsearchReply.items,
          hsuccess]
    · have hnone : (MsearchReply.response status text statusError responses).items = none := by
        cases responses <;> simp [MsearchReply.items, hsuccess]
      have hraised : status < 200 ∨ 300 ≤ status := by omega
      rw [hnone]
      simp only [reduceCtorEq, false_and, exists_false, iff_false]
      unfold elasticSearchBatch
      rw [if_neg hne]
      dsimp only
      split_ifs <;> simp_all

/-- Not strict, the adapters raise exactly on the hard failures. -/
theorem searchBatch_isOk_iff (call : EngineCall) :
    (∃ hits, call.searchBatch false = .ok hits) ↔ ¬call.HardFails := by
  cases call with
  | elastic queryIds reply =>
    by_cases hne : queryIds = []
    · simp [EngineCall.searchBatch, elasticSearchBatch, EngineCall.HardFails, hne]
    · simp only [EngineCall.searchBatch, elasticSearchBatch_eq_ok_iff hne, EngineCall.HardFails]
      constructor
      · rintro ⟨hits, items, hitems, hread⟩ ⟨-, hhard⟩
        obtain ⟨hlength, hall⟩ :=
          (readResponses_isOk_iff queryIds items Dict.empty).mp ⟨hits, hread⟩
        rcases hhard items hitems with hmismatch | ⟨item, hitem, hsoft, hanswered⟩
        · exact hmismatch hlength
        · exact (hall item hitem).elim hsoft hanswered
      · intro hhard
        push Not at hhard
        obtain ⟨items, hitems, hlength, hall⟩ := hhard hne
        obtain ⟨hits, hread⟩ := (readResponses_isOk_iff queryIds items Dict.empty).mpr
          ⟨hlength, fun item hitem => or_iff_not_imp_left.mpr (hall item hitem)⟩
        exact ⟨hits, items, hitems, hread⟩
  | solr target uniqueKeyRaises queries =>
    by_cases hne : queries = []
    · simp [EngineCall.searchBatch, solrSearchBatch, EngineCall.HardFails, hne]
    · cases uniqueKeyRaises with
      | some message => simp [EngineCall.searchBatch, solrSearchBatch, EngineCall.HardFails, hne]
      | none =>
        simp only [EngineCall.searchBatch, solrSearchBatch, EngineCall.HardFails, hne, if_false,
          consumeAll_isOk_iff, Option.isSome_none, ne_eq, not_false_eq_true, true_and]
        simp [or_iff_not_imp_left]

/-- A soft failure is no answer. -/
theorem MsearchItem.not_answered {item : MsearchItem} (h : item.softFails = true) :
    ¬item.answered := by
  cases item with
  | error type reason => simp [answered]
  | hits hits => simp [softFails] at h

theorem SelectReply.not_answered {reply : SelectReply} (h : reply.softFails = true) :
    ¬reply.answered := by
  cases reply with
  | raises exc message => simp [answered]
  | response status detail docs =>
    simp only [softFails, ne_eq, Bool.and_eq_true, decide_eq_true_eq] at h
    simp [answered, h.1]

/-- Without hard failures, what is not a soft failure is an answer. -/
theorem answeredAll_iff {call : EngineCall} (h : ¬call.HardFails) :
    call.AnsweredAll ↔ ¬call.SoftFails := by
  cases call with
  | elastic queryIds reply =>
    by_cases hne : queryIds = []
    · simp [EngineCall.AnsweredAll, EngineCall.SoftFails, hne]
    · simp only [EngineCall.HardFails, not_and, not_forall, not_or, not_exists] at h
      obtain ⟨items, hitems, hlength, hall⟩ := h hne
      constructor
      · rintro (hnil | ⟨items', hitems', -, hanswered⟩) ⟨-, items'', hitems'', item, hitem, hsoft⟩
        · exact hne hnil
        · obtain rfl := Option.some.inj (hitems'.symm.trans hitems'')
          exact item.not_answered hsoft (hanswered item hitem)
      · intro hsoft
        refine Or.inr ⟨items, hitems, not_not.mp hlength, fun item hitem => ?_⟩
        by_contra hanswered
        exact hsoft ⟨hne, items, hitems, item, hitem,
          by_contra fun hnot => hall item hitem hnot hanswered⟩
  | solr target uniqueKeyRaises queries =>
    simp only [EngineCall.HardFails, not_and, not_or, not_exists] at h
    constructor
    · rintro hanswered ⟨query, hquery, hsoft⟩
      exact query.2.not_answered hsoft (hanswered query hquery)
    · intro hsoft query hquery
      by_contra hanswered
      have hne : queries ≠ [] := List.ne_nil_of_mem hquery
      exact (h hne).2 query hquery (fun hfails => hsoft ⟨query, hquery, hfails⟩) hanswered

/-! ## Which queries have hits -/

theorem readResponses_keys {queryIds : List String} {items : List MsearchItem}
    {out hits : Dict String (List ScoredHit)}
    (h : readResponses false queryIds items out = .ok hits) (queryId : String) :
    (hits.get? queryId).isSome ↔ queryId ∈ queryIds ∨ (out.get? queryId).isSome := by
  induction queryIds generalizing items out with
  | nil =>
    cases items with
    | nil => simp [Except.ok.inj h]
    | cons item items => cases h
  | cons first queryIds ih =>
    cases items with
    | nil => cases h
    | cons item items =>
      rw [readResponses] at h
      cases hitem : readItem first false item with
      | error e => simp [hitem] at h
      | ok found =>
        rw [hitem] at h
        rw [ih h, Dict.get?_set]
        by_cases heq : queryId = first <;> simp [heq]

theorem consumeAll_keys {target : String} {queries : List (String × SelectReply)}
    {out hits : Dict String (List ScoredHit)}
    (h : consumeAll target false queries out = .ok hits) (queryId : String) :
    (hits.get? queryId).isSome ↔ queryId ∈ queries.map Prod.fst ∨ (out.get? queryId).isSome := by
  induction queries generalizing out with
  | nil => simp [Except.ok.inj h]
  | cons query queries ih =>
    rw [consumeAll] at h
    cases hreply : consumeSearchResult target false query.2 with
    | error e => simp [hreply] at h
    | ok found =>
      rw [hreply] at h
      rw [ih h, Dict.get?_set, List.map_cons]
      by_cases heq : queryId = query.1 <;> simp [heq]

/-- The hits are those of the queries of the batch. -/
theorem searchBatch_keys {call : EngineCall} {hits : Dict String (List ScoredHit)}
    (h : call.searchBatch false = .ok hits) (queryId : String) :
    (hits.get? queryId).isSome ↔ queryId ∈ call.queryIds := by
  cases call with
  | elastic queryIds reply =>
    by_cases hne : queryIds = []
    · simp [EngineCall.searchBatch, elasticSearchBatch, hne] at h
      simp [← h, EngineCall.queryIds, hne]
    · obtain ⟨items, -, hread⟩ := (elasticSearchBatch_eq_ok_iff hne reply hits).mp h
      simpa [EngineCall.queryIds] using readResponses_keys hread queryId
  | solr target uniqueKeyRaises queries =>
    by_cases hne : queries = []
    · simp [EngineCall.searchBatch, solrSearchBatch, hne] at h
      simp [← h, EngineCall.queryIds, hne]
    · cases uniqueKeyRaises with
      | some message => simp [EngineCall.searchBatch, solrSearchBatch, hne] at h
      | none =>
        have hconsume : consumeAll target false queries Dict.empty = .ok hits := by
          simpa [EngineCall.searchBatch, solrSearchBatch, hne] using h
        simpa [EngineCall.queryIds] using consumeAll_keys hconsume queryId

end RelyLoop.Eval
