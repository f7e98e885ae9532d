import RelyLoop.Python.Json
import RelyLoop.Ubi.Features
import Mathlib.Data.List.ReduceOption

/-!
# Reading the UBI indices

The reader scans the queries of a window, scans the events of these queries in
batches of query ids, joins the two and aggregates the events of each pair. The
engine answers a scan with pages, in an order of its own; hits without the
required fields are `none`. Each scan stops at its ceiling.
-/

namespace RelyLoop.Ubi

open Python (Dict)

/-- A query execution in the query log. -/
structure UbiQuery where
  queryId : String
  userQuery : String
  deriving DecidableEq, Repr

/-- The logs of one window and the engine's answers to scans of them: the n-th
scan of the queries, and the scan of the events of a batch of query ids. -/
structure Engine where
  queries : List UbiQuery
  events : List UbiEvent
  queryPages : ℕ → List (List (Option UbiQuery))
  eventPages : List String → List (List (Option UbiEvent))
  queryPages_perm : ∀ scan, (queryPages scan).flatten.reduceOption.Perm queries
  eventPages_perm : ∀ ids, (eventPages ids).flatten.reduceOption.Perm
    (events.filter fun event => event.queryId ∈ ids)

/-- The engine that answers each scan with one page, in the order of the logs. -/
def Engine.ofLogs (queries : List UbiQuery) (events : List UbiEvent) : Engine where
  queries := queries
  events := events
  queryPages _ := [queries.map some]
  eventPages ids := [(events.filter fun event => event.queryId ∈ ids).map some]
  queryPages_perm _ := .of_eq (by simp [List.reduceOption])
  eventPages_perm _ := .of_eq (by simp [List.reduceOption])

/-- The ceilings of the scans and of the batches of query ids, with the size of
the engine's filter fragment. -/
structure ReaderSettings where
  maxEvents : ℕ
  maxQueries : ℕ
  queryIdBatchSize : ℕ
  queryIdBatchMaxBytes : ℕ
  fragmentSize : List String → ℕ

/-- The loop of `_chunk_query_ids`. -/
def chunkQueryIds (settings : ReaderSettings) (current : List String) :
    List String → List (List String)
  | [] => if current = [] then [] else [current]
  | queryId :: queryIds =>
    let candidate := current ++ [queryId]
    if settings.queryIdBatchSize < candidate.length ∨
        settings.queryIdBatchMaxBytes < settings.fragmentSize candidate then
      if current = [] then [queryId] :: chunkQueryIds settings [] queryIds
      else current :: chunkQueryIds settings [queryId] queryIds
    else chunkQueryIds settings candidate queryIds

/-- The page loop of a scan with a budget of rows. -/
def takePages {α : Type} (remaining : ℕ) : List (List α) → List α
  | [] => []
  | page :: pages =>
    if remaining = 0 then []
    else
      let take := page.take remaining
      if take.length < page.length then take
      else take ++ takePages (remaining - take.length) pages

/-- `_scan_ubi_queries`, the n-th time. -/
def scanUbiQueries (engine : Engine) (settings : ReaderSettings) (scan : ℕ) : List UbiQuery :=
  (takePages settings.maxQueries (engine.queryPages scan)).reduceOption

/-- The batch loop of `_scan_ubi_events`; the batches share one budget. -/
def scanBatches (engine : Engine) (remaining : ℕ) : List (List String) → List (Option UbiEvent)
  | [] => []
  | batch :: batches =>
    if remaining = 0 then []
    else
      let taken := takePages remaining (engine.eventPages batch)
      taken ++ scanBatches engine (remaining - taken.length) batches

/-- `sorted({entry["query_id"] for entry in queries_payload})`. -/
def sortedQueryIds (queries : List UbiQuery) : List String :=
  (queries.map UbiQuery.queryId).dedup.mergeSort fun a b => decide (a ≤ b)

/-- The events that `read_features` aggregates. -/
def scannedEvents (engine : Engine) (settings : ReaderSettings) : List UbiEvent :=
  let queryIds := sortedQueryIds (scanUbiQueries engine settings 0)
  (scanBatches engine settings.maxEvents (chunkQueryIds settings [] queryIds)).reduceOption

/-- The key of an event in `events_by_pair`. -/
def UbiEvent.pair (event : UbiEvent) : String × String := (event.queryId, event.docId)

/-- `UbiReader.read_features`. -/
def readFeatures (engine : Engine) (settings : ReaderSettings) (prior : PositionBiasPrior) :
    Dict (String × String) FeatureVec :=
  let queriesPayload := scanUbiQueries engine settings 0
  if queriesPayload = [] then Dict.empty
  else
    let eventsByPair := Dict.group UbiEvent.pair (scannedEvents engine settings)
    if eventsByPair.entries = [] then Dict.empty
    else aggregateFeatures eventsByPair prior

/-- `UbiReader.read_user_query_map`, which scans the queries a second time. -/
def readUserQueryMap (engine : Engine) (settings : ReaderSettings) : Dict String String :=
  Dict.ofList ((scanUbiQueries engine settings 1).map fun entry => (entry.queryId, entry.userQuery))

/-! ## What the scans return -/

/-- The batches hold the query ids in order. -/
theorem chunkQueryIds_flatten (settings : ReaderSettings) (current queryIds : List String) :
    (chunkQueryIds settings current queryIds).flatten = current ++ queryIds := by
  induction queryIds generalizing current with
  | nil =>
    unfold chunkQueryIds
    split <;> simp_all
  | cons queryId queryIds ih =>
    unfold chunkQueryIds
    dsimp only
    split
    · split
      · rename_i hcurrent
        simp [ih, hcurrent]
      · simp [ih]
    · simp [ih]

/-- The page loop returns the first rows of the stream. -/
theorem takePages_eq {α : Type} (remaining : ℕ) (pages : List (List α)) :
    takePages remaining pages = pages.flatten.take remaining := by
  induction pages generalizing remaining with
  | nil => simp [takePages]
  | cons page pages ih =>
    unfold takePages
    split
    · rename_i hzero
      simp [hzero]
    · dsimp only
      split
      · rename_i hcut
        have hle : remaining ≤ page.length := by
          rw [List.length_take] at hcut
          omega
        rw [List.flatten_cons, List.take_append_of_le_length hle]
      · rename_i hwhole
        have hle : page.length ≤ remaining := by
          rw [List.length_take] at hwhole
          omega
        rw [ih, List.flatten_cons, List.take_append, List.take_of_length_le hle]

/-- The hits of all batches. -/
def batchHits (engine : Engine) (batches : List (List String)) : List (Option UbiEvent) :=
  (batches.map fun batch => (engine.eventPages batch).flatten).flatten

/-- The batch loop returns the first hits of all batches. -/
theorem scanBatches_eq (engine : Engine) (remaining : ℕ) (batches : List (List String)) :
    scanBatches engine remaining batches = (batchHits engine batches).take remaining := by
  induction batches generalizing remaining with
  | nil => simp [scanBatches, batchHits]
  | cons batch batches ih =>
    have hcons : batchHits engine (batch :: batches) =
        (engine.eventPages batch).flatten ++ batchHits engine batches := by
      simp [batchHits]
    unfold scanBatches
    split
    · rename_i hzero
      simp [hzero]
    · dsimp only
      rw [ih, takePages_eq, hcons, List.take_append, List.length_take]
      congr 2
      omega

/-- The readable hits of the batches are the events of their query ids. -/
theorem batchHits_perm (engine : Engine) {batches : List (List String)}
    (h : batches.flatten.Nodup) :
    (batchHits engine batches).reduceOption.Perm
      (engine.events.filter fun event => event.queryId ∈ batches.flatten) := by
  induction batches with
  | nil => simp [batchHits, List.reduceOption]
  | cons batch batches ih =>
    rw [List.flatten_cons] at h
    obtain ⟨-, hrest, hdisjoint⟩ := List.nodup_append.mp h
    have hhead := engine.eventPages_perm batch
    have hsplit : (engine.events.filter fun event => event.queryId ∈ batch).Perm
        ((engine.events.filter fun event => event.queryId ∈ (batch :: batches).flatten).filter
          fun event => event.queryId ∈ batch) := by
      rw [List.filter_filter]
      refine .of_eq (List.filter_congr fun event _ => ?_)
      by_cases hmem : event.queryId ∈ batch <;> simp [hmem]
    have htail : (engine.events.filter fun event => event.queryId ∈ batches.flatten).Perm
        ((engine.events.filter fun event => event.queryId ∈ (batch :: batches).flatten).filter
          fun event => !decide (event.queryId ∈ batch)) := by
      rw [List.filter_filter]
      refine .of_eq (List.filter_congr fun event _ => ?_)
      by_cases hmem : event.queryId ∈ batch
      · have hnot : event.queryId ∉ batches.flatten := fun hlater =>
          hdisjoint _ hmem _ hlater rfl
        simp only [hmem, hnot, decide_true, decide_false, Bool.not_true, Bool.false_and]
      · simp [hmem]
    have hcons : (batchHits engine (batch :: batches)).reduceOption =
        (engine.eventPages batch).flatten.reduceOption ++
          (batchHits engine batches).reduceOption := by
      simp [batchHits, List.reduceOption_append]
    rw [hcons]
    exact ((hhead.trans hsplit).append ((ih hrest).trans htail)).trans
      (List.filter_append_perm _ _)

/-- The scans return queries of the log. -/
theorem mem_of_mem_scanUbiQueries {engine : Engine} {settings : ReaderSettings} {scan : ℕ}
    {query : UbiQuery} (h : query ∈ scanUbiQueries engine settings scan) :
    query ∈ engine.queries := by
  rw [scanUbiQueries, takePages_eq, List.reduceOption_mem_iff] at h
  have hhit := List.reduceOption_mem_iff.mpr (List.mem_of_mem_take h)
  exact (engine.queryPages_perm scan).mem_iff.mp hhit

theorem mem_readUserQueryMap {engine : Engine} {settings : ReaderSettings} {queryId : String}
    (h : queryId ∈ (readUserQueryMap engine settings).entries.map Prod.fst) :
    ∃ query ∈ engine.queries, query.queryId = queryId := by
  obtain ⟨e, he, rfl⟩ := List.mem_map.mp (Dict.mem_of_ofList h)
  obtain ⟨query, hquery, rfl⟩ := List.mem_map.mp he
  exact ⟨query, mem_of_mem_scanUbiQueries hquery, rfl⟩

theorem mem_sortedQueryIds (queries : List UbiQuery) (queryId : String) :
    queryId ∈ sortedQueryIds queries ↔ ∃ query ∈ queries, query.queryId = queryId := by
  rw [sortedQueryIds, List.mem_mergeSort, List.mem_dedup, List.mem_map]

theorem sortedQueryIds_nodup (queries : List UbiQuery) : (sortedQueryIds queries).Nodup :=
  (List.mergeSort_perm _ _).nodup_iff.mpr (List.nodup_dedup _)

/-- The scans return events of the log. -/
theorem mem_of_mem_scannedEvents {engine : Engine} {settings : ReaderSettings} {event : UbiEvent}
    (h : event ∈ scannedEvents engine settings) : event ∈ engine.events := by
  have hflatten := chunkQueryIds_flatten settings []
    (sortedQueryIds (scanUbiQueries engine settings 0))
  have hnodup := sortedQueryIds_nodup (scanUbiQueries engine settings 0)
  rw [← List.nil_append (sortedQueryIds _), ← hflatten] at hnodup
  rw [scannedEvents, scanBatches_eq, List.reduceOption_mem_iff] at h
  have hhit := List.reduceOption_mem_iff.mpr (List.mem_of_mem_take h)
  exact (List.mem_filter.mp ((batchHits_perm engine hnodup).mem_iff.mp hhit)).1

/-- Below their ceilings the scans return every event whose query is in the log. -/
theorem scannedEvents_perm {engine : Engine} {settings : ReaderSettings}
    (hqueries : (engine.queryPages 0).flatten.length ≤ settings.maxQueries)
    (hevents : (batchHits engine (chunkQueryIds settings []
      (sortedQueryIds (scanUbiQueries engine settings 0)))).length ≤ settings.maxEvents) :
    (scannedEvents engine settings).Perm
      (engine.events.filter fun event =>
        ∃ query ∈ engine.queries, query.queryId = event.queryId) := by
  have hflatten := chunkQueryIds_flatten settings []
    (sortedQueryIds (scanUbiQueries engine settings 0))
  rw [List.nil_append] at hflatten
  have hnodup := sortedQueryIds_nodup (scanUbiQueries engine settings 0)
  rw [← hflatten] at hnodup
  have hscan : (scanUbiQueries engine settings 0).Perm engine.queries := by
    rw [scanUbiQueries, takePages_eq, List.take_of_length_le hqueries]
    exact engine.queryPages_perm 0
  rw [scannedEvents, scanBatches_eq, List.take_of_length_le hevents]
  refine (batchHits_perm engine hnodup).trans (.of_eq (List.filter_congr fun event _ => ?_))
  rw [hflatten, decide_eq_decide, mem_sortedQueryIds]
  exact exists_congr fun query => and_congr_left fun _ => hscan.mem_iff

end RelyLoop.Ubi

/-!
## Batches of query ids

The events of a window are scanned for one batch of query ids after another. A batch has two
ceilings: for the number of its ids, and for the bytes of the filter that the engine is sent.
-/

namespace RelyLoop.Ubi

open Python

/-- `engine_type` of an adapter. -/
inductive EngineType where
  | elasticsearch
  | opensearch
  | solr
  deriving DecidableEq, Repr

/-- A filter has no floats. -/
instance : PyFloat Empty where
  text f := nomatch f
  read _ := none
  text_ne_nil f := nomatch f
  isTokenChar_of_mem f := nomatch f
  readPlainToken_text f := nomatch f
  read_text f := nomatch f

/-- The filter of the engine for a batch. -/
def termsFragment (engineType : EngineType) (ids : List String) : String :=
  match engineType with
  | .solr => "\x7b!terms f=query_id\x7d" ++ ",".intercalate ids
  | _ => String.ofList (dumps {} (.dict ["terms"]
      [.dict ["query_id"] [.list (ids.map Json.str)]] : Json Empty))

/-- `_serialized_terms_fragment_size`: the length of the filter in UTF-8. -/
def serializedTermsFragmentSize (engineType : EngineType) (ids : List String) : ℕ :=
  (termsFragment engineType ids).utf8ByteSize

example : serializedTermsFragmentSize .solr ["a", "é"] = 23 := by decide +kernel

/-- The ceilings of `Settings` for the scans and the batches, with the bounds of their fields. -/
structure UbiSettings where
  ubiMaxEventsScan : ℕ
  ubiMaxQueriesScan : ℕ
  ubiQueryIdBatchSize : ℕ
  ubiQueryIdBatchMaxBytes : ℕ
  maxEventsScan_ge : 1000 ≤ ubiMaxEventsScan
  maxQueriesScan_ge : 1000 ≤ ubiMaxQueriesScan
  queryIdBatchSize_ge : 1 ≤ ubiQueryIdBatchSize
  queryIdBatchMaxBytes_ge : 512 ≤ ubiQueryIdBatchMaxBytes

/-- The ceilings with which the workers construct a `UbiReader`. -/
def UbiSettings.reader (settings : UbiSettings) (engineType : EngineType) : ReaderSettings where
  maxEvents := settings.ubiMaxEventsScan
  maxQueries := settings.ubiMaxQueriesScan
  queryIdBatchSize := settings.ubiQueryIdBatchSize
  queryIdBatchMaxBytes := settings.ubiQueryIdBatchMaxBytes
  fragmentSize := serializedTermsFragmentSize engineType

/-- The engine is sent at most `queryIdBatchSize` ids, in at most `queryIdBatchMaxBytes` bytes
unless the id is alone. -/
structure WithinCeilings (settings : ReaderSettings) (chunk : List String) : Prop where
  nonempty : chunk ≠ []
  count : chunk.length ≤ settings.queryIdBatchSize
  bytes : settings.fragmentSize chunk ≤ settings.queryIdBatchMaxBytes ∨ chunk.length = 1

variable {settings : ReaderSettings} {current : List String}

theorem withinCeilings_singleton (hcount : 1 ≤ settings.queryIdBatchSize) (queryId : String) :
    WithinCeilings settings [queryId] where
  nonempty := List.cons_ne_nil queryId []
  count := hcount
  bytes := Or.inr rfl

/-- Each batch is the one that is filled, or a later one. -/
theorem withinCeilings_of_mem (hcount : 1 ≤ settings.queryIdBatchSize)
    (hcurrent : current = [] ∨ WithinCeilings settings current) (queryIds : List String) :
    ∀ chunk ∈ chunkQueryIds settings current queryIds, WithinCeilings settings chunk := by
  induction queryIds generalizing current with
  | nil =>
    intro chunk hchunk
    rw [chunkQueryIds] at hchunk
    split at hchunk
    · cases hchunk
    · rename_i hne
      obtain rfl := List.mem_singleton.mp hchunk
      exact hcurrent.resolve_left hne
  | cons queryId queryIds ih =>
    intro chunk hchunk
    have hsingle := withinCeilings_singleton hcount queryId
    rw [chunkQueryIds] at hchunk
    split at hchunk
    · split at hchunk
      · rcases List.mem_cons.mp hchunk with rfl | hlater
        · exact hsingle
        · exact ih (Or.inl rfl) chunk hlater
      · rename_i hne
        rcases List.mem_cons.mp hchunk with rfl | hlater
        · exact hcurrent.resolve_left hne
        · exact ih (Or.inr hsingle) chunk hlater
    · rename_i hfits
      push Not at hfits
      obtain ⟨hlength, hsize⟩ := hfits
      apply ih _ chunk hchunk
      right
      constructor
      · simp
      · exact hlength
      · exact Or.inl hsize

/-- The batches hold the ids in order, and each keeps to the ceilings. -/
theorem chunkQueryIds_spec (settings : UbiSettings) (engineType : EngineType)
    (queryIds : List String) :
    (chunkQueryIds (settings.reader engineType) [] queryIds).flatten = queryIds ∧
      ∀ chunk ∈ chunkQueryIds (settings.reader engineType) [] queryIds,
        WithinCeilings (settings.reader engineType) chunk := by
  constructor
  · rw [chunkQueryIds_flatten, List.nil_append]
  · exact withinCeilings_of_mem settings.queryIdBatchSize_ge (Or.inl rfl) queryIds

end RelyLoop.Ubi
