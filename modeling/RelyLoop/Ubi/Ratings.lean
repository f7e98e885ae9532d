import RelyLoop.Ubi.Mapping
import RelyLoop.Ubi.Reader

/-!
# The feature vectors that are rated

The worker of a UBI judgment list re-keys the feature vectors of query
executions by the queries they are mapped to. Several executions of one query
may carry events on the same document; the property of interest is that the
vector rated for a query and a document combines all of them.
-/

namespace RelyLoop.Ubi

open Python (Dict)

/-- The inputs of a run of the worker. -/
structure Generation where
  engine : Engine
  settings : ReaderSettings
  prior : PositionBiasPrior
  querySetRows : List QueryRow
  strategy : MappingStrategy

/-- How a run ends: which vectors the converter is given, if any. -/
inductive Outcome where
  | insufficientData
  | raised (e : AttributeError)
  | noScopedFeatures (ambiguousSkipCount : ℕ)
  | rates (scopedFeatures : Dict (String × String) FeatureVec) (ambiguousSkipCount : ℕ)

/-- The vectors that the converter rates. -/
def Outcome.rated : Outcome → Dict (String × String) FeatureVec
  | .rates scopedFeatures _ => scopedFeatures
  | _ => Dict.empty

namespace Generation

variable (run : Generation)

/-- The result of `_apply_mapping_strategy`. -/
def mappingResult : Except AttributeError (Dict String String × ℕ) :=
  applyMappingStrategy (readUserQueryMap run.engine run.settings) run.querySetRows run.strategy

/-- `query_id_map`, with the number of ambiguous executions. Nothing is mapped when the strategy
raises. -/
def queryIdMap : Dict String String × ℕ := run.mappingResult.toOption.getD (Dict.empty, 0)

/-- The pair under which the worker files the vector of an execution and a document. -/
def scopedKey (pair : String × String) : Option (String × String) :=
  (run.queryIdMap.1.get? pair.1).map fun internalQid => (internalQid, pair.2)

/-- `generate_judgments_from_ubi`, from the reading of the features to the conversion. -/
def generateJudgmentsFromUbi : Outcome :=
  let features := readFeatures run.engine run.settings run.prior
  if features.entries = [] then .insufficientData
  else
    match run.mappingResult with
    | .error e => .raised e
    | .ok _ =>
      let scopedFeatures := features.rekey run.scopedKey
      if scopedFeatures.entries = [] then .noScopedFeatures run.queryIdMap.2
      else .rates scopedFeatures run.queryIdMap.2

/-! ## What is to be rated -/

/-- All events of the log on a document by executions that are mapped to a query. -/
def eventsOn (q d : String) : List UbiEvent :=
  run.engine.events.filter fun event =>
    run.queryIdMap.1.get? event.queryId = some q ∧ event.docId = d

/-- The executions in the log that are mapped to a query. -/
def executions (q : String) : List String :=
  ((run.engine.events.map UbiEvent.queryId).filter fun u =>
    run.queryIdMap.1.get? u = some q).dedup

/-- The events of one execution on a document. -/
def eventsOfExecution (u d : String) : List UbiEvent :=
  run.engine.events.filter fun event => event.pair = (u, d)

/-- The events whose aggregation is filed under each pair. -/
def scopedEvents : Dict (String × String) (List UbiEvent) :=
  (Dict.group UbiEvent.pair (scannedEvents run.engine run.settings)).rekey run.scopedKey

/-- The rated vectors combine all executions: a pair with events is rated, its
vector is aggregated from all events on the pair, and its counts are the sums
over the executions mapped to the query. -/
structure CombinesExecutions : Prop where
  sources : ∀ q d, ((run.scopedEvents.get? (q, d)).getD []).Perm (run.eventsOn q d)
  rated : ∀ q d, run.eventsOn q d ≠ [] →
    run.generateJudgmentsFromUbi.rated.get? (q, d) =
      some (aggregatePair run.prior (run.eventsOn q d))
  unrated : ∀ q d, run.eventsOn q d = [] →
    run.generateJudgmentsFromUbi.rated.get? (q, d) = none
  clicks : ∀ q d vec, run.generateJudgmentsFromUbi.rated.get? (q, d) = some vec →
    vec.clickCount = ((run.executions q).map fun u =>
      (aggregatePair run.prior (run.eventsOfExecution u d)).clickCount).sum
  impressions : ∀ q d vec, run.generateJudgmentsFromUbi.rated.get? (q, d) = some vec →
    vec.impressionCount = ((run.executions q).map fun u =>
      (aggregatePair run.prior (run.eventsOfExecution u d)).impressionCount).sum

/-- No two executions that are mapped to the same query have events on the same document. -/
def OneExecutionPerPair : Prop :=
  ∀ event ∈ run.engine.events, ∀ event' ∈ run.engine.events, ∀ q,
    run.queryIdMap.1.get? event.queryId = some q →
    run.queryIdMap.1.get? event'.queryId = some q →
    event.docId = event'.docId → event.queryId = event'.queryId

/-- The ceilings of the scans cut off no event of a mapped execution. -/
def ScansMappedEvents : Prop :=
  ∀ event ∈ run.engine.events, ∀ q, run.queryIdMap.1.get? event.queryId = some q →
    (scannedEvents run.engine run.settings).count event = run.engine.events.count event

variable {run}

/-! ## What the run rates -/

/-- Without queries nothing is aggregated, and without events no vector exists,
so the early exits of the reader return what the aggregation would. -/
theorem readFeatures_eq (engine : Engine) (settings : ReaderSettings)
    (prior : PositionBiasPrior) :
    readFeatures engine settings prior =
      (Dict.group UbiEvent.pair (scannedEvents engine settings)).mapValues
        (aggregatePair prior) := by
  unfold readFeatures
  dsimp only
  split
  · rename_i hnone
    have hscanned : scannedEvents engine settings = [] := by
      simp [scannedEvents, hnone, sortedQueryIds, chunkQueryIds, scanBatches, List.reduceOption]
    rw [hscanned]
    rfl
  · split
    · rename_i hnone
      rw [Dict.eq_empty hnone]
      rfl
    · rfl

theorem scopedKey_eq_some_iff {pair : String × String} {q d : String} :
    run.scopedKey pair = some (q, d) ↔ run.queryIdMap.1.get? pair.1 = some q ∧ pair.2 = d := by
  simp [scopedKey]

theorem mem_eventsOn_iff {event : UbiEvent} {q d : String} :
    event ∈ run.eventsOn q d ↔ event ∈ run.engine.events ∧
      run.queryIdMap.1.get? event.queryId = some q ∧ event.docId = d := by
  simp [eventsOn]

theorem count_eventsOn {event : UbiEvent} {q d : String} (h : event ∈ run.eventsOn q d) :
    (run.eventsOn q d).count event = run.engine.events.count event :=
  List.count_filter (List.mem_filter.mp h).2

theorem count_pair (events : List UbiEvent) {event : UbiEvent} {pair : String × String}
    (h : event.pair = pair) :
    (events.filter fun e => e.pair = pair).count event = events.count event :=
  List.count_filter (by simpa using h)

/-- What is filed under a pair comes from one execution. -/
theorem scopedEvents_eq_some {q d : String} {events : List UbiEvent}
    (h : run.scopedEvents.get? (q, d) = some events) :
    ∃ u, run.queryIdMap.1.get? u = some q ∧ events ≠ [] ∧
      events = (scannedEvents run.engine run.settings).filter fun event => event.pair = (u, d) := by
  obtain ⟨⟨u, d'⟩, hgroup, hkey⟩ := Dict.exists_of_get?_rekey h
  obtain ⟨hmap, rfl⟩ := scopedKey_eq_some_iff.mp hkey
  rw [Dict.get?_group] at hgroup
  split at hgroup
  · cases hgroup
  · rename_i hne
    obtain rfl := Option.some.inj hgroup
    exact ⟨u, hmap, hne, rfl⟩

/-- Nothing is filed when the strategy raises. -/
theorem scopedEvents_eq_empty {e : AttributeError} (h : run.mappingResult = .error e) :
    run.scopedEvents = Dict.empty := by
  apply Dict.eq_empty
  rw [List.eq_nil_iff_forall_not_mem]
  rintro ⟨⟨q, d⟩, events⟩ hmem
  obtain ⟨u, hu, -, -⟩ :=
    scopedEvents_eq_some ((run.scopedEvents.get?_eq_some_iff (q, d) events).mpr hmem)
  simp [queryIdMap, h, Except.toOption] at hu

/-- The rated vectors are the aggregations of the scoped events. -/
theorem rated_eq :
    run.generateJudgmentsFromUbi.rated =
      run.scopedEvents.mapValues (aggregatePair run.prior) := by
  have hscoped : (readFeatures run.engine run.settings run.prior).rekey run.scopedKey =
      run.scopedEvents.mapValues (aggregatePair run.prior) := by
    rw [readFeatures_eq, Dict.rekey_mapValues, scopedEvents]
  unfold generateJudgmentsFromUbi
  dsimp only
  split
  · rename_i hnone
    rw [← hscoped, Dict.eq_empty hnone]
    rfl
  · split
    · rename_i hraised
      rw [scopedEvents_eq_empty hraised]
      rfl
    · split
      · rename_i hnone
        rw [← hscoped, Dict.eq_empty hnone]
        rfl
      · exact hscoped

/-- The pair of a scanned event of a mapped execution is present. -/
theorem scopedEvents_isSome {event : UbiEvent} {q : String}
    (h : event ∈ scannedEvents run.engine run.settings)
    (hmap : run.queryIdMap.1.get? event.queryId = some q) :
    (run.scopedEvents.get? (q, event.docId)).isSome := by
  have hmem : event ∈ (scannedEvents run.engine run.settings).filter
      fun e => e.pair = event.pair := List.mem_filter.mpr ⟨h, by simp⟩
  have hgroup : (Dict.group UbiEvent.pair (scannedEvents run.engine run.settings)).get? event.pair =
      some ((scannedEvents run.engine run.settings).filter fun e => e.pair = event.pair) := by
    rw [Dict.get?_group, if_neg (List.ne_nil_of_mem hmem)]
  exact Dict.rekey_isSome hgroup (scopedKey_eq_some_iff.mpr ⟨hmap, rfl⟩)

/-! ## When the executions are combined -/

/-- What is filed under a pair with events is not empty. -/
theorem exists_scopedEvents {q d : String} {event : UbiEvent}
    (h : ((run.scopedEvents.get? (q, d)).getD []).Perm (run.eventsOn q d))
    (hevent : event ∈ run.eventsOn q d) :
    ∃ events, run.scopedEvents.get? (q, d) = some events ∧ events.Perm (run.eventsOn q d) := by
  cases hscoped : run.scopedEvents.get? (q, d) with
  | none =>
    rw [hscoped] at h
    exact absurd hevent (h.nil_eq ▸ List.not_mem_nil)
  | some events => exact ⟨events, rfl, by simpa [hscoped] using h⟩

theorem CombinesExecutions.oneExecutionPerPair (h : run.CombinesExecutions) :
    run.OneExecutionPerPair := by
  intro event hevent event' hevent' q hq hq' hdoc
  have hon := mem_eventsOn_iff.mpr ⟨hevent, hq, hdoc⟩
  have hon' := mem_eventsOn_iff.mpr ⟨hevent', hq', rfl⟩
  obtain ⟨events, hscoped, hperm⟩ := exists_scopedEvents (h.sources q event'.docId) hon
  obtain ⟨u, -, -, rfl⟩ := scopedEvents_eq_some hscoped
  have hpair : event.pair = (u, event'.docId) := by
    simpa using (List.mem_filter.mp (hperm.mem_iff.mpr hon)).2
  have hpair' : event'.pair = (u, event'.docId) := by
    simpa using (List.mem_filter.mp (hperm.mem_iff.mpr hon')).2
  exact (congrArg Prod.fst hpair).trans (congrArg Prod.fst hpair').symm

theorem CombinesExecutions.scansMappedEvents (h : run.CombinesExecutions) :
    run.ScansMappedEvents := by
  intro event hevent q hq
  have hon := mem_eventsOn_iff.mpr ⟨hevent, hq, rfl⟩
  obtain ⟨events, hscoped, hperm⟩ := exists_scopedEvents (h.sources q event.docId) hon
  obtain ⟨u, -, -, rfl⟩ := scopedEvents_eq_some hscoped
  have hpair : event.pair = (u, event.docId) := by
    simpa using (List.mem_filter.mp (hperm.mem_iff.mpr hon)).2
  have hcount := List.perm_iff_count.mp hperm event
  rwa [count_pair _ hpair, count_eventsOn hon] at hcount

/-- The events filed under a pair are all events on it. -/
theorem sources_of (hone : run.OneExecutionPerPair) (hscans : run.ScansMappedEvents)
    (q d : String) : ((run.scopedEvents.get? (q, d)).getD []).Perm (run.eventsOn q d) := by
  have hscanned : ∀ event ∈ run.eventsOn q d, event ∈ scannedEvents run.engine run.settings := by
    intro event hon
    obtain ⟨hevent, hq, -⟩ := mem_eventsOn_iff.mp hon
    rw [← List.count_pos_iff, hscans event hevent q hq]
    exact List.count_pos_iff.mpr hevent
  cases hscoped : run.scopedEvents.get? (q, d) with
  | none =>
    have hnil : run.eventsOn q d = [] := by
      refine List.eq_nil_iff_forall_not_mem.mpr fun event hon => ?_
      obtain ⟨-, hq, rfl⟩ := mem_eventsOn_iff.mp hon
      have hsome := scopedEvents_isSome (hscanned event hon) hq
      simp [hscoped] at hsome
    rw [hnil]
    exact .refl _
  | some events =>
    obtain ⟨u, hu, hne, rfl⟩ := scopedEvents_eq_some hscoped
    obtain ⟨first, hfirst⟩ := List.exists_mem_of_ne_nil _ hne
    obtain ⟨hfirst, hfirstPair⟩ := List.mem_filter.mp hfirst
    have hfirstPair : first.pair = (u, d) := by simpa using hfirstPair
    have hfirstLog := mem_of_mem_scannedEvents hfirst
    -- an event on the pair is of the execution that was filed
    have hpair : ∀ event ∈ run.eventsOn q d, event.pair = (u, d) := by
      intro event hon
      obtain ⟨hevent, hq, hdoc⟩ := mem_eventsOn_iff.mp hon
      have hsame := hone event hevent first hfirstLog q hq
        ((congrArg run.queryIdMap.1.get? (congrArg Prod.fst hfirstPair)).trans hu)
        (hdoc.trans (congrArg Prod.snd hfirstPair).symm)
      exact Prod.ext (hsame.trans (congrArg Prod.fst hfirstPair)) hdoc
    refine List.perm_iff_count.mpr fun event => ?_
    by_cases hon : event ∈ run.eventsOn q d
    · obtain ⟨hevent, hq, -⟩ := mem_eventsOn_iff.mp hon
      rw [Option.getD_some, count_pair _ (hpair event hon), hscans event hevent q hq,
        count_eventsOn hon]
    · have hnot : event ∉ (scannedEvents run.engine run.settings).filter
          fun event => event.pair = (u, d) := by
        intro hmem
        obtain ⟨hmem, hkey⟩ := List.mem_filter.mp hmem
        have hkey : event.pair = (u, d) := by simpa using hkey
        exact hon (mem_eventsOn_iff.mpr ⟨mem_of_mem_scannedEvents hmem,
          (congrArg run.queryIdMap.1.get? (congrArg Prod.fst hkey)).trans hu,
          congrArg Prod.snd hkey⟩)
      rw [Option.getD_some, List.count_eq_zero_of_not_mem hnot, List.count_eq_zero_of_not_mem hon]

/-- The counts of the events on a pair are the sums over the executions. -/
theorem countType_eventsOn (type : EventType) (q d : String) :
    countType type (run.eventsOn q d) =
      ((run.executions q).map fun u => countType type (run.eventsOfExecution u d)).sum := by
  have hkeys : ∀ event ∈ run.eventsOn q d, event.queryId ∈ run.executions q := by
    intro event hon
    obtain ⟨hevent, hq, -⟩ := mem_eventsOn_iff.mp hon
    exact List.mem_dedup.mpr
      (List.mem_filter.mpr ⟨List.mem_map_of_mem hevent, by simpa using hq⟩)
  rw [countType_eq_sum type UbiEvent.queryId (List.nodup_dedup _) hkeys]
  refine congrArg List.sum (List.map_congr_left fun u hu => congrArg _ ?_)
  have hq : run.queryIdMap.1.get? u = some q := by
    simpa using (List.mem_filter.mp (List.mem_dedup.mp hu)).2
  rw [eventsOn, eventsOfExecution, List.filter_filter]
  refine List.filter_congr fun event _ => ?_
  by_cases hu : event.queryId = u
  · simp [UbiEvent.pair, hu, hq]
  · simp [UbiEvent.pair, hu]

theorem rated_of_sources {q d : String}
    (h : ((run.scopedEvents.get? (q, d)).getD []).Perm (run.eventsOn q d)) :
    run.generateJudgmentsFromUbi.rated.get? (q, d) =
      if run.eventsOn q d = [] then none
      else some (aggregatePair run.prior (run.eventsOn q d)) := by
  rw [rated_eq, Dict.get?_mapValues]
  cases hscoped : run.scopedEvents.get? (q, d) with
  | none =>
    have hnil : run.eventsOn q d = [] := by
      rw [hscoped] at h
      exact h.nil_eq.symm
    simp [hnil]
  | some events =>
    have hperm : events.Perm (run.eventsOn q d) := by simpa [hscoped] using h
    obtain ⟨-, -, hne, -⟩ := scopedEvents_eq_some hscoped
    have hon : run.eventsOn q d ≠ [] := fun hnil => hne (hnil ▸ hperm).eq_nil
    rw [if_neg hon, Option.map_some, aggregatePair_perm run.prior hperm]

/-- The rated vectors combine all executions exactly when no two executions of
one query share a document and the scans reach every mapped event. -/
theorem combines_executions_iff :
    run.CombinesExecutions ↔ run.OneExecutionPerPair ∧ run.ScansMappedEvents := by
  refine ⟨fun h => ⟨h.oneExecutionPerPair, h.scansMappedEvents⟩, fun ⟨hone, hscans⟩ => ?_⟩
  have hrated := fun q d => rated_of_sources (sources_of hone hscans q d)
  have hvec : ∀ q d vec, run.generateJudgmentsFromUbi.rated.get? (q, d) = some vec →
      vec = aggregatePair run.prior (run.eventsOn q d) := by
    intro q d vec hvec
    rw [hrated] at hvec
    split at hvec
    · cases hvec
    · exact (Option.some.inj hvec).symm
  constructor
  case sources => exact sources_of hone hscans
  case rated => exact fun q d hne => (hrated q d).trans (if_neg hne)
  case unrated => exact fun q d hnil => (hrated q d).trans (if_pos hnil)
  case clicks =>
    intro q d vec h
    simp only [hvec q d vec h, aggregatePair_clickCount, countType_eventsOn]
  case impressions =>
    intro q d vec h
    simp only [hvec q d vec h, aggregatePair_impressionCount, countType_eventsOn]

theorem mem_of_queryIdMap {u q : String} (h : run.queryIdMap.1.get? u = some q) :
    u ∈ (readUserQueryMap run.engine run.settings).entries.map Prod.fst := by
  unfold queryIdMap at h
  cases hmapping : run.mappingResult with
  | error e => simp [hmapping, Except.toOption] at h
  | ok mapping =>
    rw [hmapping] at h
    exact mem_of_applyMappingStrategy hmapping h

/-- Scans below their ceilings reach every event of a mapped execution. -/
theorem scansMappedEvents_of_ceilings
    (hqueries : (run.engine.queryPages 0).flatten.length ≤ run.settings.maxQueries)
    (hevents : (batchHits run.engine (chunkQueryIds run.settings []
      (sortedQueryIds (scanUbiQueries run.engine run.settings 0)))).length ≤
        run.settings.maxEvents) :
    run.ScansMappedEvents := by
  intro event hevent q hq
  have hlogged : ∃ query ∈ run.engine.queries, query.queryId = event.queryId :=
    mem_readUserQueryMap (mem_of_queryIdMap hq)
  rw [(scannedEvents_perm hqueries hevents).count_eq, List.count_filter (by simpa using hlogged)]

/-! ## Two executions of one query -/

/-- Two users typed the same text. -/
def repeatedQueries : List UbiQuery :=
  [{ queryId := "u1", userQuery := "red shoes" }, { queryId := "u2", userQuery := "red shoes" }]

/-- The first user clicked on a document, the second one only saw it. -/
def clickThenImpression : List UbiEvent :=
  [{ queryId := "u1", docId := "d", eventType := .click },
    { queryId := "u2", docId := "d", eventType := .impression, position := some 1 }]

/-- A run over these logs. -/
def repeatedQueryRun : Generation where
  engine := .ofLogs repeatedQueries clickThenImpression
  settings :=
    { maxEvents := 1000000, maxQueries := 200000, queryIdBatchSize := 1024,
      queryIdBatchMaxBytes := 32768, fragmentSize := fun ids => (ids.map String.length).sum }
  prior := Dict.empty
  querySetRows := [{ id := "q1", queryText := "red shoes" }]
  strategy := .reject

/-- The vector of the second execution replaces the click of the first. -/
theorem repeated_query_drops_click : ¬ repeatedQueryRun.CombinesExecutions := by
  intro h
  have hmap : ∀ u ∈ ["u1", "u2"], repeatedQueryRun.queryIdMap.1.get? u = some "q1" := by
    decide +kernel
  have hsame := h.oneExecutionPerPair
    { queryId := "u1", docId := "d", eventType := .click } (by decide)
    { queryId := "u2", docId := "d", eventType := .impression, position := some 1 } (by decide)
    "q1" (hmap "u1" (by decide)) (hmap "u2" (by decide)) rfl
  exact absurd hsame (by decide)

end Generation

end RelyLoop.Ubi
