import RelyLoop.Eval.Trec
import RelyLoop.Ranking.Prefix
import RelyLoop.Trials.Recording
import Mathlib.Data.String.Basic

/-!
# The retrieval depth of a trial

A trial asks the engine for as many documents as the objective's cutoff says, and hands them to
the evaluator as a map of scores. All metrics of the trial are computed from these maps.
-/

namespace RelyLoop.Trials

open Eval Ranking Studies

/-- A document in an engine's ranking, with the `_score` that the engine reports. -/
structure RankedDoc where
  docId : String
  score : Option ℚ
  deriving DecidableEq, Repr

/-- The document with the score that the adapter reads. -/
def RankedDoc.scored (doc : RankedDoc) : String × ℚ := (doc.docId, doc.score.getD 0)

/-- A query of the study: the ranking that the engine holds for it, and the `size` that the
rendered template sets, if any. -/
structure HeldQuery where
  queryId : String
  ranking : List RankedDoc
  bodySize : Option ℕ := none

/-- `top_k`. -/
def topK (objective : Objective) : ℕ :=
  match objective.k with
  | some k => (cutoffValue k).toNat
  | none => 100

/-- The number of documents that are asked for. -/
def HeldQuery.size (query : HeldQuery) (objective : Objective) : ℕ :=
  query.bodySize.getD (topK objective)

/-- The documents that the engine returns. -/
def HeldQuery.returned (query : HeldQuery) (objective : Objective) : List RankedDoc :=
  query.ranking.take (query.size objective)

/-- The `_msearch` of the queries. -/
def msearch (queries : List HeldQuery) (objective : Objective) : EngineCall :=
  .elastic (queries.map HeldQuery.queryId)
    (.response 200 "" "" (.ok (queries.map fun query =>
      .hits ((query.returned objective).map fun doc => ⟨some doc.docId, doc.score⟩))))

/-- The trial on these queries, with another cutoff and other judgments. -/
def TrialInputs.onHeld (inputs : TrialInputs) (queries : List HeldQuery) (k : Option Cutoff)
    (qrels : Qrels) : TrialInputs :=
  let objective := { inputs.objective with k := k }
  { inputs with objective := objective, qrels := qrels, call := msearch queries objective }

/-- A value that a trial stores in `trials.metrics`. -/
def Stores (ev : Evaluator) (inputs : TrialInputs) (token : String) (v : ℚ) : Prop :=
  ∃ primary scored, outcome ev inputs = .ok (primary, scored) ∧
    (token, v) ∈ (completeRow inputs primary scored).metrics

/-! ## What should be stored -/

/-- The judgments of a query. -/
def HeldQuery.judgments (query : HeldQuery) (qrels : Qrels) : Judged String :=
  Eval.judgments ((qrels.get? query.queryId).getD Python.Dict.empty)

/-- The queries that are judged. -/
def judgedQueries (queries : List HeldQuery) (qrels : Qrels) : List HeldQuery :=
  queries.filter fun query => qrels.judged query.queryId

/-- The mean of a measure over the rankings in the engine's own order. -/
def rankingMean (rules : TrecRules) (queries : List HeldQuery) (qrels : Qrels)
    (measure : Measure) : ℚ :=
  meanOver (fun query => rules.value measure (query.judgments qrels)
    (query.ranking.map RankedDoc.docId)) (judgedQueries queries qrels)

/-- What a trial stores under a token with a cut is the measure with this cut of the rankings. -/
structure RecordsCuts (ev : Evaluator) (rules : TrecRules) (queries : List HeldQuery)
    (inputs : TrialInputs) : Prop where
  metrics : ∀ token v measure, Stores ev inputs token v →
    translateMetricName token = .ok measure → measureCut measure ≠ none →
    v = rankingMean rules queries inputs.qrels measure
  primary : ∀ primary scored key measure, outcome ev inputs = .ok (primary, scored) →
    objectiveMetricKey inputs.objective = .ok key → translateMetricName key = .ok measure →
    measureCut measure ≠ none →
    (completeRow inputs primary scored).primaryMetric =
      some (rankingMean rules queries inputs.qrels measure)

/-- What two trials store under a token without a cut is the same. -/
def RecordsUncut (ev : Evaluator) (inputs inputs' : TrialInputs) : Prop :=
  ∀ token v v' measure, Stores ev inputs token v → Stores ev inputs' token v' →
    translateMetricName token = .ok measure → measureCut measure = none → v = v'

/-! ## When it is -/

/-- The objective has a token, and the metric set is one that `score` accepts. -/
structure Scorable (ev : Evaluator) (objective : Objective) (config : StudyConfig)
    (key : String) : Prop where
  hasKey : objectiveMetricKey objective = .ok key
  tokens : ∀ token ∈ metricsSet key config, ∃ measure, translateMetricName token = .ok measure
  kept : LastSpelling (ev.setOrder (metricsSet key config)) key

/-- A measure with a cut survives when the documents of the cut are returned and stay, by score
and document id, before the others that are; where places count, they stay in their order. -/
def Survives (rules : TrecRules) (objective : Objective) (query : HeldQuery) : Measure → Prop
  | .rr | .ap => True
  | .pAt k | .rAt k => Reaches (query.size objective) k.toNat query.ranking ∧
      SplitsAt rules.Before k.toNat ((query.returned objective).map RankedDoc.scored)
  | .ndcgAt k | .apAt k => Reaches (query.size objective) k.toNat query.ranking ∧
      SplitsAt rules.Before k.toNat ((query.returned objective).map RankedDoc.scored) ∧
      (((query.returned objective).map RankedDoc.scored).take k.toNat).Pairwise rules.Before

/-- Every measure of the metric set survives in every query. -/
def KeepsCuts (ev : Evaluator) (rules : TrecRules) (queries : List HeldQuery)
    (objective : Objective) (config : StudyConfig) : Prop :=
  ∀ key, Scorable ev objective config key → ∀ token ∈ metricsSet key config, ∀ measure,
    translateMetricName token = .ok measure →
      ∀ query ∈ queries, Survives rules objective query measure

/-- With a measure without a cut, both objectives have as many documents returned. -/
def KeepsDepth (ev : Evaluator) (queries : List HeldQuery) (objective objective' : Objective)
    (config : StudyConfig) : Prop :=
  ∀ key key', Scorable ev objective config key → Scorable ev objective' config key' →
    ∀ token ∈ metricsSet key config, token ∈ metricsSet key' config → ∀ measure,
      translateMetricName token = .ok measure → measureCut measure = none →
        ∀ query ∈ queries, (query.returned objective).length = (query.returned objective').length

/-! ## The run of a trial -/

section Runs

variable {ev : Evaluator} {rules : TrecRules} {queries : List HeldQuery} {query : HeldQuery}
  {objective : Objective} {qrels : Qrels} {measure : Measure}

/-- The hits that the adapter makes of the returned documents. -/
def HeldQuery.hits (query : HeldQuery) (objective : Objective) : List ScoredHit :=
  (query.returned objective).map fun doc => ⟨doc.docId, doc.score.getD 0⟩

theorem readResponses_msearch (queries : List HeldQuery)
    (out : Python.Dict String (List ScoredHit)) :
    readResponses false (queries.map HeldQuery.queryId) (queries.map fun query =>
        .hits ((query.returned objective).map fun doc => ⟨some doc.docId, doc.score⟩)) out =
      .ok ((queries.map fun query => (query.queryId, query.hits objective)).foldl
        (fun d e => d.set e.1 e.2) out) := by
  induction queries generalizing out with
  | nil => rfl
  | cons query queries ih =>
    have hread : readItem query.queryId false
        (.hits ((query.returned objective).map fun doc => ⟨some doc.docId, doc.score⟩)) =
        .ok (query.hits objective) := by
      rw [readItem, HeldQuery.hits]
      induction query.returned objective with
      | nil => rfl
      | cons doc docs ih' =>
        rw [List.map_cons, List.mapM_cons, ih']
        rfl
    rw [List.map_cons, List.map_cons, readResponses, hread]
    exact ih _

theorem searchBatch_msearch (queries : List HeldQuery) (objective : Objective) :
    (msearch queries objective).searchBatch false =
      .ok (.ofList (queries.map fun query => (query.queryId, query.hits objective))) := by
  by_cases hne : queries.map HeldQuery.queryId = []
  · rw [List.map_eq_nil_iff.mp hne]
    rfl
  · rw [msearch, EngineCall.searchBatch, elasticSearchBatch_eq_ok_iff hne]
    exact ⟨_, rfl, readResponses_msearch queries Python.Dict.empty⟩

/-- The run of the trial. -/
def heldRun (queries : List HeldQuery) (objective : Objective) : Run :=
  runDict (.ofList (queries.map fun query => (query.queryId, query.hits objective)))

theorem get?_heldRun (hids : (queries.map HeldQuery.queryId).Nodup) (hquery : query ∈ queries) :
    (heldRun queries objective).get? query.queryId =
      some (.ofList ((query.returned objective).map RankedDoc.scored)) := by
  have hentry : (Python.Dict.ofList (queries.map fun query =>
      (query.queryId, query.hits objective))).get? query.queryId =
      some (query.hits objective) := by
    refine Python.Dict.get?_ofList_eq_some (List.mem_map_of_mem hquery) fun hits hmem => ?_
    obtain ⟨other, hother, heq⟩ := List.mem_map.mp hmem
    obtain ⟨hid, rfl⟩ := Prod.mk.inj heq
    rw [List.inj_on_of_nodup_map hids hother hquery hid]
  rw [heldRun, runDict, Python.Dict.get?_mapValues, hentry, Option.map_some, HeldQuery.hits,
    List.map_map]
  rfl

theorem validQid_heldRun_iff (queryId : String) :
    validQid qrels (heldRun queries objective) queryId ↔
      queryId ∈ (judgedQueries queries qrels).map HeldQuery.queryId := by
  rw [validQid, Bool.and_eq_true, heldRun, runDict, Python.Dict.get?_mapValues, Option.isSome_map,
    Python.Dict.get?_ofList_isSome]
  constructor
  · rintro ⟨hjudged, entry, hentry, rfl⟩
    obtain ⟨query, hquery, rfl⟩ := List.mem_map.mp hentry
    exact List.mem_map_of_mem (List.mem_filter.mpr ⟨hquery, hjudged⟩)
  · intro hmem
    obtain ⟨query, hquery, rfl⟩ := List.mem_map.mp hmem
    obtain ⟨hin, hjudged⟩ := List.mem_filter.mp hquery
    exact ⟨hjudged, _, List.mem_map_of_mem hin, rfl⟩

/-- The value of a measure for a query, as the trial computes it. -/
def trialValue (rules : TrecRules) (objective : Objective) (qrels : Qrels) (measure : Measure)
    (query : HeldQuery) : ℚ :=
  rules.value measure (query.judgments qrels)
    (rules.ranked ((query.returned objective).map RankedDoc.scored))

theorem queryValue_heldRun (hids : (queries.map HeldQuery.queryId).Nodup)
    (hdocs : (query.ranking.map RankedDoc.docId).Nodup) (hquery : query ∈ queries) :
    queryValue rules qrels (heldRun queries objective) measure query.queryId =
      trialValue rules objective qrels measure query := by
  have hkeys : (((query.returned objective).map RankedDoc.scored).map Prod.fst).Nodup := by
    rw [List.map_map]
    exact ((List.take_sublist _ _).map _).nodup hdocs
  rw [queryValue, get?_heldRun hids hquery, Option.getD_some, Python.Dict.entries_ofList hkeys]
  rfl

variable {inputs : TrialInputs} {k : Option Cutoff} {token : String} {v : ℚ}

theorem mem_setOrder (hev : ev.Documented) {tokens : List String} :
    token ∈ ev.setOrder tokens ↔ token ∈ tokens := by
  rw [(hev.setOrder tokens).mem_iff, List.mem_dedup]

theorem outcome_onHeld (hkey : objectiveMetricKey { inputs.objective with k := k } = .ok token) :
    outcome ev (inputs.onHeld queries k qrels) =
      searchAndScore ev (inputs.onHeld queries k qrels) token := by
  rw [outcome]
  have hkey' : objectiveMetricKey (inputs.onHeld queries k qrels).objective = .ok token := hkey
  rw [hkey']

/-- What a scored trial consists of. -/
theorem outcome_onHeld_ok {primary : ℚ} {scored : ScoreResult}
    (h : outcome ev (inputs.onHeld queries k qrels) = .ok (primary, scored)) :
    ∃ key, objectiveMetricKey { inputs.objective with k := k } = .ok key ∧
      score ev qrels (heldRun queries { inputs.objective with k := k })
        (ev.setOrder (metricsSet key inputs.config)) = .ok scored ∧
      scored.aggregate.get? key = some primary := by
  cases hkey : objectiveMetricKey { inputs.objective with k := k } with
  | error e =>
    have hkey' : objectiveMetricKey (inputs.onHeld queries k qrels).objective = .error e := hkey
    rw [outcome, hkey'] at h
    cases h
  | ok key =>
    rw [outcome_onHeld hkey, searchAndScore] at h
    have hsearch : (inputs.onHeld queries k qrels).call.searchBatch false = .ok _ :=
      searchBatch_msearch queries { inputs.objective with k := k }
    rw [hsearch] at h
    dsimp only at h
    split at h
    · cases h
    · rename_i result hresult
      split at h
      · cases h
      · rename_i first hfirst
        obtain ⟨rfl, rfl⟩ := Prod.mk.inj (Except.ok.inj h)
        exact ⟨key, rfl, hresult, hfirst⟩

/-- A stored value is the mean of its measure over the queries, as the trial computes it. -/
theorem stores_mean (hev : ev.Documented) (himpl : ev.Implements rules)
    (hids : (queries.map HeldQuery.queryId).Nodup)
    (hdocs : ∀ query ∈ queries, (query.ranking.map RankedDoc.docId).Nodup)
    (h : Stores ev (inputs.onHeld queries k qrels) token v) :
    ∃ measure, translateMetricName token = .ok measure ∧
      v = meanOver (trialValue rules { inputs.objective with k := k } qrels measure)
        (judgedQueries queries qrels) := by
  obtain ⟨primary, scored, houtcome, hmem⟩ := h
  obtain ⟨key, -, hscore, -⟩ := outcome_onHeld_ok houtcome
  have hv : scored.aggregate.get? token = some v :=
    (scored.aggregate.get?_eq_some_iff token v).mpr hmem
  have hnodup : ((judgedQueries queries qrels).map HeldQuery.queryId).Nodup :=
    (List.filter_sublist.map _).nodup hids
  obtain ⟨measure, hmeasure, hmean⟩ := score_mean hev himpl hscore hv hnodup
    fun queryId => validQid_heldRun_iff queryId |>.symm
  refine ⟨measure, hmeasure, hmean.trans ?_⟩
  rw [meanOver, meanOver, List.map_map, List.length_map]
  congr 2
  refine List.map_congr_left fun query hquery => ?_
  have hin := List.mem_of_mem_filter hquery
  exact queryValue_heldRun hids (hdocs query hin) hin

/-- A trial that is scored is scorable, and its tokens are those of the metric set. -/
theorem scorable_of_score (hev : ev.Documented) {config : StudyConfig} {key : String}
    {primary : ℚ} {scored : ScoreResult} (hkey : objectiveMetricKey objective = .ok key)
    (hscore : score ev qrels (heldRun queries objective)
      (ev.setOrder (metricsSet key config)) = .ok scored)
    (hprimary : scored.aggregate.get? key = some primary)
    (htoken : (scored.aggregate.get? token).isSome) :
    Scorable ev objective config key ∧ token ∈ metricsSet key config := by
  have hkeyMem : key ∈ ev.setOrder (metricsSet key config) :=
    (mem_setOrder hev).mpr List.mem_cons_self
  obtain ⟨htokens, -, hkept⟩ := (score_isSome_iff hev hkeyMem).mp
    ⟨scored, hscore, Option.isSome_iff_exists.mpr ⟨primary, hprimary⟩⟩
  constructor
  · exact ⟨hkey, fun other hother => htokens other ((mem_setOrder hev).mpr hother), hkept⟩
  · exact (mem_setOrder hev).mp (mem_of_score hscore htoken)

theorem scorable_of_stores (hev : ev.Documented)
    (h : Stores ev (inputs.onHeld queries k qrels) token v) :
    ∃ key, Scorable ev { inputs.objective with k := k } inputs.config key ∧
      token ∈ metricsSet key inputs.config := by
  obtain ⟨primary, scored, houtcome, hmem⟩ := h
  obtain ⟨key, hkey, hscore, hprimary⟩ := outcome_onHeld_ok houtcome
  have hmetric : (scored.aggregate.get? token).isSome :=
    Option.isSome_iff_exists.mpr ⟨_, (scored.aggregate.get?_eq_some_iff token v).mpr hmem⟩
  exact ⟨key, scorable_of_score hev hkey hscore hprimary hmetric⟩

/-- A scorable trial with a judged query stores the last spelling of every measure. -/
theorem exists_stores (hev : ev.Documented) {key : String}
    (hscorable : Scorable ev { inputs.objective with k := k } inputs.config key)
    (hquery : query ∈ queries) (hjudged : qrels.judged query.queryId)
    (htoken : token ∈ metricsSet key inputs.config)
    (hlast : LastSpelling (ev.setOrder (metricsSet key inputs.config)) token) :
    ∃ v, Stores ev (inputs.onHeld queries k qrels) token v := by
  have hvalid : validQid qrels (heldRun queries { inputs.objective with k := k }) query.queryId :=
    (validQid_heldRun_iff _).mpr (List.mem_map_of_mem (List.mem_filter.mpr ⟨hquery, hjudged⟩))
  have htokens : ∀ other ∈ ev.setOrder (metricsSet key inputs.config),
      ∃ measure, translateMetricName other = .ok measure := fun other hother =>
    hscorable.tokens other ((mem_setOrder hev).mp hother)
  have hkeyMem : key ∈ ev.setOrder (metricsSet key inputs.config) :=
    (mem_setOrder hev).mpr List.mem_cons_self
  obtain ⟨result, hresult, hprimary⟩ := (score_isSome_iff hev hkeyMem).mpr
    ⟨htokens, ⟨_, hvalid⟩, hscorable.kept⟩
  obtain ⟨result', hresult', hstored⟩ := (score_isSome_iff hev ((mem_setOrder hev).mpr htoken)).mpr
    ⟨htokens, ⟨_, hvalid⟩, hlast⟩
  obtain rfl := Except.ok.inj (hresult.symm.trans hresult')
  obtain ⟨primary, hprimary⟩ := Option.isSome_iff_exists.mp hprimary
  obtain ⟨v, hv⟩ := Option.isSome_iff_exists.mp hstored
  refine ⟨v, primary, result, ?_, (result.aggregate.get?_eq_some_iff token v).mp hv⟩
  rw [outcome_onHeld hscorable.hasKey, searchAndScore]
  have hsearch : (inputs.onHeld queries k qrels).call.searchBatch false = .ok _ :=
    searchBatch_msearch queries { inputs.objective with k := k }
  have hscore : score ev (inputs.onHeld queries k qrels).qrels
      (runDict (.ofList (queries.map fun query =>
        (query.queryId, query.hits { inputs.objective with k := k }))))
      (ev.setOrder (metricsSet key (inputs.onHeld queries k qrels).config)) = .ok result := hresult
  rw [hsearch]
  dsimp only
  rw [hscore]
  dsimp only
  rw [hprimary]

end Runs

/-! ## One judged document -/

section OneDocument

variable {rules : TrecRules} {queries : List HeldQuery} {query : HeldQuery}
  {objective objective' : Objective} {measure : Measure} {k : ℤ}

/-- The judgments of one document of one query. -/
def onlyJudged (query : HeldQuery) (d : String) : Qrels :=
  .ofList [(query.queryId, .ofList [(d, 1)])]

theorem judgments_onlyJudged (query : HeldQuery) (d : String) :
    query.judgments (onlyJudged query d) = only d := by
  have hget : (onlyJudged query d).get? query.queryId = some (.ofList [(d, 1)]) := by
    simp [onlyJudged, Python.Dict.get?_ofList]
  rw [HeldQuery.judgments, hget, Option.getD_some, judgments, only]
  congr 1
  funext e
  by_cases heq : e = d
  · simp [heq, Python.Dict.get?_ofList]
  · simp [heq, Ne.symm heq, Python.Dict.get?_ofList]

theorem judgedQueries_onlyJudged (hids : (queries.map HeldQuery.queryId).Nodup)
    (hquery : query ∈ queries) (d : String) :
    judgedQueries queries (onlyJudged query d) = [query] := by
  have hjudged : ∀ other : HeldQuery, (onlyJudged query d).judged other.queryId =
      decide (other.queryId = query.queryId) := by
    intro other
    rw [Qrels.judged, onlyJudged, Python.Dict.get?_ofList]
    by_cases heq : other.queryId = query.queryId
    · simp [heq, Python.Dict.ofList, Python.Dict.set, Python.Dict.empty]
    · simp [heq, Ne.symm heq]
  have hfilter : judgedQueries queries (onlyJudged query d) =
      queries.filter fun other => decide (other.queryId = query.queryId) := by
    rw [judgedQueries]
    exact List.filter_congr fun other _ => hjudged other
  rw [hfilter]
  obtain ⟨before, after, rfl⟩ := List.append_of_mem hquery
  rw [List.map_append, List.map_cons, List.nodup_append, List.nodup_cons] at hids
  obtain ⟨-, ⟨hafter, -⟩, hbefore⟩ := hids
  have hnone : ∀ others : List HeldQuery, query.queryId ∉ others.map HeldQuery.queryId →
      others.filter (fun other => decide (other.queryId = query.queryId)) = [] := by
    intro others hout
    refine List.filter_eq_nil_iff.mpr fun other hother heq => hout ?_
    rw [← of_decide_eq_true heq]
    exact List.mem_map_of_mem hother
  have hleft : query.queryId ∉ before.map HeldQuery.queryId := fun hmem =>
    hbefore _ hmem _ List.mem_cons_self rfl
  rw [List.filter_append, hnone before hleft, List.filter_cons, if_pos (by simp),
    hnone after hafter, List.nil_append]

theorem meanOver_singleton {α : Type} (f : α → ℚ) (a : α) : meanOver f [a] = f a := by
  simp [meanOver]

/-! ## What survives -/

/-- The documents that are measured, with their scores. -/
def measured (rules : TrecRules) (objective : Objective) (query : HeldQuery) :
    List (String × ℚ) :=
  ((query.ranking.map RankedDoc.scored).take (query.size objective)).insertionSort rules.Before

theorem ranked_returned (query : HeldQuery) :
    rules.ranked ((query.returned objective).map RankedDoc.scored) =
      (measured rules objective query).map Prod.fst := by
  rw [TrecRules.ranked, measured, HeldQuery.returned, List.map_take]

theorem map_docId_eq (ranking : List RankedDoc) :
    ranking.map RankedDoc.docId = (ranking.map RankedDoc.scored).map Prod.fst := by
  rw [List.map_map]
  rfl

theorem nodup_scored (hdocs : (query.ranking.map RankedDoc.docId).Nodup) :
    (query.ranking.map RankedDoc.scored).Nodup := by
  rw [map_docId_eq] at hdocs
  exact List.Nodup.of_map _ hdocs

theorem measured_subset : measured rules objective query ⊆ query.ranking.map RankedDoc.scored :=
  fun _ ha => List.mem_of_mem_take ((List.mem_insertionSort _).mp ha)

theorem nodup_measured (hdocs : (query.ranking.map RankedDoc.docId).Nodup) :
    ((measured rules objective query).map Prod.fst).Nodup := by
  rw [map_docId_eq] at hdocs
  have htaken : (((query.ranking.map RankedDoc.scored).take
      (query.size objective)).map Prod.fst).Nodup := ((List.take_sublist _ _).map _).nodup hdocs
  exact (((List.perm_insertionSort rules.Before _).map Prod.fst).nodup_iff).mpr htaken

/-- The members of a cut survive. -/
theorem mem_take_measured_iff (hdocs : (query.ranking.map RankedDoc.docId).Nodup) (k : ℕ) :
    (∀ d, d ∈ ((measured rules objective query).map Prod.fst).take k ↔
        d ∈ (query.ranking.map RankedDoc.docId).take k) ↔
      Reaches (query.size objective) k query.ranking ∧
        SplitsAt rules.Before k ((query.returned objective).map RankedDoc.scored) := by
  have hnodup := nodup_scored hdocs
  rw [map_docId_eq] at hdocs
  rw [map_docId_eq, ← List.map_take, ← List.map_take, mem_map_iff_of_nodup hdocs
    (fun _ ha => measured_subset (List.mem_of_mem_take ha)) (fun _ ha => List.mem_of_mem_take ha),
    measured, mem_take_cut_iff hnodup, HeldQuery.returned, List.map_take]
  simp [Reaches]

/-- The places of a cut survive. -/
theorem take_measured_eq_iff (hdocs : (query.ranking.map RankedDoc.docId).Nodup) (k : ℕ) :
    ((measured rules objective query).map Prod.fst).take k =
        (query.ranking.map RankedDoc.docId).take k ↔
      Reaches (query.size objective) k query.ranking ∧
        SplitsAt rules.Before k ((query.returned objective).map RankedDoc.scored) ∧
        (((query.returned objective).map RankedDoc.scored).take k).Pairwise rules.Before := by
  have hnodup := nodup_scored hdocs
  rw [map_docId_eq] at hdocs
  rw [map_docId_eq, ← List.map_take, ← List.map_take, map_eq_map_iff_of_nodup hdocs
    (fun _ ha => measured_subset (List.mem_of_mem_take ha)) (fun _ ha => List.mem_of_mem_take ha),
    measured, take_cut_eq_iff hnodup, HeldQuery.returned, List.map_take,
    and_comm (a := SplitsAt _ _ _)]
  simp [Reaches]

/-- What survives is told by one document at a time. -/
theorem survives_iff (hdocs : (query.ranking.map RankedDoc.docId).Nodup)
    (hcut : measureCut measure = some k) (hk : 0 < k.toNat) :
    (∀ d, rules.value measure (only d) ((measured rules objective query).map Prod.fst) =
        rules.value measure (only d) (query.ranking.map RankedDoc.docId)) ↔
      Survives rules objective query measure := by
  have hmeasured : ((measured rules objective query).map Prod.fst).Nodup := nodup_measured hdocs
  cases measure with
  | rr => cases hcut
  | ap => cases hcut
  | ndcgAt n =>
    obtain rfl := Option.some.inj hcut
    exact (normalizedGain_only_eq_iff rules.discount_pos rules.discount_strictAnti hk hmeasured
      hdocs).trans (take_measured_eq_iff hdocs _)
  | apAt n =>
    obtain rfl := Option.some.inj hcut
    exact (averagePrecision_only_eq_iff hmeasured.take hdocs.take).trans
      (take_measured_eq_iff hdocs _)
  | pAt n =>
    obtain rfl := Option.some.inj hcut
    exact (precisionAt_only_eq_iff hk hmeasured hdocs).trans (mem_take_measured_iff hdocs _)
  | rAt n =>
    obtain rfl := Option.some.inj hcut
    exact (recallAt_only_eq_iff hmeasured hdocs).trans (mem_take_measured_iff hdocs _)

theorem survives_of_uncut (hcut : measureCut measure = none) :
    Survives rules objective query measure := by
  cases measure with
  | rr => trivial
  | ap => trivial
  | ndcgAt n => cases hcut
  | apAt n => cases hcut
  | pAt n => cases hcut
  | rAt n => cases hcut

/-- What survives is measured as in the whole ranking. -/
theorem value_of_survives (hdocs : (query.ranking.map RankedDoc.docId).Nodup)
    (hcut : measureCut measure ≠ none) (h : Survives rules objective query measure)
    (j : Judged String) :
    rules.value measure j ((measured rules objective query).map Prod.fst) =
      rules.value measure j (query.ranking.map RankedDoc.docId) := by
  have hmeasured : ((measured rules objective query).map Prod.fst).Nodup := nodup_measured hdocs
  cases measure with
  | rr => exact absurd rfl hcut
  | ap => exact absurd rfl hcut
  | ndcgAt n =>
    simp only [TrecRules.value, normalizedGain, (take_measured_eq_iff hdocs _).mpr h]
  | apAt n => simp only [TrecRules.value, (take_measured_eq_iff hdocs _).mpr h]
  | pAt n => exact precisionAt_congr hmeasured hdocs ((mem_take_measured_iff hdocs _).mpr h) j
  | rAt n => exact recallAt_congr hmeasured hdocs ((mem_take_measured_iff hdocs _).mpr h) j

/-- Without a cut the values agree when the depths return as many documents. -/
theorem uncut_iff (hdocs : (query.ranking.map RankedDoc.docId).Nodup)
    (hcut : measureCut measure = none) :
    (∀ d, rules.value measure (only d) ((measured rules objective query).map Prod.fst) =
        rules.value measure (only d) ((measured rules objective' query).map Prod.fst)) ↔
      measured rules objective query = measured rules objective' query := by
  have hmap : (measured rules objective query).map Prod.fst =
      (measured rules objective' query).map Prod.fst ↔
        measured rules objective query = measured rules objective' query := by
    have hnodup := hdocs
    rw [map_docId_eq] at hnodup
    exact map_eq_map_iff_of_nodup hnodup measured_subset measured_subset
  have hmeasured : ((measured rules objective query).map Prod.fst).Nodup := nodup_measured hdocs
  have hmeasured' : ((measured rules objective' query).map Prod.fst).Nodup := nodup_measured hdocs
  rw [← hmap]
  cases measure with
  | rr => exact reciprocalRank_only_eq_iff hmeasured hmeasured'
  | ap => exact averagePrecision_only_eq_iff hmeasured hmeasured'
  | ndcgAt n => cases hcut
  | apAt n => cases hcut
  | pAt n => cases hcut
  | rAt n => cases hcut

theorem measured_eq_iff : measured rules objective query = measured rules objective' query ↔
    (query.returned objective).length = (query.returned objective').length := by
  rw [measured, measured, insertionSort_cut_eq_iff, HeldQuery.returned, HeldQuery.returned]
  simp

end OneDocument

/-! ## The metrics of a trial -/

section Metrics

variable {ev : Evaluator} {rules : TrecRules} {queries : List HeldQuery} {inputs : TrialInputs}
  {k k' : Option Cutoff}

/-- The judgment of one document makes its query one of the judged ones. -/
theorem judged_onlyJudged {query : HeldQuery} (hids : (queries.map HeldQuery.queryId).Nodup)
    (hquery : query ∈ queries) (d : String) : (onlyJudged query d).judged query.queryId := by
  have hmem : query ∈ judgedQueries queries (onlyJudged query d) := by
    rw [judgedQueries_onlyJudged hids hquery]
    exact List.mem_singleton_self query
  exact (List.mem_filter.mp hmem).2

/-- The value that is stored when one document is judged. -/
theorem stores_onlyJudged (hev : ev.Documented) (himpl : ev.Implements rules)
    (hids : (queries.map HeldQuery.queryId).Nodup)
    (hdocs : ∀ query ∈ queries, (query.ranking.map RankedDoc.docId).Nodup) {query : HeldQuery}
    (hquery : query ∈ queries) {d token : String} {v : ℚ} {measure : Measure}
    (hmeasure : translateMetricName token = .ok measure)
    (h : Stores ev (inputs.onHeld queries k (onlyJudged query d)) token v) :
    v = rules.value measure (only d)
      ((measured rules { inputs.objective with k := k } query).map Prod.fst) := by
  obtain ⟨measure', hmeasure', rfl⟩ := stores_mean hev himpl hids hdocs h
  obtain rfl := Except.ok.inj (hmeasure'.symm.trans hmeasure)
  rw [judgedQueries_onlyJudged hids hquery, meanOver_singleton, trialValue,
    judgments_onlyJudged, ranked_returned]

/-- Cut metrics are those of the rankings, whatever is judged, when their measures survive, and
only then. -/
theorem recordsCuts_iff (hev : ev.Documented) (himpl : ev.Implements rules)
    (hids : (queries.map HeldQuery.queryId).Nodup)
    (hdocs : ∀ query ∈ queries, (query.ranking.map RankedDoc.docId).Nodup) :
    (∀ qrels, RecordsCuts ev rules queries (inputs.onHeld queries k qrels)) ↔
      KeepsCuts ev rules queries { inputs.objective with k := k } inputs.config := by
  constructor
  · intro hrecords key hscorable token htoken measure hmeasure query hquery
    cases hcut : measureCut measure with
    | none => exact survives_of_uncut hcut
    | some n =>
      refine (survives_iff (hdocs query hquery) hcut (cut_pos hmeasure hcut)).mp fun d => ?_
      obtain ⟨token', htoken', hmeasure', hlast⟩ :=
        exists_lastSpelling ((mem_setOrder hev).mpr htoken) hmeasure
      obtain ⟨v, hv⟩ := exists_stores hev hscorable hquery (judged_onlyJudged hids hquery d)
        ((mem_setOrder hev).mp htoken') hlast
      have hmean := (hrecords (onlyJudged query d)).metrics token' v measure hv hmeasure'
        (by simp [hcut])
      rw [rankingMean] at hmean
      have hqrels : (inputs.onHeld queries k (onlyJudged query d)).qrels = onlyJudged query d := rfl
      rw [hqrels, judgedQueries_onlyJudged hids hquery, meanOver_singleton,
        judgments_onlyJudged] at hmean
      exact (stores_onlyJudged hev himpl hids hdocs hquery hmeasure' hv).symm.trans hmean
  · intro hkeeps qrels
    have hmetrics : ∀ token v measure, Stores ev (inputs.onHeld queries k qrels) token v →
        translateMetricName token = .ok measure → measureCut measure ≠ none →
        v = rankingMean rules queries qrels measure := by
      intro token v measure hstores hmeasure hcut
      obtain ⟨key, hscorable, htoken⟩ := scorable_of_stores hev hstores
      obtain ⟨measure', hmeasure', rfl⟩ := stores_mean hev himpl hids hdocs hstores
      obtain rfl := Except.ok.inj (hmeasure'.symm.trans hmeasure)
      rw [rankingMean]
      refine meanOver_congr fun query hquery => ?_
      have hin := List.mem_of_mem_filter hquery
      rw [trialValue, ranked_returned]
      exact value_of_survives (hdocs query hin) hcut
        (hkeeps key hscorable token htoken measure' hmeasure query hin) _
    constructor
    case metrics => exact hmetrics
    case primary =>
      intro primary scored key measure houtcome hkey hmeasure hcut
      obtain ⟨key', hkey', -, hprimary⟩ := outcome_onHeld_ok houtcome
      obtain rfl := Except.ok.inj (hkey'.symm.trans hkey)
      have hmem := (scored.aggregate.get?_eq_some_iff key' primary).mp hprimary
      exact congrArg some (hmetrics key' primary measure ⟨primary, scored, houtcome, hmem⟩
        hmeasure hcut)

/-- Uncut metrics do not depend on the cutoff, whatever is judged, when it does not change how
many documents are returned, and only then. -/
theorem recordsUncut_iff (hev : ev.Documented) (himpl : ev.Implements rules)
    (hids : (queries.map HeldQuery.queryId).Nodup)
    (hdocs : ∀ query ∈ queries, (query.ranking.map RankedDoc.docId).Nodup) :
    (∀ qrels, RecordsUncut ev (inputs.onHeld queries k qrels) (inputs.onHeld queries k' qrels)) ↔
      KeepsDepth ev queries { inputs.objective with k := k }
        { inputs.objective with k := k' } inputs.config := by
  constructor
  · intro hrecords key key' hscorable hscorable' token htoken htoken' measure hmeasure hcut
      query hquery
    have hvalues : ∀ d, rules.value measure (only d)
        ((measured rules { inputs.objective with k := k } query).map Prod.fst) =
          rules.value measure (only d)
            ((measured rules { inputs.objective with k := k' } query).map Prod.fst) := by
      intro d
      have hlast : ∀ tokens, token ∈ ev.setOrder tokens →
          LastSpelling (ev.setOrder tokens) token := by
        intro tokens hmem
        obtain ⟨other, -, hother, hlast⟩ := exists_lastSpelling hmem hmeasure
        rwa [token_eq_of_uncut hmeasure hother hcut]
      have hjudged := judged_onlyJudged hids hquery d
      obtain ⟨v, hv⟩ := exists_stores hev hscorable hquery hjudged htoken
        (hlast _ ((mem_setOrder hev).mpr htoken))
      obtain ⟨v', hv'⟩ := exists_stores hev hscorable' hquery hjudged htoken'
        (hlast _ ((mem_setOrder hev).mpr htoken'))
      have hsame := hrecords (onlyJudged query d) token v v' measure hv hv' hmeasure hcut
      rw [stores_onlyJudged hev himpl hids hdocs hquery hmeasure hv,
        stores_onlyJudged hev himpl hids hdocs hquery hmeasure hv'] at hsame
      exact hsame
    exact measured_eq_iff.mp ((uncut_iff (hdocs query hquery) hcut).mp hvalues)
  · intro hkeeps qrels token v v' measure hv hv' hmeasure hcut
    obtain ⟨measure₁, hmeasure₁, rfl⟩ := stores_mean hev himpl hids hdocs hv
    obtain ⟨measure₂, hmeasure₂, rfl⟩ := stores_mean hev himpl hids hdocs hv'
    obtain rfl := Except.ok.inj (hmeasure₁.symm.trans hmeasure)
    obtain rfl := Except.ok.inj (hmeasure₂.symm.trans hmeasure)
    obtain ⟨key, hscorable, htoken⟩ := scorable_of_stores hev hv
    obtain ⟨key', hscorable', htoken'⟩ := scorable_of_stores hev hv'
    refine meanOver_congr fun query hquery => ?_
    have hin := List.mem_of_mem_filter hquery
    have hlength := hkeeps key key' hscorable hscorable' token htoken htoken' measure₂ hmeasure
      hcut query hin
    rw [trialValue, trialValue, ranked_returned, ranked_returned, measured_eq_iff.mpr hlength]

end Metrics

/-- Whatever is judged, a trial stores under every token with a cut, and as its primary metric,
the metric with this cut of the engine's rankings, and under every token without a cut a value
that no other cutoff of the objective changes, exactly when (a) the documents of every cut in the
metric set are returned and belong, by score and document id, before the other returned ones,
where places count in their order, and (b) with a token without a cut, no other cutoff changes
how many documents are returned. -/
theorem trial_metrics_iff {ev : Evaluator} {rules : TrecRules} (hev : ev.Documented)
    (himpl : ev.Implements rules) {queries : List HeldQuery}
    (hids : (queries.map HeldQuery.queryId).Nodup)
    (hdocs : ∀ query ∈ queries, (query.ranking.map RankedDoc.docId).Nodup)
    (inputs : TrialInputs) (k : Option Cutoff) :
    ((∀ qrels, RecordsCuts ev rules queries (inputs.onHeld queries k qrels)) ∧
        ∀ k' qrels, RecordsUncut ev (inputs.onHeld queries k qrels)
          (inputs.onHeld queries k' qrels)) ↔
      KeepsCuts ev rules queries { inputs.objective with k := k } inputs.config ∧
        ∀ k', KeepsDepth ev queries { inputs.objective with k := k }
          { inputs.objective with k := k' } inputs.config :=
  and_congr (recordsCuts_iff hev himpl hids hdocs)
    (forall_congr' fun _ => recordsUncut_iff hev himpl hids hdocs)

/-! ## A deeper secondary metric -/

/-- Rules with ids in ascending order. -/
def ascendingIds : TrecRules where
  idBefore d e := decide (d ≤ e)
  total d e := by simpa using le_total d e
  trans d e f h h' := by
    simp only [decide_eq_true_eq] at h h' ⊢
    exact h.trans h'
  antisymm d e h h' := by
    simp only [decide_eq_true_eq] at h h'
    exact le_antisymm h h'
  discount i := 1 / (i + 1)
  discount_pos := invRank_pos
  discount_strictAnti i i' h := by
    have hcast : (i : ℚ) < i' := by exact_mod_cast h
    dsimp only
    gcongr

/-- Two documents of one query. -/
def firstAndSecond : List HeldQuery := [⟨"q", [⟨"first", some 2⟩, ⟨"second", some 1⟩], none⟩]

/-- A trial for precision with a secondary metric. -/
def precisionTrial (secondaryMetrics : List String) : TrialInputs where
  trialId := 1
  studyId := 1
  optunaTrialNumber := 0
  objective := ⟨.precision, some .k1, .maximize⟩
  config := { secondaryMetrics := some secondaryMetrics }
  qrels := .empty
  call := msearch firstAndSecond ⟨.precision, some .k1, .maximize⟩

theorem nodup_firstAndSecond : (firstAndSecond.map HeldQuery.queryId).Nodup ∧
    ∀ query ∈ firstAndSecond, (query.ranking.map RankedDoc.docId).Nodup := by
  decide

theorem trial_metrics_precision :
    ((∀ qrels, RecordsCuts (trecEvaluator ascendingIds) ascendingIds firstAndSecond
          ((precisionTrial []).onHeld firstAndSecond (some .k1) qrels)) ∧
        ∀ k' qrels, RecordsUncut (trecEvaluator ascendingIds)
          ((precisionTrial []).onHeld firstAndSecond (some .k1) qrels)
          ((precisionTrial []).onHeld firstAndSecond k' qrels)) ↔
      KeepsCuts (trecEvaluator ascendingIds) ascendingIds firstAndSecond
          { (precisionTrial []).objective with k := some .k1 } (precisionTrial []).config ∧
        ∀ k', KeepsDepth (trecEvaluator ascendingIds) firstAndSecond
          { (precisionTrial []).objective with k := some .k1 }
          { (precisionTrial []).objective with k := k' } (precisionTrial []).config :=
  trial_metrics_iff (trecEvaluator_documented ascendingIds) (trecEvaluator_implements ascendingIds)
    nodup_firstAndSecond.1 nodup_firstAndSecond.2 (precisionTrial []) (some .k1)

/-- One document is asked for, so the relevant second one is missing from recall at three. -/
theorem secondary_metric_is_cut_off :
    ∃ query ∈ firstAndSecond, ∃ v,
      Stores (trecEvaluator ascendingIds) ((precisionTrial ["recall@3"]).onHeld firstAndSecond
        (some .k1) (onlyJudged query "second")) "recall@3" v ∧
      v ≠ rankingMean ascendingIds firstAndSecond (onlyJudged query "second") (.rAt 3) := by
  have hquery : (⟨"q", [⟨"first", some 2⟩, ⟨"second", some 1⟩], none⟩ : HeldQuery) ∈
      firstAndSecond := List.mem_cons_self
  have hev := trecEvaluator_documented ascendingIds
  have hmeasure : translateMetricName "recall@3" = .ok (.rAt 3) := by decide +kernel
  have hscorable : Scorable (trecEvaluator ascendingIds)
      { (precisionTrial ["recall@3"]).objective with k := some .k1 }
      (precisionTrial ["recall@3"]).config "precision@1" := by
    refine ⟨by decide +kernel, ?_, [], ["recall@3"], by decide +kernel, ?_⟩
    · intro token htoken
      have hcases : token = "precision@1" ∨ token = "recall@3" := by
        simpa [metricsSet, precisionTrial] using htoken
      rcases hcases with rfl | rfl
      · exact ⟨.pAt 1, by decide +kernel⟩
      · exact ⟨.rAt 3, hmeasure⟩
    · intro other hother
      rw [List.mem_singleton.mp hother]
      decide +kernel
  have hlast : LastSpelling ((trecEvaluator ascendingIds).setOrder
      (metricsSet "precision@1" (precisionTrial ["recall@3"]).config)) "recall@3" :=
    ⟨["precision@1"], [], by decide +kernel, fun other hother => by cases hother⟩
  have htoken : "recall@3" ∈ metricsSet "precision@1" (precisionTrial ["recall@3"]).config := by
    decide
  obtain ⟨v, hv⟩ := exists_stores hev hscorable hquery
    (judged_onlyJudged nodup_firstAndSecond.1 hquery "second") htoken hlast
  refine ⟨_, hquery, v, hv, ?_⟩
  rw [stores_onlyJudged hev (trecEvaluator_implements ascendingIds) nodup_firstAndSecond.1
    nodup_firstAndSecond.2 hquery hmeasure hv]
  decide +kernel

end RelyLoop.Trials
