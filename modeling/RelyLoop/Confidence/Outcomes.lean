import RelyLoop.Confidence.Shape
import RelyLoop.Ranking.Ties
import Mathlib.Tactic.Linarith

/-!
# Outcomes and the order of a set

`compute_outcome_summary` iterates over a set of query ids. What it counts does not depend on the
order of the set. The candidates that it names do, as soon as two of them tie before the cap.
-/

namespace RelyLoop.Confidence

open Python Ranking

variable {R R' : Runtime} {winner winner' comparison comparison' maps maps' : PerQuery}
  {metric : String} {threshold : ℚ} {rows rows' : List OutcomeRow} {row x y : OutcomeRow}

/-! ## Rows -/

/-- Iterating over a set yields each of its ids once. -/
def Enumerates (R : Runtime) : Prop := ∀ ids : List String, ids.Nodup → (R.setOrder ids).Perm ids

/-- Two maps hold the same metrics, in any order. -/
def SameMaps (maps maps' : PerQuery) : Prop :=
  ∀ queryId,
    Option.Rel (fun metrics metrics' => ∀ metric, metrics.get? metric = metrics'.get? metric)
    (maps.get? queryId) (maps'.get? queryId)

/-- The metric of a query. -/
def scoreOf (maps : PerQuery) (metric queryId : String) : Option ℚ :=
  (maps.get? queryId).bind fun metrics => metrics.get? metric

/-- The ids of both maps. -/
def sharedIds (winner comparison : PerQuery) : List String :=
  winner.keys.filter (· ∈ comparison.keys)

/-- The rows of the ids that have the metric in both maps. -/
def sharedRows (winner comparison : PerQuery) (metric : String) : List OutcomeRow :=
  (sharedIds winner comparison).filterMap (outcomeRow winner comparison metric)

/-- The threshold of a metric. -/
def thresholdOf (metric : String) : Option ℚ :=
  (Eval.findMetric (metric.toList.takeWhile (· ≠ '@'))).map regressorThreshold

/-- The rows of an outcome. -/
def bucket (threshold : ℚ) (rows : List OutcomeRow) (outcome : Outcome) : List OutcomeRow :=
  rows.filter fun row => outcomeOf threshold row.delta = outcome

/-- The summary of some rows. -/
def summaryOf (threshold : ℚ) (rows : List OutcomeRow) : OutcomeSummary :=
  { improved := (bucket threshold rows .improved).length
    unchanged := (bucket threshold rows .unchanged).length
    regressed := (bucket threshold rows .regressed).length
    regressorCandidates :=
      (sortedBy OutcomeRow.delta (bucket threshold rows .regressed)).take topRegressorsCap
    improverCandidates :=
      (sortedBy (fun row => -row.delta) (bucket threshold rows .improved)).take topRegressorsCap }

/-- A summary is made of the rows in the order of the set. -/
theorem computeOutcomeSummary_eq (R : Runtime) (winner comparison : PerQuery) (metric : String) :
    computeOutcomeSummary R winner comparison metric =
      if winner.entries.isEmpty || comparison.entries.isEmpty then none
      else (thresholdOf metric).map fun threshold => summaryOf threshold
        ((R.setOrder (sharedIds winner comparison)).filterMap
          (outcomeRow winner comparison metric)) := by
  rw [computeOutcomeSummary]
  unfold thresholdOf
  cases Eval.findMetric (metric.toList.takeWhile (· ≠ '@')) <;> rfl

theorem nodup_sharedIds (winner comparison : PerQuery) : (sharedIds winner comparison).Nodup :=
  winner.nodup.filter _

theorem perm_sharedRows (hR : Enumerates R) (winner comparison : PerQuery) (metric : String) :
    ((R.setOrder (sharedIds winner comparison)).filterMap
      (outcomeRow winner comparison metric)).Perm (sharedRows winner comparison metric) :=
  (hR _ (nodup_sharedIds winner comparison)).filterMap _

theorem outcomeRow_eq (winner comparison : PerQuery) (metric queryId : String) :
    outcomeRow winner comparison metric queryId =
      (scoreOf winner metric queryId).bind fun winnerScore =>
        (scoreOf comparison metric queryId).map fun comparisonScore =>
          ⟨queryId, winnerScore, comparisonScore, winnerScore - comparisonScore⟩ := by
  unfold outcomeRow scoreOf
  cases winner.get? queryId with
  | none => rfl
  | some winnerMetrics =>
    cases hwinner : winnerMetrics.get? metric with
    | none => simp [hwinner]
    | some winnerScore =>
      cases comparison.get? queryId with
      | none => simp [hwinner]
      | some comparisonMetrics =>
        cases hcomparison : comparisonMetrics.get? metric <;> simp [hwinner, hcomparison]

theorem queryId_of_outcomeRow {queryId : String}
    (h : outcomeRow winner comparison metric queryId = some row) : row.queryId = queryId := by
  rw [outcomeRow_eq] at h
  cases hwinner : scoreOf winner metric queryId with
  | none => simp [hwinner] at h
  | some winnerScore =>
    cases hcomparison : scoreOf comparison metric queryId with
    | none => simp [hcomparison] at h
    | some comparisonScore =>
      simp only [hwinner, hcomparison, Option.bind_some, Option.map_some, Option.some.injEq] at h
      exact h ▸ rfl

theorem bucket_perm (h : rows.Perm rows') (threshold : ℚ) (outcome : Outcome) :
    (bucket threshold rows outcome).Perm (bucket threshold rows' outcome) :=
  h.filter _

/-! ## Counts -/

/-- Every row has one outcome. -/
theorem length_buckets (threshold : ℚ) (rows : List OutcomeRow) :
    (bucket threshold rows .improved).length + (bucket threshold rows .unchanged).length +
      (bucket threshold rows .regressed).length = rows.length := by
  induction rows with
  | nil => rfl
  | cons row rows ih =>
    cases houtcome : outcomeOf threshold row.delta <;>
      simp only [bucket, List.filter_cons, houtcome, decide_true, decide_false, reduceCtorEq,
        if_true, if_false, Bool.false_eq_true, List.length_cons] at ih ⊢ <;>
      omega

/-- The ids that have the metric in both maps have a row each. -/
theorem length_sharedRows (winner comparison : PerQuery) (metric : String) :
    (sharedRows winner comparison metric).length = winner.keys.countP fun queryId =>
      (scoreOf winner metric queryId).isSome && (scoreOf comparison metric queryId).isSome := by
  have hkey {queryId : String} (h : (scoreOf comparison metric queryId).isSome = true) :
      queryId ∈ comparison.keys := by
    rw [Dict.mem_keys_iff]
    unfold scoreOf at h
    cases hget : comparison.get? queryId with
    | none => simp [hget] at h
    | some metrics => rfl
  rw [sharedRows, List.length_filterMap_eq_countP, sharedIds, List.countP_filter]
  apply List.countP_congr
  intro queryId _
  rw [outcomeRow_eq]
  cases hwinner : scoreOf winner metric queryId with
  | none => simp
  | some winnerScore =>
    cases hcomparison : scoreOf comparison metric queryId with
    | none => simp
    | some comparisonScore => simp [hkey (Option.isSome_iff_exists.mpr ⟨_, hcomparison⟩)]

/-- The row of a query the other way round. -/
def exchanged (row : OutcomeRow) : OutcomeRow :=
  ⟨row.queryId, row.comparisonScore, row.winnerScore, -row.delta⟩

/-- The outcome of a query the other way round. -/
def Outcome.exchanged : Outcome → Outcome
  | .improved => .regressed
  | .unchanged => .unchanged
  | .regressed => .improved

theorem outcomeRow_exchanged (winner comparison : PerQuery) (metric queryId : String) :
    outcomeRow comparison winner metric queryId =
      (outcomeRow winner comparison metric queryId).map exchanged := by
  rw [outcomeRow_eq, outcomeRow_eq]
  cases scoreOf winner metric queryId <;> cases scoreOf comparison metric queryId <;>
    simp [exchanged]

theorem threshold_pos (h : thresholdOf metric = some threshold) : 0 < threshold := by
  obtain ⟨base, -, rfl⟩ := Option.map_eq_some_iff.mp h
  cases base <;> norm_num [regressorThreshold]

theorem outcomeOf_neg (hpos : 0 < threshold) (delta : ℚ) :
    outcomeOf threshold (-delta) = (outcomeOf threshold delta).exchanged := by
  unfold outcomeOf
  split_ifs <;> first | rfl | linarith

theorem sharedIds_perm (winner comparison : PerQuery) :
    (sharedIds comparison winner).Perm (sharedIds winner comparison) := by
  rw [List.perm_ext_iff_of_nodup (nodup_sharedIds _ _) (nodup_sharedIds _ _)]
  intro queryId
  simp [sharedIds, and_comm]

/-- The other way round, the rows are exchanged. -/
theorem sharedRows_exchanged (winner comparison : PerQuery) (metric : String) :
    (sharedRows comparison winner metric).Perm
      ((sharedRows winner comparison metric).map exchanged) := by
  have hrows : outcomeRow comparison winner metric =
      fun queryId => (outcomeRow winner comparison metric queryId).map exchanged :=
    funext (outcomeRow_exchanged winner comparison metric)
  rw [sharedRows, sharedRows, List.map_filterMap, hrows]
  exact (sharedIds_perm winner comparison).filterMap _

theorem length_bucket_exchanged (hpos : 0 < threshold) (rows : List OutcomeRow)
    (outcome : Outcome) :
    (bucket threshold (rows.map exchanged) outcome).length =
      (bucket threshold rows outcome.exchanged).length := by
  have hsame (row : OutcomeRow) : outcomeOf threshold (exchanged row).delta = outcome ↔
      outcomeOf threshold row.delta = outcome.exchanged := by
    have hneg : outcomeOf threshold (exchanged row).delta =
        (outcomeOf threshold row.delta).exchanged := outcomeOf_neg hpos row.delta
    rw [hneg]
    cases outcomeOf threshold row.delta <;> cases outcome <;> simp [Outcome.exchanged]
  simp only [bucket, ← List.countP_eq_length_filter, List.countP_map]
  apply List.countP_congr
  intro row _
  simpa using hsame row

/-! ## Candidates -/

theorem SameMaps.refl (maps : PerQuery) : SameMaps maps maps := by
  intro queryId
  cases maps.get? queryId with
  | none => exact Option.Rel.none
  | some metrics => exact Option.Rel.some fun _ => rfl

theorem SameMaps.scoreOf_eq (h : SameMaps maps maps') (metric queryId : String) :
    scoreOf maps metric queryId = scoreOf maps' metric queryId := by
  have hquery := h queryId
  unfold scoreOf
  cases hget : maps.get? queryId with
  | none =>
    rw [hget] at hquery
    cases hget' : maps'.get? queryId with
    | none => rfl
    | some metrics' =>
      rw [hget'] at hquery
      cases hquery
  | some metrics =>
    rw [hget] at hquery
    cases hget' : maps'.get? queryId with
    | none =>
      rw [hget'] at hquery
      cases hquery
    | some metrics' =>
      rw [hget'] at hquery
      cases hquery with
      | some hsame => exact hsame metric

theorem SameMaps.mem_keys_iff (h : SameMaps maps maps') (queryId : String) :
    queryId ∈ maps.keys ↔ queryId ∈ maps'.keys := by
  have hquery := h queryId
  rw [Dict.mem_keys_iff, Dict.mem_keys_iff]
  cases hget : maps.get? queryId <;> cases hget' : maps'.get? queryId <;> rw [hget, hget'] at hquery
    <;> first | cases hquery; done | rfl

theorem SameMaps.isEmpty_eq (h : SameMaps maps maps') :
    maps.entries.isEmpty = maps'.entries.isEmpty := by
  have hempty (maps : PerQuery) :
      maps.entries.isEmpty = true ↔ ∀ queryId, queryId ∉ maps.keys := by
    rw [List.isEmpty_iff, ← List.eq_nil_iff_forall_not_mem, Dict.keys, List.map_eq_nil_iff]
  rw [Bool.eq_iff_iff, hempty, hempty]
  exact forall_congr' fun queryId => not_congr (h.mem_keys_iff queryId)

/-- The same maps have the same rows. -/
theorem sharedRows_perm (hwinner : SameMaps winner winner')
    (hcomparison : SameMaps comparison comparison') (metric : String) :
    (sharedRows winner' comparison' metric).Perm (sharedRows winner comparison metric) := by
  have hrows : outcomeRow winner' comparison' metric = outcomeRow winner comparison metric := by
    funext queryId
    rw [outcomeRow_eq, outcomeRow_eq, hwinner.scoreOf_eq, hcomparison.scoreOf_eq]
  rw [sharedRows, sharedRows, hrows]
  apply List.Perm.filterMap
  rw [List.perm_ext_iff_of_nodup (nodup_sharedIds _ _) (nodup_sharedIds _ _)]
  intro queryId
  simp only [sharedIds, List.mem_filter, decide_eq_true_eq, hwinner.mem_keys_iff,
    hcomparison.mem_keys_iff]

/-- Both lists of candidates. -/
def OutcomeSummary.candidates (summary : OutcomeSummary) : List OutcomeRow × List OutcomeRow :=
  (summary.regressorCandidates, summary.improverCandidates)

/-- At least as many candidates as are named stand before every tie of two. -/
def TiesPastCap (winner comparison : PerQuery) (metric : String) : Prop :=
  ∀ threshold, thresholdOf metric = some threshold →
    TiesBeyond OutcomeRow.delta topRegressorsCap
        (bucket threshold (sharedRows winner comparison metric) .regressed) ∧
      TiesBeyond (fun row => -row.delta) topRegressorsCap
        (bucket threshold (sharedRows winner comparison metric) .improved)

/-- What is summarized, whatever the order of the set. -/
structure OutcomeSettled (winner comparison : PerQuery) (metric : String) : Prop where
  sums : ∀ R summary, Enumerates R →
    computeOutcomeSummary R winner comparison metric = some summary →
      summary.improved + summary.unchanged + summary.regressed =
        winner.keys.countP fun queryId =>
          (scoreOf winner metric queryId).isSome && (scoreOf comparison metric queryId).isSome
  exchanges : ∀ R R', Enumerates R → Enumerates R' →
    (computeOutcomeSummary R' comparison winner metric).map
        (fun summary => (summary.improved, summary.unchanged, summary.regressed)) =
      (computeOutcomeSummary R winner comparison metric).map
        fun summary => (summary.regressed, summary.unchanged, summary.improved)
  names : ∀ R R' winner' comparison', Enumerates R → Enumerates R' → SameMaps winner winner' →
    SameMaps comparison comparison' →
      (computeOutcomeSummary R' winner' comparison' metric).map OutcomeSummary.candidates =
        (computeOutcomeSummary R winner comparison metric).map OutcomeSummary.candidates

theorem sums_of_compute {summary : OutcomeSummary} (hR : Enumerates R)
    (h : computeOutcomeSummary R winner comparison metric = some summary) :
    summary.improved + summary.unchanged + summary.regressed =
      winner.keys.countP fun queryId =>
        (scoreOf winner metric queryId).isSome && (scoreOf comparison metric queryId).isSome := by
  rw [computeOutcomeSummary_eq] at h
  split at h
  · cases h
  · obtain ⟨threshold, -, rfl⟩ := Option.map_eq_some_iff.mp h
    have hlength := length_buckets threshold
      ((R.setOrder (sharedIds winner comparison)).filterMap (outcomeRow winner comparison metric))
    rw [(perm_sharedRows hR winner comparison metric).length_eq, length_sharedRows] at hlength
    exact hlength

theorem exchanges_of_compute (hR : Enumerates R) (hR' : Enumerates R')
    (winner comparison : PerQuery) (metric : String) :
    (computeOutcomeSummary R' comparison winner metric).map
        (fun summary => (summary.improved, summary.unchanged, summary.regressed)) =
      (computeOutcomeSummary R winner comparison metric).map
        fun summary => (summary.regressed, summary.unchanged, summary.improved) := by
  rw [computeOutcomeSummary_eq, computeOutcomeSummary_eq, Bool.or_comm]
  split
  · rfl
  cases hthreshold : thresholdOf metric with
  | none => rfl
  | some threshold =>
    have hpos := threshold_pos hthreshold
    have hperm := (perm_sharedRows hR' comparison winner metric).trans
      ((sharedRows_exchanged winner comparison metric).trans
        ((perm_sharedRows hR winner comparison metric).symm.map exchanged))
    have hlength (outcome : Outcome) := (bucket_perm hperm threshold outcome).length_eq.trans
      (length_bucket_exchanged hpos _ outcome)
    simp only [Option.map_some, summaryOf, hlength, Outcome.exchanged]

/-- Ties past the cap leave the candidates in their places. -/
theorem names_of_tiesPastCap (hties : TiesPastCap winner comparison metric) (hR : Enumerates R)
    (hR' : Enumerates R') (hwinner : SameMaps winner winner')
    (hcomparison : SameMaps comparison comparison') :
    (computeOutcomeSummary R' winner' comparison' metric).map OutcomeSummary.candidates =
      (computeOutcomeSummary R winner comparison metric).map OutcomeSummary.candidates := by
  rw [computeOutcomeSummary_eq, computeOutcomeSummary_eq, ← hwinner.isEmpty_eq,
    ← hcomparison.isEmpty_eq]
  split
  · rfl
  cases hthreshold : thresholdOf metric with
  | none => rfl
  | some threshold =>
    obtain ⟨hregressed, himproved⟩ := hties threshold hthreshold
    have hperm := (perm_sharedRows hR' winner' comparison' metric).trans
      (sharedRows_perm hwinner hcomparison metric)
    have hperm' := perm_sharedRows hR winner comparison metric
    simp only [Option.map_some, OutcomeSummary.candidates, summaryOf,
      take_sortedBy_eq hregressed (bucket_perm hperm threshold .regressed),
      take_sortedBy_eq hregressed (bucket_perm hperm' threshold .regressed),
      take_sortedBy_eq himproved (bucket_perm hperm threshold .improved),
      take_sortedBy_eq himproved (bucket_perm hperm' threshold .improved)]

/-! ## Orders of the set -/

/-- A set that is iterated from one of its ids on. -/
def leading (queryId : String) : Runtime where
  sqrt := id
  resampledMeans := id
  percentile := fun _ _ => 0
  setOrder := fun ids => if queryId ∈ ids then queryId :: ids.erase queryId else ids

theorem enumerates_leading (queryId : String) : Enumerates (leading queryId) := by
  intro ids _
  by_cases hmem : queryId ∈ ids
  · simp only [leading, if_pos hmem]
    exact (List.perm_cons_erase hmem).symm
  · simp only [leading, if_neg hmem]
    exact List.Perm.refl ids

/-- The row of the first id comes first. -/
theorem bucket_leading {outcome : Outcome}
    (hx : x ∈ bucket threshold (sharedRows winner comparison metric) outcome) :
    ∃ rest, bucket threshold (((leading x.queryId).setOrder (sharedIds winner comparison)).filterMap
      (outcomeRow winner comparison metric)) outcome = x :: rest ∧
      (x :: rest).Perm (bucket threshold (sharedRows winner comparison metric) outcome) := by
  obtain ⟨hrow, houtcome⟩ := List.mem_filter.mp hx
  obtain ⟨queryId, hmem, hqueryId⟩ := List.mem_filterMap.mp hrow
  obtain rfl := queryId_of_outcomeRow hqueryId
  have hperm := bucket_perm
    (perm_sharedRows (enumerates_leading x.queryId) winner comparison metric) threshold outcome
  have hfirst : bucket threshold (((leading x.queryId).setOrder
      (sharedIds winner comparison)).filterMap (outcomeRow winner comparison metric)) outcome =
      x :: bucket threshold (((sharedIds winner comparison).erase x.queryId).filterMap
        (outcomeRow winner comparison metric)) outcome := by
    simp only [leading, if_pos hmem, List.filterMap_cons, hqueryId]
    exact List.filter_cons_of_pos houtcome
  exact ⟨_, hfirst, hfirst ▸ hperm⟩

/-- The candidates of an outcome are the same in two orders only if ties are past the cap. -/
theorem tiesBeyond_of_same {outcome : Outcome} {key : OutcomeRow → ℚ} {cap : ℕ}
    (hsame : ∀ queryId queryId',
      (sortedBy key (bucket threshold (((leading queryId).setOrder
        (sharedIds winner comparison)).filterMap
          (outcomeRow winner comparison metric)) outcome)).take cap =
      (sortedBy key (bucket threshold (((leading queryId').setOrder
        (sharedIds winner comparison)).filterMap
          (outcomeRow winner comparison metric)) outcome)).take cap) :
    TiesBeyond key cap (bucket threshold (sharedRows winner comparison metric) outcome) := by
  intro x hx y hy hne hkey
  by_contra hfew
  push Not at hfew
  obtain ⟨rest, hfirst, hperm⟩ := bucket_leading hx
  obtain ⟨rest', hfirst', hperm'⟩ := bucket_leading hy
  have heq := hsame x.queryId y.queryId
  rw [hfirst, hfirst'] at heq
  exact take_sortedBy_ne hperm hperm' hne hkey hfew heq

theorem tiesPastCap_of_names
    (hnames : ∀ R R', Enumerates R → Enumerates R' →
      (computeOutcomeSummary R' winner comparison metric).map OutcomeSummary.candidates =
        (computeOutcomeSummary R winner comparison metric).map OutcomeSummary.candidates) :
    TiesPastCap winner comparison metric := by
  intro threshold hthreshold
  by_cases hempty : (winner.entries.isEmpty || comparison.entries.isEmpty) = true
  · have hnone : sharedRows winner comparison metric = [] := by
      rw [Bool.or_eq_true, List.isEmpty_iff, List.isEmpty_iff] at hempty
      have hids : sharedIds winner comparison = [] := by
        unfold sharedIds Dict.keys
        rcases hempty with hempty | hempty <;> simp [hempty]
      rw [sharedRows, hids, List.filterMap_nil]
    rw [hnone]
    constructor <;> intro x hx <;> cases hx
  · have hsame (queryId queryId' : String) := hnames (leading queryId') (leading queryId)
      (enumerates_leading queryId') (enumerates_leading queryId)
    simp only [computeOutcomeSummary_eq, if_neg hempty, hthreshold, Option.map_some,
      Option.some.injEq, OutcomeSummary.candidates, summaryOf, Prod.mk.injEq] at hsame
    constructor
    · exact tiesBeyond_of_same fun queryId queryId' => (hsame queryId queryId').1
    · exact tiesBeyond_of_same fun queryId queryId' => (hsame queryId queryId').2

/-- The counts sum to the queries that have the metric on both sides, and exchange with the
sides; the candidates depend on the maps alone if and only if ties are past the cap. -/
theorem outcomeSettled_iff (winner comparison : PerQuery) (metric : String) :
    OutcomeSettled winner comparison metric ↔ TiesPastCap winner comparison metric := by
  constructor
  · intro hsettled
    exact tiesPastCap_of_names fun R R' hR hR' => hsettled.names R R' winner comparison hR hR'
      (SameMaps.refl winner) (SameMaps.refl comparison)
  · intro hties
    constructor
    · exact fun R summary hR h => sums_of_compute hR h
    · exact fun R R' hR hR' => exchanges_of_compute hR hR' winner comparison metric
    · exact fun R R' winner' comparison' hR hR' hwinner hcomparison =>
        names_of_tiesPastCap hties hR hR' hwinner hcomparison

/-- Two queries improve alike. -/
def tiedWinner : PerQuery :=
  Dict.ofList [("q1", Dict.ofList [("mrr", 1)]), ("q2", Dict.ofList [("mrr", 1)])]

/-- The trial that both improve on. -/
def tiedComparison : PerQuery :=
  Dict.ofList [("q1", Dict.ofList [("mrr", 0)]), ("q2", Dict.ofList [("mrr", 0)])]

theorem not_outcomeSettled_tied : ¬OutcomeSettled tiedWinner tiedComparison "mrr" := by
  intro hsettled
  have hnames := hsettled.names (leading "q1") (leading "q2") tiedWinner tiedComparison
    (enumerates_leading "q1") (enumerates_leading "q2") (SameMaps.refl _) (SameMaps.refl _)
  revert hnames
  decide +kernel

end RelyLoop.Confidence
