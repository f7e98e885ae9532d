import RelyLoop.Eval.Scoring
import RelyLoop.Ranking.Effectiveness

/-!
# What the evaluator computes

`ir_measures` implements the measures of trec: it sorts the documents of a query by descending
score, equal scores by document id, and measures that list. The means of `score` are then means
of these measures over the judged queries of the run.
-/

namespace RelyLoop.Eval

open Python Ranking

/-- The rules that the package fixes: the order of document ids among equal scores, and the
discount of `nDCG`. -/
structure TrecRules where
  idBefore : String → String → Bool
  total : ∀ d e, idBefore d e = true ∨ idBefore e d = true
  trans : ∀ d e f, idBefore d e = true → idBefore e f = true → idBefore d f = true
  antisymm : ∀ d e, idBefore d e = true → idBefore e d = true → d = e
  discount : ℕ → ℚ
  discount_pos : ∀ i, 0 < discount i
  discount_strictAnti : StrictAnti discount

namespace TrecRules

variable (rules : TrecRules)

/-- A document with its score stands before another one. -/
def Before (a b : String × ℚ) : Prop :=
  b.2 < a.2 ∨ (a.2 = b.2 ∧ rules.idBefore a.1 b.1 = true)

instance : DecidableRel rules.Before := fun a b =>
  inferInstanceAs (Decidable (b.2 < a.2 ∨ (a.2 = b.2 ∧ rules.idBefore a.1 b.1 = true)))

instance : Std.Total rules.Before where
  total a b := by
    rcases lt_trichotomy a.2 b.2 with hlt | heq | hlt
    · exact .inr (.inl hlt)
    · rcases rules.total a.1 b.1 with hid | hid
      · exact .inl (.inr ⟨heq, hid⟩)
      · exact .inr (.inr ⟨heq.symm, hid⟩)
    · exact .inl (.inl hlt)

instance : IsTrans (String × ℚ) rules.Before where
  trans a b c := by
    rintro (hab | ⟨hab, hid⟩) (hbc | ⟨hbc, hid'⟩)
    · exact .inl (hbc.trans hab)
    · exact .inl (hbc ▸ hab)
    · exact .inl (hab ▸ hbc)
    · exact .inr ⟨hab.trans hbc, rules.trans _ _ _ hid hid'⟩

instance : Std.Antisymm rules.Before where
  antisymm a b := by
    rintro (hab | ⟨hab, hid⟩) (hba | ⟨hba, hid'⟩)
    · exact absurd hab hba.asymm
    · exact absurd hab (by rw [hba]; exact lt_irrefl _)
    · exact absurd hba (by rw [hab]; exact lt_irrefl _)
    · exact Prod.ext (rules.antisymm _ _ hid hid') hab

/-- The documents of a query in the order in which they are measured. -/
def ranked (scores : List (String × ℚ)) : List String :=
  (scores.insertionSort rules.Before).map Prod.fst

/-- The value of a measure for a query. -/
def value : Measure → Judged String → List String → ℚ
  | .rr, j, docs => reciprocalRank j docs
  | .ap, j, docs => averagePrecision j docs
  | .ndcgAt k, j, docs => normalizedGain rules.discount k.toNat j docs
  | .apAt k, j, docs => averagePrecision j (docs.take k.toNat)
  | .pAt k, j, docs => precisionAt k.toNat j docs
  | .rAt k, j, docs => recallAt k.toNat j docs

end TrecRules

/-- The cut of a measure. -/
def measureCut : Measure → Option ℤ
  | .rr | .ap => none
  | .ndcgAt k | .apAt k | .pAt k | .rAt k => some k

/-- The judgments of a query. -/
def judgments (ratings : Dict String ℤ) : Judged String :=
  ⟨fun d => ((ratings.get? d).getD 0).toNat, ratings.keys⟩

/-- The value of a measure for a query of the run. -/
def queryValue (rules : TrecRules) (qrels : Qrels) (run : Run) (measure : Measure)
    (queryId : String) : ℚ :=
  rules.value measure (judgments ((qrels.get? queryId).getD Dict.empty))
    (rules.ranked ((run.get? queryId).getD Dict.empty).entries)

/-- The evaluator computes the measures by the rules. -/
def Evaluator.Implements (ev : Evaluator) (rules : TrecRules) : Prop :=
  ∀ measures qrels run queryId measure x,
    (queryId, measure, x) ∈ ev.iterCalc measures qrels run →
    x = queryValue rules qrels run measure queryId

/-- An evaluator that computes the measures of the judged queries of the run. -/
def trecEvaluator (rules : TrecRules) : Evaluator where
  iterCalc measures qrels run :=
    (run.keys.filter fun queryId => qrels.judged queryId).flatMap fun queryId =>
      measures.map fun measure => (queryId, measure, queryValue rules qrels run measure queryId)
  setOrder := List.dedup

theorem mem_trecEvaluator {rules : TrecRules} {measures : List Measure} {qrels : Qrels} {run : Run}
    {queryId : String} {measure : Measure} {x : ℚ} :
    (queryId, measure, x) ∈ (trecEvaluator rules).iterCalc measures qrels run ↔
      (queryId ∈ run.keys ∧ qrels.judged queryId) ∧ measure ∈ measures ∧
        x = queryValue rules qrels run measure queryId := by
  simp only [trecEvaluator, List.mem_flatMap, List.mem_filter, List.mem_map, Prod.mk.injEq]
  constructor
  · rintro ⟨_, hquery, _, hmeasure, rfl, rfl, rfl⟩
    exact ⟨hquery, hmeasure, rfl⟩
  · rintro ⟨hquery, hmeasure, rfl⟩
    exact ⟨queryId, hquery, measure, hmeasure, rfl, rfl, rfl⟩

theorem trecEvaluator_documented (rules : TrecRules) : (trecEvaluator rules).Documented where
  requested _ _ _ value hvalue := (mem_trecEvaluator (x := value.2.2) |>.mp hvalue).2.1
  covers _ _ _ _ _ hjudged hrun hmeasure :=
    ⟨_, mem_trecEvaluator.mpr ⟨⟨Dict.mem_keys_iff.mpr hrun, hjudged⟩, hmeasure, rfl⟩⟩
  setOrder tokens := List.Perm.refl tokens.dedup

theorem trecEvaluator_implements (rules : TrecRules) : (trecEvaluator rules).Implements rules :=
  fun _ _ _ _ _ _ hvalue => (mem_trecEvaluator.mp hvalue).2.2

/-- A mean over queries. -/
def meanOver {α : Type} (f : α → ℚ) (queries : List α) : ℚ :=
  (queries.map f).sum / queries.length

/-! ## Tokens and measures -/

/-- What a token is translated to: a measure without a cut, or one with an admitted cut. -/
theorem translateMetricName_cases {token : String} {measure : Measure}
    (h : translateMetricName token = .ok measure) :
    (token = "mrr" ∧ measure = .rr) ∨ (token = "map" ∧ measure = .ap) ∨
      ∃ k ∈ supportedKValues, measureCut measure = some k := by
  unfold translateMetricName at h
  split at h
  · rename_i heq
    exact .inl ⟨heq, (Except.ok.inj h).symm⟩
  split at h
  · rename_i heq
    exact .inr (.inl ⟨heq, (Except.ok.inj h).symm⟩)
  split at h
  · cases h
  dsimp only at h
  split at h
  · cases h
  · cases h
  split at h
  · cases h
  rename_i k hnumber
  split at h
  · cases h
  rename_i hallowed
  refine .inr (.inr ⟨k, not_not.mp hallowed, ?_⟩)
  split at h
  · exact Except.ok.inj h ▸ rfl
  · exact Except.ok.inj h ▸ rfl
  · exact Except.ok.inj h ▸ rfl
  · exact Except.ok.inj h ▸ rfl
  · cases h

theorem cut_pos {token : String} {measure : Measure} {k : ℤ}
    (h : translateMetricName token = .ok measure) (hcut : measureCut measure = some k) :
    0 < k.toNat := by
  rcases translateMetricName_cases h with ⟨-, rfl⟩ | ⟨-, rfl⟩ | ⟨k', hk', hcut'⟩
  · cases hcut
  · cases hcut
  · obtain rfl := Option.some.inj (hcut.symm.trans hcut')
    have hpos : ∀ k ∈ supportedKValues, 0 < k.toNat := by decide
    exact hpos k hk'

/-- A measure without a cut has one spelling. -/
theorem token_eq_of_uncut {token token' : String} {measure : Measure}
    (h : translateMetricName token = .ok measure) (h' : translateMetricName token' = .ok measure)
    (hcut : measureCut measure = none) : token = token' := by
  rcases translateMetricName_cases h with ⟨rfl, rfl⟩ | ⟨rfl, rfl⟩ | ⟨k, -, hk⟩
  · rcases translateMetricName_cases h' with ⟨rfl, -⟩ | ⟨-, hap⟩ | ⟨k, -, hk⟩
    · rfl
    · cases hap
    · cases hk
  · rcases translateMetricName_cases h' with ⟨-, hrr⟩ | ⟨rfl, -⟩ | ⟨k, -, hk⟩
    · cases hrr
    · rfl
    · cases hk
  · rw [hcut] at hk
    cases hk

/-- Every measure of a list has a last spelling. -/
theorem exists_lastSpelling {metrics : List String} {token : String} {measure : Measure}
    (htoken : token ∈ metrics) (h : translateMetricName token = .ok measure) :
    ∃ token' ∈ metrics, translateMetricName token' = .ok measure ∧
      LastSpelling metrics token' := by
  have hne : metrics.filter (fun other => translateMetricName other = .ok measure) ≠ [] :=
    List.ne_nil_of_mem (List.mem_filter.mpr ⟨htoken, by simp [h]⟩)
  obtain ⟨token', hlast⟩ := Option.ne_none_iff_exists'.mp (mt List.getLast?_eq_none_iff.mp hne)
  obtain ⟨before, after, rfl, hmeasure, hafter⟩ := (getLast?_filter_eq_some_iff _ _ _).mp hlast
  have hmeasure' : translateMetricName token' = .ok measure := of_decide_eq_true hmeasure
  refine ⟨token', by simp, hmeasure', before, after, rfl, fun other hother heq => ?_⟩
  exact hafter other hother (by simp [heq, hmeasure'])

/-! ## The means of `score` -/

variable {ev : Evaluator} {rules : TrecRules} {qrels : Qrels} {run : Run} {metrics : List String}
  {requested : List Measure} {names : Dict Measure String} {valid : String → Bool}

/-- The values of the result are those that the names of the measures say. -/
theorem collectPerQuery_value {f : String → String → ℚ} {values : List (String × Measure × ℚ)}
    {perQuery out : Dict String (Dict String ℚ)}
    (h : collectPerQuery requested names valid values perQuery = .ok out)
    (hvalues : ∀ entry ∈ values, ∀ token, names.get? entry.2.1 = some token →
      entry.2.2 = f token entry.1)
    (hstart : ∀ queryId row, perQuery.get? queryId = some row → ∀ token x,
      row.get? token = some x → x = f token queryId) :
    ∀ queryId row, out.get? queryId = some row → ∀ token x,
      row.get? token = some x → x = f token queryId := by
  induction values generalizing perQuery with
  | nil =>
    obtain rfl := Except.ok.inj h
    exact hstart
  | cons entry values ih =>
    obtain ⟨first, measure, y⟩ := entry
    have hrest := fun e he => hvalues e (List.mem_cons_of_mem _ he)
    unfold collectPerQuery at h
    split at h
    · exact ih h hrest hstart
    · cases hname : names.get? measure with
      | none => simp [hname] at h
      | some name =>
        rw [hname] at h
        refine ih h hrest fun queryId row hrow token x hx => ?_
        rw [Dict.get?_set] at hrow
        by_cases hquery : queryId = first
        · subst hquery
          rw [if_pos rfl] at hrow
          obtain rfl := Option.some.inj hrow
          rw [Dict.get?_set] at hx
          by_cases htoken : token = name
          · subst htoken
            rw [if_pos rfl] at hx
            exact (Option.some.inj hx).symm.trans (hvalues _ List.mem_cons_self token hname)
          · rw [if_neg htoken] at hx
            cases hold : perQuery.get? queryId with
            | none => simp [hold] at hx
            | some row =>
              rw [hold] at hx
              exact hstart queryId row hold token x hx
        · rw [if_neg hquery] at hrow
          exact hstart queryId row hrow token x hx

/-- The queries that have a value for a token. -/
def queriesWith (perQuery : Dict String (Dict String ℚ)) (token : String) : List String :=
  (perQuery.entries.filter fun entry => (entry.2.get? token).isSome).map Prod.fst

theorem mem_queriesWith {perQuery : Dict String (Dict String ℚ)} {token queryId : String} :
    queryId ∈ queriesWith perQuery token ↔ HasValue perQuery queryId token := by
  rw [queriesWith, List.mem_map]
  constructor
  · rintro ⟨entry, hentry, rfl⟩
    obtain ⟨hmem, hsome⟩ := List.mem_filter.mp hentry
    have hget := (perQuery.get?_eq_some_iff entry.1 entry.2).mpr hmem
    rw [HasValue, hget]
    exact hsome
  · intro hvalue
    obtain ⟨x, hx⟩ := Option.isSome_iff_exists.mp hvalue
    obtain ⟨row, hrow, hget⟩ := Option.bind_eq_some_iff.mp hx
    have hmem := (perQuery.get?_eq_some_iff queryId row).mp hrow
    exact ⟨(queryId, row), List.mem_filter.mpr ⟨hmem, by simp [hget]⟩, rfl⟩

theorem nodup_queriesWith (perQuery : Dict String (Dict String ℚ)) (token : String) :
    (queriesWith perQuery token).Nodup :=
  (List.filter_sublist.map Prod.fst).nodup perQuery.nodup

/-- The values of a token, by their queries. -/
theorem valuesOf_eq {f : String → String → ℚ} {perQuery : Dict String (Dict String ℚ)}
    (h : ∀ queryId row, perQuery.get? queryId = some row → ∀ token x,
      row.get? token = some x → x = f token queryId) (token : String) :
    valuesOf perQuery token = (queriesWith perQuery token).map (f token) := by
  have hentries : ∀ entry ∈ perQuery.entries, ∀ x, entry.2.get? token = some x →
      x = f token entry.1 := fun entry hentry x hx =>
    h entry.1 entry.2 ((perQuery.get?_eq_some_iff entry.1 entry.2).mpr hentry) token x hx
  rw [valuesOf, queriesWith]
  generalize perQuery.entries = entries at hentries ⊢
  induction entries with
  | nil => rfl
  | cons entry entries ih =>
    have hrest := ih fun e he => hentries e (List.mem_cons_of_mem _ he)
    rw [List.filterMap_cons, List.filter_cons]
    cases hget : entry.2.get? token with
    | none => simpa [hget] using hrest
    | some x =>
      obtain rfl := hentries entry List.mem_cons_self x hget
      simpa [hget] using hrest

/-- The mean over two listings of the same queries is the same. -/
theorem meanOver_perm {α : Type} {f : α → ℚ} {queries queries' : List α}
    (h : queries.Perm queries') : meanOver f queries = meanOver f queries' := by
  rw [meanOver, meanOver, (h.map f).sum_eq, h.length_eq]

theorem meanOver_congr {α : Type} {f g : α → ℚ} {queries : List α}
    (h : ∀ query ∈ queries, f query = g query) : meanOver f queries = meanOver g queries := by
  rw [meanOver, meanOver, List.map_congr_left h]

/-- Only tokens of the set have a mean. -/
theorem mem_of_score {result : ScoreResult} (h : score ev qrels run metrics = .ok result)
    {token : String} (htoken : (result.aggregate.get? token).isSome) : token ∈ metrics := by
  by_cases hne : metrics = []
  · rw [score, if_pos hne] at h
    obtain rfl := Except.ok.inj h
    cases htoken
  rw [score, if_neg hne] at h
  split at h
  · cases h
  · rename_i tokens htokens
    split at h
    · cases h
    · obtain rfl := Except.ok.inj h
      rw [← (userToObj_spec htokens).1]
      exact ((aggregateOf_isSome_iff _ _ token).mp htoken).1

/-- The value of the measure that a token names. -/
def tokenValue (rules : TrecRules) (qrels : Qrels) (run : Run) (token queryId : String) : ℚ :=
  match translateMetricName token with
  | .ok measure => queryValue rules qrels run measure queryId
  | .error _ => 0

/-- The mean of a token is that of its measure over the judged queries of the run. -/
theorem score_mean (hev : ev.Documented) (himpl : ev.Implements rules) {result : ScoreResult}
    (h : score ev qrels run metrics = .ok result) {token : String} {v : ℚ}
    (hv : result.aggregate.get? token = some v) {queryIds : List String}
    (hnodup : queryIds.Nodup) (hmem : ∀ queryId, queryId ∈ queryIds ↔ validQid qrels run queryId) :
    ∃ measure, translateMetricName token = .ok measure ∧
      v = meanOver (queryValue rules qrels run measure) queryIds := by
  by_cases hne : metrics = []
  · rw [score, if_pos hne] at h
    obtain rfl := Except.ok.inj h
    cases hv
  rw [score, if_neg hne] at h
  cases htokens : userToObj metrics with
  | error e => simp [htokens] at h
  | ok tokens =>
    obtain ⟨hmap, hall⟩ := userToObj_spec htokens
    rw [htokens] at h
    dsimp only at h
    cases hcollect : collectPerQuery (tokens.map Prod.snd) (objToUser tokens) (validQid qrels run)
        (ev.iterCalc (tokens.map Prod.snd) qrels run) Dict.empty with
    | error e => simp [hcollect] at h
    | ok perQuery =>
      rw [hcollect] at h
      obtain rfl := Except.ok.inj h
      obtain ⟨token', htoken', hmean⟩ := List.mem_filterMap.mp (Dict.mem_of_get?_ofList hv)
      obtain ⟨hvalues, heq⟩ := Option.ite_none_left_eq_some.mp hmean
      obtain ⟨rfl, rfl⟩ := Prod.mk.inj (Option.some.inj heq)
      obtain ⟨⟨token, measure⟩, hentry, rfl⟩ := List.mem_map.mp htoken'
      have hmeasure : translateMetricName token = .ok measure := hall _ hentry
      refine ⟨measure, hmeasure, ?_⟩
      -- the names of the measures are their tokens
      have hname : ∀ measure' token', (objToUser tokens).get? measure' = some token' →
          translateMetricName token' = .ok measure' := by
        intro measure' token' hget
        obtain ⟨entry, hmem', heq'⟩ := List.mem_map.mp (Dict.mem_of_get?_ofList hget)
        obtain ⟨rfl, rfl⟩ := Prod.mk.inj heq'
        exact hall entry hmem'
      have hf : tokenValue rules qrels run token = queryValue rules qrels run measure := by
        funext queryId
        rw [tokenValue, hmeasure]
      have hrows := collectPerQuery_value (f := tokenValue rules qrels run) hcollect
        (fun entry hentry token' htoken' => by
          rw [tokenValue, hname _ _ htoken']
          exact himpl _ _ _ _ _ _ hentry)
        (fun queryId row hrow => by cases hrow)
      rw [valuesOf_eq hrows token, hf] at hvalues ⊢
      rw [List.length_map, ← meanOver]
      refine meanOver_perm ((List.perm_ext_iff_of_nodup (nodup_queriesWith _ _) hnodup).mpr ?_)
      intro queryId
      rw [mem_queriesWith, hmem, collectPerQuery_spec hcollect]
      -- some query has a value, so the token is the name of its measure
      obtain ⟨first, hfirst⟩ : ∃ first, first ∈ queriesWith perQuery token :=
        List.exists_mem_of_ne_nil _ fun hnil => hvalues (by rw [hnil]; rfl)
      rw [mem_queriesWith, collectPerQuery_spec hcollect] at hfirst
      obtain ⟨-, measure', -, -, hnamed⟩ := hfirst.resolve_left (by simp [HasValue])
      obtain rfl : measure' = measure :=
        Except.ok.inj ((hname _ _ hnamed).symm.trans hmeasure)
      constructor
      · intro hvalue
        exact (hvalue.resolve_left (by simp [HasValue])).1
      · intro hvalid
        obtain ⟨hjudged, hrun⟩ := Bool.and_eq_true_iff.mp hvalid
        obtain ⟨x, hx⟩ := hev.covers (tokens.map Prod.snd) qrels run queryId measure' hjudged hrun
          (List.mem_map_of_mem hentry)
        exact .inr ⟨hvalid, measure', x, hx, hnamed⟩

end RelyLoop.Eval
