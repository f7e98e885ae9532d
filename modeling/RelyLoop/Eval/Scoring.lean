import RelyLoop.Eval.Metrics
import RelyLoop.Eval.SearchBatch
import Mathlib.Algebra.Order.Field.Rat

/-!
# Scoring a run

`score` of `eval/scoring.py`: the values of the evaluator, for the queries that
have both judgments and an entry in the run, and their means. The evaluator is a
third-party package, and the order in which a set is iterated is not fixed; both
are parameters.
-/

namespace RelyLoop.Eval

open Python

/-- `{query_id: {doc_id: rating}}`. -/
abbrev Qrels := Dict String (Dict String ℤ)

/-- `{query_id: {doc_id: score}}`. -/
abbrev Run := Dict String (Dict String ℚ)

/-- What `score` uses and does not define: `ir_measures.iter_calc`, and the
order in which a set of tokens is iterated. -/
structure Evaluator where
  iterCalc : List Measure → Qrels → Run → List (String × Measure × ℚ)
  setOrder : List String → List String

/-- The query has a judged document. -/
def Qrels.judged (qrels : Qrels) (queryId : String) : Bool :=
  (qrels.get? queryId).any fun ratings => !ratings.entries.isEmpty

/-- What the evaluator is documented to do: it gives values of the requested
measures only, one for each judged query of the run, and iterating a set meets
each of its elements once. -/
structure Evaluator.Documented (ev : Evaluator) : Prop where
  requested : ∀ measures qrels run value, value ∈ ev.iterCalc measures qrels run →
    value.2.1 ∈ measures
  covers : ∀ measures (qrels : Qrels) run queryId measure, qrels.judged queryId →
    (run.get? queryId).isSome → measure ∈ measures →
    ∃ value, (queryId, measure, value) ∈ ev.iterCalc measures qrels run
  setOrder : ∀ tokens, (ev.setOrder tokens).Perm tokens.dedup

/-- `ScoreResult`. -/
structure ScoreResult where
  aggregate : Dict String ℚ
  perQuery : Dict String (Dict String ℚ)

/-- The exceptions of `score`. -/
inductive ScoreError where
  | metric (e : MetricError)
  | unexpectedMeasure (measure : Measure) (requested : List Measure)
  deriving DecidableEq, Repr

/-- `str(exc)`. -/
def ScoreError.text : ScoreError → String
  | metric e => e.text
  | unexpectedMeasure measure requested =>
    "score() received an unexpected measure " ++ measure.text ++
    " from ir_measures.iter_calc; requested measures were [" ++
    ", ".intercalate (requested.map Measure.text) ++
    "]. This indicates an internal ir_measures change — investigate before re-running."

/-- An entry of `user_to_obj`. -/
def withMeasure (token : String) : Except MetricError (String × Measure) :=
  (translateMetricName token).map fun measure => (token, measure)

/-- `user_to_obj`: the tokens of a set with their measures. -/
def userToObj (metrics : List String) : Except MetricError (List (String × Measure)) :=
  metrics.mapM withMeasure

/-- `obj_to_user`: of several spellings of a measure the last one is kept. -/
def objToUser (tokens : List (String × Measure)) : Dict Measure String :=
  Dict.ofList (tokens.map Prod.swap)

/-- A query of the universe: judged, and with an entry in the run. -/
def validQid (qrels : Qrels) (run : Run) (queryId : String) : Bool :=
  qrels.judged queryId && (run.get? queryId).isSome

/-- The loop over the values of the evaluator. -/
def collectPerQuery (requested : List Measure) (names : Dict Measure String)
    (valid : String → Bool) :
    List (String × Measure × ℚ) → Dict String (Dict String ℚ) →
    Except ScoreError (Dict String (Dict String ℚ))
  | [], perQuery => .ok perQuery
  | (queryId, measure, value) :: rest, perQuery =>
    if ¬valid queryId then collectPerQuery requested names valid rest perQuery
    else match names.get? measure with
      | none => .error (.unexpectedMeasure measure requested)
      | some token => collectPerQuery requested names valid rest
          (perQuery.set queryId (((perQuery.get? queryId).getD Dict.empty).set token value))

/-- The values of a token in the queries that have one. -/
def valuesOf (perQuery : Dict String (Dict String ℚ)) (token : String) : List ℚ :=
  perQuery.entries.filterMap fun entry => entry.2.get? token

/-- The means, of the tokens that have values. -/
def aggregateOf (tokens : List String) (perQuery : Dict String (Dict String ℚ)) :
    Dict String ℚ :=
  Dict.ofList (tokens.filterMap fun token =>
    if valuesOf perQuery token = [] then none
    else some (token, (valuesOf perQuery token).sum / (valuesOf perQuery token).length))

/-- `score`, on the metrics in the order in which their set is iterated. -/
def score (ev : Evaluator) (qrels : Qrels) (run : Run) (metrics : List String) :
    Except ScoreError ScoreResult :=
  if metrics = [] then .ok { aggregate := Dict.empty, perQuery := Dict.empty }
  else match userToObj metrics with
    | .error e => .error (.metric e)
    | .ok tokens =>
      match collectPerQuery (tokens.map Prod.snd) (objToUser tokens) (validQid qrels run)
          (ev.iterCalc (tokens.map Prod.snd) qrels run) Dict.empty with
      | .error e => .error e
      | .ok perQuery => .ok
          { aggregate := aggregateOf (tokens.map Prod.fst) perQuery, perQuery := perQuery }

/-! ## When a token has a mean -/

/-- No later token of the list names the same measure. -/
def LastSpelling (metrics : List String) (token : String) : Prop :=
  ∃ before after, metrics = before ++ token :: after ∧
    ∀ other ∈ after, translateMetricName other ≠ translateMetricName token

variable {ev : Evaluator} {qrels : Qrels} {run : Run} {metrics : List String}
variable {requested : List Measure} {tokens : List (String × Measure)}
variable {names : Dict Measure String} {valid : String → Bool}

theorem userToObj_isOk_iff (metrics : List String) :
    (∃ tokens, userToObj metrics = .ok tokens) ↔
      ∀ token ∈ metrics, ∃ measure, translateMetricName token = .ok measure := by
  rw [userToObj, mapM_isOk_iff]
  refine forall₂_congr fun token _ => ?_
  unfold withMeasure
  cases translateMetricName token <;> simp [Except.map]

/-- The tokens are kept, each with its measure. -/
theorem userToObj_spec (h : userToObj metrics = .ok tokens) :
    tokens.map Prod.fst = metrics ∧
      ∀ entry ∈ tokens, translateMetricName entry.1 = .ok entry.2 := by
  unfold userToObj at h
  induction metrics generalizing tokens with
  | nil =>
    obtain rfl := Except.ok.inj h
    simp
  | cons token metrics ih =>
    rw [List.mapM_cons] at h
    cases hfirst : withMeasure token with
    | error e => simp [hfirst, bind, Except.bind] at h
    | ok entry =>
      cases hrest : metrics.mapM withMeasure with
      | error e => simp [hfirst, hrest, bind, Except.bind] at h
      | ok rest =>
        have hcons : entry :: rest = tokens := by
          simpa [hfirst, hrest, bind, Except.bind, pure, Except.pure] using h
        have hentry : entry.1 = token ∧ translateMetricName token = .ok entry.2 := by
          unfold withMeasure at hfirst
          cases hmeasure : translateMetricName token with
          | error e => simp [hmeasure, Except.map] at hfirst
          | ok measure =>
            rw [hmeasure] at hfirst
            simp [← Except.ok.inj hfirst]
        obtain ⟨hmap, hall⟩ := ih hrest
        obtain ⟨rfl, hmeasure⟩ := hentry
        subst hcons
        refine ⟨by simp [hmap], fun other hother => ?_⟩
        rcases List.mem_cons.mp hother with rfl | hold
        · exact hmeasure
        · exact hall other hold

/-- The last element that passes a test. -/
theorem getLast?_filter_eq_some_iff {α : Type} (p : α → Bool) (xs : List α) (x : α) :
    (xs.filter p).getLast? = some x ↔
      ∃ before after, xs = before ++ x :: after ∧ p x ∧ ∀ y ∈ after, ¬p y := by
  constructor
  · intro h
    obtain ⟨ys, hys⟩ := List.getLast?_eq_some_iff.mp h
    obtain ⟨left, right, rfl, -, hright⟩ := List.filter_eq_append_iff.mp hys
    obtain ⟨middle, after, rfl, -, hx, hafter⟩ := List.filter_eq_cons_iff.mp hright
    exact ⟨left ++ middle, after, by simp, hx, List.filter_eq_nil_iff.mp hafter⟩
  · rintro ⟨before, after, rfl, hx, hafter⟩
    have hnone : after.filter p = [] := List.filter_eq_nil_iff.mpr hafter
    simp [List.filter_append, hx, hnone]

/-- A measure is given back the last of its spellings. -/
theorem objToUser_eq_some_iff (h : userToObj metrics = .ok tokens) {token : String}
    {measure : Measure} (hmeasure : translateMetricName token = .ok measure) :
    (objToUser tokens).get? measure = some token ↔ LastSpelling metrics token := by
  obtain ⟨rfl, hall⟩ := userToObj_spec h
  have hlast : (objToUser tokens).get? measure = some token ↔
      (tokens.filter fun entry => entry.2 = measure).getLast? = some (token, measure) := by
    have hfilter : (tokens.map Prod.swap).filter (fun e => e.1 = measure) =
        (tokens.filter fun entry => entry.2 = measure).map Prod.swap := by
      rw [List.filter_map]
      rfl
    rw [objToUser, Dict.get?_ofList, hfilter, List.getLast?_map, Option.map_map]
    constructor
    · intro hsome
      obtain ⟨entry, hentry, rfl⟩ := Option.map_eq_some_iff.mp hsome
      have hsame := (List.mem_filter.mp (List.mem_of_getLast? hentry)).2
      obtain rfl : entry.2 = measure := of_decide_eq_true hsame
      exact hentry
    · intro hsome
      rw [hsome]
      rfl
  rw [hlast, getLast?_filter_eq_some_iff]
  constructor
  · rintro ⟨before, after, rfl, -, hafter⟩
    refine ⟨before.map Prod.fst, after.map Prod.fst, by simp, fun other hother heq => ?_⟩
    obtain ⟨entry, hentry, rfl⟩ := List.mem_map.mp hother
    rw [hall entry (by simp [hentry]), hmeasure] at heq
    exact hafter entry hentry (by simpa using Except.ok.inj heq)
  · rintro ⟨before, after, hsplit, hafter⟩
    obtain ⟨before', rest, rfl, rfl, hrest⟩ := List.map_eq_append_iff.mp hsplit
    obtain ⟨entry, after', rfl, rfl, rfl⟩ := List.map_eq_cons_iff.mp hrest
    have hentry : entry.2 = measure :=
      Except.ok.inj ((hall entry (by simp)).symm.trans hmeasure)
    refine ⟨before', after', by simp [← hentry], by simp, fun other hother heq => ?_⟩
    have hother' := hafter other.1 (List.mem_map_of_mem hother)
    rw [hall other (by simp [hother]), hmeasure] at hother'
    exact hother' (by simpa using heq)

/-! ## The two loops -/

/-- The token has a value for the query. -/
def HasValue (perQuery : Dict String (Dict String ℚ)) (queryId token : String) : Prop :=
  ((perQuery.get? queryId).bind fun values => values.get? token).isSome

theorem hasValue_set (perQuery : Dict String (Dict String ℚ)) (first name queryId token : String)
    (x : ℚ) : HasValue (perQuery.set first (((perQuery.get? first).getD Dict.empty).set name x))
      queryId token ↔ HasValue perQuery queryId token ∨ (queryId = first ∧ token = name) := by
  unfold HasValue
  rw [Dict.get?_set]
  by_cases hquery : queryId = first
  · subst hquery
    by_cases hname : token = name
    · simp [hname, Dict.get?_set]
    · cases perQuery.get? queryId <;> simp [hname, Dict.get?_set]
  · simp [hquery]

theorem collectPerQuery_isOk (requested : List Measure) {values : List (String × Measure × ℚ)}
    (perQuery : Dict String (Dict String ℚ))
    (h : ∀ value ∈ values, valid value.1 → (names.get? value.2.1).isSome) :
    ∃ out, collectPerQuery requested names valid values perQuery = .ok out := by
  induction values generalizing perQuery with
  | nil => exact ⟨perQuery, rfl⟩
  | cons value values ih =>
    obtain ⟨queryId, measure, x⟩ := value
    have hrest := fun perQuery => ih perQuery fun value hvalue =>
      h value (List.mem_cons_of_mem _ hvalue)
    unfold collectPerQuery
    split
    · exact hrest perQuery
    · rename_i hvalid
      have hname := h _ List.mem_cons_self (not_not.mp hvalid)
      obtain ⟨token, htoken⟩ := Option.isSome_iff_exists.mp hname
      rw [htoken]
      exact hrest _

/-- The values of the result are those given for valid queries, under the names
of their measures. -/
theorem collectPerQuery_spec {values : List (String × Measure × ℚ)}
    {perQuery out : Dict String (Dict String ℚ)}
    (h : collectPerQuery requested names valid values perQuery = .ok out) (queryId token : String) :
    HasValue out queryId token ↔ HasValue perQuery queryId token ∨
      (valid queryId ∧ ∃ measure value, (queryId, measure, value) ∈ values ∧
        names.get? measure = some token) := by
  induction values generalizing perQuery with
  | nil => simp [Except.ok.inj h]
  | cons value values ih =>
    obtain ⟨first, measure, x⟩ := value
    unfold collectPerQuery at h
    split at h
    · rename_i hinvalid
      rw [ih h]
      refine or_congr_right (and_congr_right fun hvalid => ?_)
      constructor
      · rintro ⟨measure', value, hmem, hname⟩
        exact ⟨measure', value, List.mem_cons_of_mem _ hmem, hname⟩
      · rintro ⟨measure', value, hmem, hname⟩
        rcases List.mem_cons.mp hmem with heq | hold
        · obtain ⟨rfl, -⟩ := Prod.mk.inj heq
          exact absurd hvalid hinvalid
        · exact ⟨measure', value, hold, hname⟩
    · rename_i hvalid
      cases hname : names.get? measure with
      | none => simp [hname] at h
      | some name =>
        rw [hname] at h
        rw [ih h, hasValue_set, or_assoc]
        refine or_congr_right ?_
        constructor
        · rintro (⟨rfl, rfl⟩ | ⟨hq, measure', value, hmem, htoken⟩)
          · exact ⟨not_not.mp hvalid, measure, x, List.mem_cons_self, hname⟩
          · exact ⟨hq, measure', value, List.mem_cons_of_mem _ hmem, htoken⟩
        · rintro ⟨hq, measure', value, hmem, htoken⟩
          rcases List.mem_cons.mp hmem with heq | hold
          · obtain ⟨rfl, hrest⟩ := Prod.mk.inj heq
            obtain ⟨rfl, -⟩ := Prod.mk.inj hrest
            exact Or.inl ⟨rfl, Option.some.inj (htoken.symm.trans hname)⟩
          · exact Or.inr ⟨hq, measure', value, hold, htoken⟩

theorem valuesOf_ne_nil_iff (perQuery : Dict String (Dict String ℚ)) (token : String) :
    valuesOf perQuery token ≠ [] ↔ ∃ queryId, HasValue perQuery queryId token := by
  constructor
  · intro hne
    obtain ⟨x, hx⟩ := List.exists_mem_of_ne_nil _ hne
    obtain ⟨entry, hentry, hvalue⟩ := List.mem_filterMap.mp hx
    have hget := (perQuery.get?_eq_some_iff entry.1 entry.2).mpr hentry
    exact ⟨entry.1, by simp [HasValue, hget, hvalue]⟩
  · rintro ⟨queryId, hvalue⟩
    obtain ⟨x, hx⟩ := Option.isSome_iff_exists.mp hvalue
    obtain ⟨values, hvalues, hget⟩ := Option.bind_eq_some_iff.mp hx
    have hentry := (perQuery.get?_eq_some_iff queryId values).mp hvalues
    exact List.ne_nil_of_mem (List.mem_filterMap.mpr ⟨(queryId, values), hentry, hget⟩)

/-- A token of the set has a mean when it has a value for some query. -/
theorem aggregateOf_isSome_iff (metrics : List String) (perQuery : Dict String (Dict String ℚ))
    (token : String) : ((aggregateOf metrics perQuery).get? token).isSome ↔
      token ∈ metrics ∧ ∃ queryId, HasValue perQuery queryId token := by
  rw [aggregateOf, Dict.get?_ofList_isSome, ← valuesOf_ne_nil_iff]
  constructor
  · rintro ⟨entry, hentry, rfl⟩
    obtain ⟨token, htoken, hsome⟩ := List.mem_filterMap.mp hentry
    obtain ⟨hne, heq⟩ := Option.ite_none_left_eq_some.mp hsome
    obtain rfl := Option.some.inj heq
    exact ⟨htoken, hne⟩
  · rintro ⟨htoken, hne⟩
    exact ⟨_, List.mem_filterMap.mpr ⟨token, htoken, if_neg hne⟩, rfl⟩

/-- A token of the set has a mean exactly when the set can be translated, some
query is judged and has an entry in the run, and the token is the last spelling
of its measure. -/
theorem score_isSome_iff (hev : ev.Documented) {token : String} (htoken : token ∈ metrics) :
    (∃ result, score ev qrels run metrics = .ok result ∧ (result.aggregate.get? token).isSome) ↔
      (∀ other ∈ metrics, ∃ measure, translateMetricName other = .ok measure) ∧
        (∃ queryId, validQid qrels run queryId) ∧ LastSpelling metrics token := by
  have hne : metrics ≠ [] := List.ne_nil_of_mem htoken
  rw [score, if_neg hne, ← userToObj_isOk_iff]
  cases htokens : userToObj metrics with
  | error e => simp
  | ok tokens =>
    obtain ⟨hmap, hall⟩ := userToObj_spec htokens
    obtain ⟨⟨token', measure⟩, hentry, rfl⟩ := List.mem_map.mp (hmap.symm ▸ htoken)
    have hmeasure : translateMetricName token' = .ok measure := hall _ hentry
    rw [← objToUser_eq_some_iff htokens hmeasure]
    have hnames : ∀ value ∈ ev.iterCalc (tokens.map Prod.snd) qrels run,
        ((objToUser tokens).get? value.2.1).isSome := by
      intro value hvalue
      obtain ⟨entry, hmem, heq⟩ := List.mem_map.mp (hev.requested _ _ _ _ hvalue)
      exact (Dict.get?_ofList_isSome _ _).mpr ⟨entry.swap, List.mem_map_of_mem hmem, heq⟩
    obtain ⟨perQuery, hcollect⟩ := collectPerQuery_isOk (tokens.map Prod.snd) Dict.empty
      fun value hvalue (_ : validQid qrels run value.1) => hnames value hvalue
    have hvalue : (∃ queryId, HasValue perQuery queryId token') ↔
        (∃ queryId, validQid qrels run queryId) ∧
          (objToUser tokens).get? measure = some token' := by
      simp only [collectPerQuery_spec hcollect]
      constructor
      · rintro ⟨queryId, hempty | ⟨hvalid, measure', value, -, hname⟩⟩
        · simp [HasValue] at hempty
        · obtain ⟨entry, hmem, heq⟩ := List.mem_map.mp (Dict.mem_of_get?_ofList hname)
          obtain ⟨rfl, rfl⟩ := Prod.mk.inj heq
          obtain rfl : entry.2 = measure := Except.ok.inj ((hall entry hmem).symm.trans hmeasure)
          exact ⟨⟨queryId, hvalid⟩, hname⟩
      · rintro ⟨⟨queryId, hvalid⟩, hname⟩
        obtain ⟨hjudged, hrun⟩ := Bool.and_eq_true_iff.mp hvalid
        obtain ⟨value, hcovered⟩ := hev.covers (tokens.map Prod.snd) qrels run queryId measure
          hjudged hrun (List.mem_map_of_mem hentry)
        exact ⟨queryId, Or.inr ⟨hvalid, measure, value, hcovered, hname⟩⟩
    rw [← hvalue]
    simp [hcollect, aggregateOf_isSome_iff, hmap, htoken]

end RelyLoop.Eval
