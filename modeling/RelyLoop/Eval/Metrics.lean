import RelyLoop.Python.Conversions
import RelyLoop.Studies.Records

/-!
# Metric tokens

The user-facing metric tokens of `eval/scoring.py`: their translation to the
measures of the evaluator, and the token of an objective. A secondary metric is
a free string, so the translation may refuse it.
-/

namespace RelyLoop.Eval

open Studies

/-- The name of a metric in tokens and in `studies.objective`. -/
def metricName : Metric → String
  | .ndcg => "ndcg"
  | .map => "map"
  | .precision => "precision"
  | .recall => "recall"
  | .mrr => "mrr"

/-- `SUPPORTED_METRICS`. -/
def supportedMetrics : List Metric := [.ndcg, .map, .precision, .recall, .mrr]

/-- `SUPPORTED_K_VALUES`. -/
def supportedKValues : List ℤ := [1, 3, 5, 10, 20, 50, 100]

/-- The number of a cutoff. -/
def cutoffValue : Cutoff → ℤ
  | .k1 => 1
  | .k3 => 3
  | .k5 => 5
  | .k10 => 10
  | .k20 => 20
  | .k50 => 50
  | .k100 => 100

/-- The measures of the evaluator that tokens are translated to. -/
inductive Measure where
  | rr
  | ap
  | ndcgAt (k : ℤ)
  | apAt (k : ℤ)
  | pAt (k : ℤ)
  | rAt (k : ℤ)
  deriving DecidableEq, Repr

/-- `repr` of a measure. -/
def Measure.text : Measure → String
  | rr => "RR"
  | ap => "AP"
  | ndcgAt k => "nDCG@" ++ toString k
  | apAt k => "AP@" ++ toString k
  | pAt k => "P@" ++ toString k
  | rAt k => "R@" ++ toString k

/-- The `ValueError`s of metric tokens and objectives, one for each message. -/
inductive MetricError where
  | requiresCut (userFacing : String)
  | unknownBase (base : List Char)
  | takesNoCut (base : List Char)
  | notAnInteger (kStr : List Char) (userFacing : String)
  | kNotAllowed (k : ℤ) (userFacing : String)
  | unexpectedBase (base : List Char)
  | kRequired (metric : Metric)
  deriving DecidableEq, Repr

/-- `repr` of a text without quotes and escapes. -/
def quoted (text : String) : String := "'" ++ text ++ "'"

/-- `str(exc)`. -/
def MetricError.text : MetricError → String
  | requiresCut userFacing => "metric " ++ quoted userFacing ++
      " requires an @<k> cut (allowed bases: ['map', 'ndcg', 'precision', 'recall'])"
  | unknownBase base => "unknown metric base " ++ quoted (String.ofList base) ++
      "; allowed: ['map', 'mrr', 'ndcg', 'precision', 'recall']"
  | takesNoCut base => "metric " ++ quoted (String.ofList base) ++
      " does not accept an @<k> cut; use plain " ++ quoted (String.ofList base)
  | notAnInteger kStr userFacing => "k value " ++ quoted (String.ofList kStr) ++ " in " ++
      quoted userFacing ++ " is not an integer"
  | kNotAllowed k userFacing => "k=" ++ toString k ++ " in " ++ quoted userFacing ++
      " is not in the allowlist [1, 3, 5, 10, 20, 50, 100]"
  | unexpectedBase base => "unexpected metric base " ++ quoted (String.ofList base)
  | kRequired metric => "objective.k is required for metric " ++ quoted (metricName metric) ++
      " (got NoneType)"

/-- `base in SUPPORTED_METRICS`, with the metric. -/
def findMetric (base : List Char) : Option Metric :=
  supportedMetrics.find? fun metric => (metricName metric).toList == base

/-- `_translate_metric_name`. -/
def translateMetricName (userFacing : String) : Except MetricError Measure :=
  if userFacing = "mrr" then .ok .rr
  else if userFacing = "map" then .ok .ap
  else if '@' ∉ userFacing.toList then .error (.requiresCut userFacing)
  else
    let base := userFacing.toList.takeWhile (· ≠ '@')
    let kStr := (userFacing.toList.dropWhile (· ≠ '@')).drop 1
    match findMetric base with
    | none => .error (.unknownBase base)
    | some .mrr => .error (.takesNoCut base)
    | some metric =>
      match Python.readInt kStr with
      | none => .error (.notAnInteger kStr userFacing)
      | some k =>
        if k ∉ supportedKValues then .error (.kNotAllowed k userFacing)
        else match metric with
          | .ndcg => .ok (.ndcgAt k)
          | .map => .ok (.apAt k)
          | .precision => .ok (.pAt k)
          | .recall => .ok (.rAt k)
          | .mrr => .error (.unexpectedBase base)

/-- `objective_metric_key`. The stored metric and cutoff are of the supported ones. -/
def objectiveMetricKey (objective : Objective) : Except MetricError String :=
  match objective.metric, objective.k with
  | .mrr, _ => .ok "mrr"
  | .map, none => .ok "map"
  | metric, some k => .ok (metricName metric ++ "@" ++ toString (cutoffValue k))
  | metric, none => .error (.kRequired metric)

/-! ## Which tokens are translated -/

/-- The tokens that name a measure: `mrr`, `map`, or another metric with a
cutoff whose text is an integer of the allowlist. -/
inductive MetricToken : String → Prop where
  | mrr : MetricToken "mrr"
  | map : MetricToken "map"
  | cut {userFacing : String} (metric : Metric) {kStr : List Char} {k : ℤ}
      (split : userFacing.toList = (metricName metric).toList ++ '@' :: kStr)
      (cutoff : metric ≠ .mrr) (number : Python.readInt kStr = some k)
      (allowed : k ∈ supportedKValues) : MetricToken userFacing

theorem at_notMem_metricName (metric : Metric) : '@' ∉ (metricName metric).toList := by
  cases metric <;> decide

theorem findMetric_metricName (metric : Metric) :
    findMetric (metricName metric).toList = some metric := by
  cases metric <;> decide

theorem eq_of_findMetric {base : List Char} {metric : Metric} (h : findMetric base = some metric) :
    base = (metricName metric).toList := by
  have hfound := List.find?_some h
  exact (beq_iff_eq.mp hfound).symm

/-- A text with an at sign is what stands before the first one, the sign and the rest. -/
theorem split_at {cs : List Char} (h : '@' ∈ cs) :
    cs = cs.takeWhile (· ≠ '@') ++ '@' :: (cs.dropWhile (· ≠ '@')).drop 1 := by
  induction cs with
  | nil => cases h
  | cons c cs ih =>
    by_cases hc : c = '@'
    · subst hc
      simp
    · have hcs : '@' ∈ cs := (List.mem_cons.mp h).resolve_left fun heq => hc heq.symm
      simpa [hc] using ih hcs

/-- The first at sign ends the base. -/
theorem takeWhile_base {base : List Char} (rest : List Char) (h : '@' ∉ base) :
    (base ++ '@' :: rest).takeWhile (· ≠ '@') = base ∧
      (base ++ '@' :: rest).dropWhile (· ≠ '@') = '@' :: rest := by
  induction base with
  | nil => simp
  | cons c base ih =>
    obtain ⟨hc, hbase⟩ : '@' ≠ c ∧ '@' ∉ base := by simpa using h
    simpa [Ne.symm hc] using ih hbase

/-- The translation accepts exactly the tokens that name a measure. -/
theorem translateMetricName_isOk_iff (userFacing : String) :
    (∃ measure, translateMetricName userFacing = .ok measure) ↔ MetricToken userFacing := by
  constructor
  · rintro ⟨measure, hok⟩
    unfold translateMetricName at hok
    split at hok
    · rename_i heq
      exact heq ▸ .mrr
    split at hok
    · rename_i heq
      exact heq ▸ .map
    split at hok
    · cases hok
    rename_i hat
    have hsplit := split_at (not_not.mp hat)
    dsimp only at hok
    split at hok
    · cases hok
    · cases hok
    rename_i metric hcut hfind
    rw [eq_of_findMetric hfind] at hsplit
    split at hok
    · cases hok
    rename_i k hnumber
    split at hok
    · cases hok
    rename_i hallowed
    exact .cut _ hsplit (fun hmrr => hcut hmrr) hnumber (not_not.mp hallowed)
  · intro htoken
    cases htoken with
    | mrr => exact ⟨.rr, rfl⟩
    | map => exact ⟨.ap, rfl⟩
    | @cut _ metric kStr k hsplit hcut hnumber hallowed =>
      have hat : '@' ∈ userFacing.toList := by simp [hsplit]
      have hmrr : userFacing ≠ "mrr" := by rintro rfl; revert hat; decide
      have hmap : userFacing ≠ "map" := by rintro rfl; revert hat; decide
      obtain ⟨htake, hdrop⟩ := takeWhile_base kStr (at_notMem_metricName metric)
      rw [← hsplit] at htake hdrop
      unfold translateMetricName
      rw [if_neg hmrr, if_neg hmap, if_neg (not_not.mpr hat)]
      simp only [htake, hdrop, List.drop_one, List.tail_cons, findMetric_metricName, hnumber,
        hallowed, not_true_eq_false, if_false]
      cases metric <;> simp at hcut ⊢

theorem readInt_cutoff (k : Cutoff) :
    Python.readInt (toString (cutoffValue k)).toList = some (cutoffValue k) := by
  cases k <;> decide

theorem cutoffValue_supported (k : Cutoff) : cutoffValue k ∈ supportedKValues := by
  cases k <;> decide

/-- The token of an objective names a measure. -/
theorem metricToken_of_objective {objective : Objective} {key : String}
    (h : objectiveMetricKey objective = .ok key) : MetricToken key := by
  obtain ⟨metric, k, direction⟩ := objective
  unfold objectiveMetricKey at h
  split at h
  · exact Except.ok.inj h ▸ .mrr
  · exact Except.ok.inj h ▸ .map
  · rename_i k' _ hcut
    rw [← Except.ok.inj h]
    exact .cut metric (by simp) hcut (readInt_cutoff k') (cutoffValue_supported k')
  · cases h

end RelyLoop.Eval
