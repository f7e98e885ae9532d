import Mathlib.Algebra.BigOperators.Group.List.Lemmas
import Mathlib.Algebra.Order.Field.Rat
import RelyLoop.Python.Dict

/-!
# Features of a query and a document

The aggregation of raw UBI events into one feature vector per pair of a UBI
query execution and a document, with the position-bias correction. Weights and
rates are rationals. The vector of a list of events is determined by counts and
sums, so it does not depend on their order.
-/

namespace RelyLoop.Ubi

/-- What an event records. Other types are accepted and ignored. -/
inductive EventType where
  | click
  | impression
  | dwell
  | conversion
  | refinement
  | other
  deriving DecidableEq, Repr

/-- One event: `queryId` is the plugin's id of a query execution. -/
structure UbiEvent where
  queryId : String
  docId : String
  eventType : EventType
  position : Option ℤ := none
  dwellSeconds : Option ℚ := none
  deriving DecidableEq, Repr

/-- The features of a pair. -/
structure FeatureVec where
  clickCount : ℕ
  impressionCount : ℕ
  correctedCtr : ℚ
  dwellMeanSeconds : Option ℚ
  conversionRate : Option ℚ
  refinementRate : Option ℚ
  deriving DecidableEq, Repr

/-- The weights of the ranks; ranks without a weight count as `1`. -/
abbrev PositionBiasPrior := Python.Dict ℤ ℚ

/-- `prior.get(event.position or 1, 1.0)`. -/
def impressionWeight (prior : PositionBiasPrior) (position : Option ℤ) : ℚ :=
  let rank := match position with
    | none => 1
    | some 0 => 1
    | some rank => rank
  (prior.get? rank).getD 1

/-- The running totals of the aggregation loop. -/
structure Tally where
  clicks : ℕ := 0
  impressionWeightedSum : ℚ := 0
  rawImpressions : ℕ := 0
  dwellValues : List ℚ := []
  conversions : ℕ := 0
  refinements : ℕ := 0

/-- One event in the aggregation loop. -/
def Tally.add (prior : PositionBiasPrior) (t : Tally) (event : UbiEvent) : Tally :=
  match event.eventType with
  | .click => { t with clicks := t.clicks + 1 }
  | .impression =>
    { t with
      rawImpressions := t.rawImpressions + 1
      impressionWeightedSum := t.impressionWeightedSum + impressionWeight prior event.position }
  | .dwell =>
    match event.dwellSeconds with
    | some seconds => { t with dwellValues := t.dwellValues ++ [seconds] }
    | none => t
  | .conversion => { t with conversions := t.conversions + 1 }
  | .refinement => { t with refinements := t.refinements + 1 }
  | .other => t

/-- The vector of the final totals. -/
def Tally.featureVec (t : Tally) : FeatureVec where
  clickCount := t.clicks
  impressionCount := t.rawImpressions
  correctedCtr :=
    if 0 < t.impressionWeightedSum then min (t.clicks / t.impressionWeightedSum) 1 else 0
  dwellMeanSeconds :=
    if t.dwellValues = [] then none else some (t.dwellValues.sum / t.dwellValues.length)
  conversionRate := if 0 < t.clicks then some (t.conversions / t.clicks) else none
  refinementRate := if 0 < t.rawImpressions then some (t.refinements / t.rawImpressions) else none

/-- The vector of the events of one pair. -/
def aggregatePair (prior : PositionBiasPrior) (events : List UbiEvent) : FeatureVec :=
  (events.foldl (Tally.add prior) {}).featureVec

/-- `aggregate_features`. -/
def aggregateFeatures (eventsByPair : Python.Dict (String × String) (List UbiEvent))
    (positionBiasPrior : PositionBiasPrior) : Python.Dict (String × String) FeatureVec :=
  eventsByPair.mapValues (aggregatePair positionBiasPrior)

/-! ## The totals -/

/-- The number of events of a type. -/
def countType (type : EventType) (events : List UbiEvent) : ℕ :=
  events.countP fun event => event.eventType = type

/-- The weights of the impressions. -/
def impressionWeights (prior : PositionBiasPrior) (events : List UbiEvent) : List ℚ :=
  (events.filter fun event => event.eventType = .impression).map fun event =>
    impressionWeight prior event.position

/-- The recorded dwell times. -/
def dwellTimes (events : List UbiEvent) : List ℚ :=
  (events.filter fun event => event.eventType = .dwell).filterMap UbiEvent.dwellSeconds

theorem countType_cons (type : EventType) (event : UbiEvent) (events : List UbiEvent) :
    countType type (event :: events) =
      (if event.eventType = type then 1 else 0) + countType type events := by
  simp [countType, List.countP_cons, add_comm]

theorem impressionWeights_cons (prior : PositionBiasPrior) (event : UbiEvent)
    (events : List UbiEvent) :
    impressionWeights prior (event :: events) =
      if event.eventType = .impression then
        impressionWeight prior event.position :: impressionWeights prior events
      else impressionWeights prior events := by
  by_cases htype : event.eventType = .impression <;> simp [impressionWeights, htype]

theorem dwellTimes_cons (event : UbiEvent) (events : List UbiEvent) :
    dwellTimes (event :: events) =
      (if event.eventType = .dwell then event.dwellSeconds.toList else []) ++
        dwellTimes events := by
  by_cases htype : event.eventType = .dwell
  · cases hseconds : event.dwellSeconds <;> simp [dwellTimes, htype, hseconds]
  · simp [dwellTimes, htype]

/-- What the aggregation loop computes. -/
theorem foldl_add (prior : PositionBiasPrior) (events : List UbiEvent) (t : Tally) :
    events.foldl (Tally.add prior) t =
      { clicks := t.clicks + countType .click events
        impressionWeightedSum := t.impressionWeightedSum + (impressionWeights prior events).sum
        rawImpressions := t.rawImpressions + countType .impression events
        dwellValues := t.dwellValues ++ dwellTimes events
        conversions := t.conversions + countType .conversion events
        refinements := t.refinements + countType .refinement events } := by
  induction events generalizing t with
  | nil => simp [countType, impressionWeights, dwellTimes]
  | cons event events ih =>
    rw [List.foldl_cons, ih]
    simp only [countType_cons, impressionWeights_cons, dwellTimes_cons, Tally.add]
    cases htype : event.eventType with
    | click => simp [Nat.add_assoc]
    | impression => simp [add_assoc]
    | conversion => simp [Nat.add_assoc]
    | refinement => simp [Nat.add_assoc]
    | other => simp
    | dwell => cases hseconds : event.dwellSeconds <;> simp

@[simp] theorem aggregatePair_clickCount (prior : PositionBiasPrior) (events : List UbiEvent) :
    (aggregatePair prior events).clickCount = countType .click events := by
  simp [aggregatePair, foldl_add, Tally.featureVec]

@[simp] theorem aggregatePair_impressionCount (prior : PositionBiasPrior)
    (events : List UbiEvent) :
    (aggregatePair prior events).impressionCount = countType .impression events := by
  simp [aggregatePair, foldl_add, Tally.featureVec]

/-- The vector does not depend on the order of the events. -/
theorem aggregatePair_perm (prior : PositionBiasPrior) {events events' : List UbiEvent}
    (h : events.Perm events') : aggregatePair prior events = aggregatePair prior events' := by
  have hcount : ∀ type, countType type events = countType type events' :=
    fun type => h.countP_eq _
  have hweights : (impressionWeights prior events).sum = (impressionWeights prior events').sum :=
    ((h.filter _).map _).sum_eq
  have hdwell : (dwellTimes events).Perm (dwellTimes events') := (h.filter _).filterMap _
  have hnil : dwellTimes events = [] ↔ dwellTimes events' = [] := by
    rw [← List.length_eq_zero_iff, ← List.length_eq_zero_iff, hdwell.length_eq]
  simp only [aggregatePair, foldl_add, Tally.featureVec, hcount, hweights, List.nil_append,
    hdwell.sum_eq, hdwell.length_eq, hnil]

/-- A count is the sum of the counts of the parts of a partition by a key. -/
theorem countType_eq_sum {κ : Type} [DecidableEq κ] (type : EventType) (key : UbiEvent → κ)
    {keys : List κ} (hnodup : keys.Nodup) {events : List UbiEvent}
    (hkeys : ∀ event ∈ events, key event ∈ keys) :
    countType type events =
      (keys.map fun k => countType type (events.filter fun event => key event = k)).sum := by
  induction events with
  | nil => simp [countType]
  | cons event events ih =>
    have hrest := ih fun e he => hkeys e (List.mem_cons_of_mem _ he)
    have hsplit : ∀ k, countType type ((event :: events).filter fun e => key e = k) =
        (if k = key event then if event.eventType = type then 1 else 0 else 0) +
          countType type (events.filter fun e => key e = k) := by
      intro k
      by_cases hk : key event = k
      · rw [List.filter_cons_of_pos (by simpa using hk), countType_cons, if_pos hk.symm]
      · rw [List.filter_cons_of_neg (by simpa using hk), if_neg (Ne.symm hk), zero_add]
    have hone : keys.count (key event) = 1 :=
      List.count_eq_one_of_mem hnodup (hkeys event List.mem_cons_self)
    simp only [hsplit, List.sum_map_add, ← hrest]
    rw [List.sum_map_eq_nsmul_single (key event) _ fun k hk _ => if_neg hk, hone, one_nsmul,
      if_pos rfl, countType_cons]

end RelyLoop.Ubi
