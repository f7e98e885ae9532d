import RelyLoop.Chains.Summary
import RelyLoop.Confidence.Directions

/-!
# Chains in both directions

`select_best_link`, `derive_chain_stop_reason`, `compute_cumulative_lift` and
`evaluate_chain_gate` each treat a minimizing study in a way of their own: by
another selection, by a lift with the other sign, by the other extremum. A chain
that minimizes and the mirrored chain that maximizes are summarized alike.
-/

namespace RelyLoop.Chains

open Studies Ranking Confidence

/-! ## The lift of a chain -/

/-- `compute_cumulative_lift`. The anchor's baseline falls back on the first
decile as the baseline of the tail does. -/
def computeCumulativeLift (links : List StudyRow) (anchorTrials : Option (List Trial)) :
    Option ℚ := do
  let bestId ← selectBestLink links
  let bestLink ← links.find? fun link => link.1 == bestId
  let bestMetric ← bestLink.2.bestMetric
  let anchor ← links.head?
  let anchorBaseline ← tailBaseline anchor anchorTrials
  some (directionNormalizedLift bestMetric anchorBaseline (directionOf anchor))

/-! ## The mirrored chain -/

/-- A link in the other direction, with its metrics negated. -/
def mirrorLink (link : StudyRow) : StudyRow :=
  (link.1, { link.2 with
    objective := { link.2.objective with direction := flipped link.2.objective.direction }
    bestMetric := link.2.bestMetric.map Neg.neg
    baselineMetric := link.2.baselineMetric.map Neg.neg })

theorem flipped_involutive : Function.Involutive flipped := by
  intro direction
  cases direction <;> rfl

/-- The trials of a mirrored study. -/
def mirrorTrials (trials : List Trial) : List Trial := trials.map mirrorTrial

variable {links : List StudyRow} {anchor link best : StudyRow} {direction : Direction}

theorem mirrorLink_involutive : Function.Involutive mirrorLink := by
  rintro ⟨id, ⟨objective, _⟩⟩
  cases objective
  simp [mirrorLink, flipped_involutive _, Option.map_map]

@[simp] theorem mirrorLink_id (link : StudyRow) : (mirrorLink link).1 = link.1 := rfl

@[simp] theorem mirrorLink_status (link : StudyRow) :
    (mirrorLink link).2.status = link.2.status := rfl

@[simp] theorem mirrorLink_config (link : StudyRow) :
    (mirrorLink link).2.config = link.2.config := rfl

@[simp] theorem mirrorLink_bestMetric (link : StudyRow) :
    (mirrorLink link).2.bestMetric = link.2.bestMetric.map Neg.neg := rfl

@[simp] theorem mirrorLink_baselineMetric (link : StudyRow) :
    (mirrorLink link).2.baselineMetric = link.2.baselineMetric.map Neg.neg := rfl

@[simp] theorem directionOf_mirrorLink (link : StudyRow) :
    directionOf (mirrorLink link) = flipped (directionOf link) := rfl

@[simp] theorem creationKey_mirrorLink (link : StudyRow) :
    creationKey (mirrorLink link) = creationKey link := rfl

/-- The lift has its sign from the direction. -/
@[simp] theorem directionNormalizedLift_mirror (bestMetric baselineMetric : ℚ)
    (direction : Direction) :
    directionNormalizedLift (-bestMetric) (-baselineMetric) (flipped direction) =
      directionNormalizedLift bestMetric baselineMetric direction := by
  cases direction <;> simp only [flipped, directionNormalizedLift] <;> ring

/-- The first decile of the mirrored trials has the other extremum. -/
theorem computeFirstDecileMax_mirror (trials : List Trial) (direction : Direction) :
    computeFirstDecileMax (mirrorTrials trials) (flipped direction) =
      (computeFirstDecileMax trials direction).map Neg.neg := by
  have hsorted : (mirrorTrials trials).insertionSort numberedBefore =
      (trials.insertionSort numberedBefore).map mirrorTrial :=
    (List.map_insertionSort _ _ mirrorTrial _ fun _ _ _ _ => Iff.rfl).symm
  have hmetrics : ∀ decile : List Trial, (decile.map mirrorTrial).filterMap Trial.primaryMetric =
      (decile.filterMap Trial.primaryMetric).map Neg.neg := by
    intro decile
    rw [List.filterMap_map, List.map_filterMap]
    rfl
  simp only [computeFirstDecileMax, hsorted, List.length_map, ← List.map_take, hmetrics]
  cases direction with
  | maximize => exact min?_map_neg _
  | minimize => exact max?_map_neg _

theorem tailBaseline_mirror (tail : StudyRow) (anchorTrials : Option (List Trial)) :
    tailBaseline (mirrorLink tail) (anchorTrials.map mirrorTrials) =
      (tailBaseline tail anchorTrials).map Neg.neg := by
  simp only [tailBaseline, mirrorLink_baselineMetric, directionOf_mirrorLink]
  cases tail.2.baselineMetric with
  | some baselineMetric => rfl
  | none =>
    cases anchorTrials with
    | none => rfl
    | some trials =>
      have hempty : mirrorTrials trials = [] ↔ trials = [] := List.map_eq_nil_iff
      simp only [Option.map_none, Option.map_some, hempty, computeFirstDecileMax_mirror]
      split <;> rfl

/-! ## The stop reason and the gate -/

theorem tailStopReason_mirror (tail : StudyRow) (anchorTrials : Option (List Trial)) :
    tailStopReason (mirrorLink tail) (anchorTrials.map mirrorTrials) =
      tailStopReason tail anchorTrials := by
  simp only [tailStopReason, mirrorLink_status, mirrorLink_config, mirrorLink_bestMetric,
    tailBaseline_mirror, directionOf_mirrorLink]
  cases tail.2.bestMetric with
  | none => rfl
  | some bestMetric =>
    cases tailBaseline tail anchorTrials with
    | none => rfl
    | some baseline => simp only [Option.map_some, directionNormalizedLift_mirror]

theorem deriveChainStopReason_mirror (links : List StudyRow)
    (anchorTrials : Option (List Trial)) :
    deriveChainStopReason (links.map mirrorLink) (anchorTrials.map mirrorTrials) =
      deriveChainStopReason links anchorTrials := by
  have hinFlight : ((links.map mirrorLink).any fun link => inFlight link.2) =
      links.any fun link => inFlight link.2 := List.any_map
  simp only [deriveChainStopReason, hinFlight, List.getLast?_map, Option.map_map,
    Function.comp_def, tailStopReason_mirror]

/-- The gate decides alike, with any margin. -/
theorem evaluateChainGate_mirror (link : StudyRow) (trials : List Trial) (epsilon : ℚ) :
    (evaluateChainGate (mirrorLink link).2 (mirrorTrials trials) epsilon
        (directionOf (mirrorLink link))).decision =
      (evaluateChainGate link.2 trials epsilon (directionOf link)).decision := by
  simp only [evaluateChainGate, mirrorLink_status, mirrorLink_config, mirrorLink_bestMetric,
    mirrorLink_baselineMetric, directionOf_mirrorLink, computeFirstDecileMax_mirror]
  split
  · rfl
  · split
    · rfl
    · cases link.2.bestMetric with
      | none => rfl
      | some bestMetric =>
        cases link.2.baselineMetric with
        | some baselineMetric => simp only [Option.map_some, directionNormalizedLift_mirror]
        | none =>
          cases computeFirstDecileMax trials (directionOf link) with
          | none => rfl
          | some firstDecileMax =>
            simp only [Option.map_some, Option.map_none, directionNormalizedLift_mirror,
              gateOnLift]

/-! ## The best link -/

theorem completedLinks_mirror (links : List StudyRow) :
    completedLinks (links.map mirrorLink) = (completedLinks links).map mirrorLink := by
  simp [completedLinks, List.filter_map, Function.comp_def]

/-- A smaller metric comes first where a larger one did. -/
theorem outranks_mirror {x y : StudyRow} :
    Outranks (flipped direction) (mirrorLink x) (mirrorLink y) ↔ Outranks direction x y := by
  unfold Outranks
  simp only [mirrorLink_bestMetric, creationKey_mirrorLink, Option.map_eq_some_iff]
  constructor
  · rintro ⟨_, _, ⟨mx, hmx, rfl⟩, ⟨my, hmy, rfl⟩, h⟩
    refine ⟨mx, my, hmx, hmy, ?_⟩
    cases direction <;> simp_all [flipped, Prod.Lex.toLex_le_toLex, eq_comm]
  · rintro ⟨mx, my, hmx, hmy, h⟩
    refine ⟨-mx, -my, ⟨mx, hmx, rfl⟩, ⟨my, hmy, rfl⟩, ?_⟩
    cases direction <;> simp_all [flipped, Prod.Lex.toLex_le_toLex, eq_comm]

/-- The best link of the mirrored chain is the mirrored best link. -/
theorem isBest_mirror :
    IsBest (flipped direction) (links.map mirrorLink) (mirrorLink best) ↔
      IsBest direction links best := by
  unfold IsBest
  rw [completedLinks_mirror]
  constructor
  · rintro ⟨hmem, hbest⟩
    obtain ⟨link, hlink, hsame⟩ := List.mem_map.mp hmem
    obtain rfl := mirrorLink_involutive.injective hsame
    constructor
    · exact hlink
    · intro other hother
      exact outranks_mirror.mp (hbest (mirrorLink other) (List.mem_map_of_mem hother))
  · rintro ⟨hmem, hbest⟩
    constructor
    · exact List.mem_map_of_mem hmem
    · intro other hother
      obtain ⟨link, hlink, rfl⟩ := List.mem_map.mp hother
      exact outranks_mirror.mpr (hbest link hlink)

theorem selectBestLink_mirror (links : List StudyRow) :
    selectBestLink (links.map mirrorLink) = selectBestLink links := by
  cases links with
  | nil => rfl
  | cons anchor rest =>
    ext bestId
    rw [selectBestLink_eq_some_iff, List.map_cons, selectBestLink_eq_some_iff]
    constructor
    · rintro ⟨mirrored, hbest, hid⟩
      have hmem := hbest.1
      rw [← List.map_cons, completedLinks_mirror] at hmem
      obtain ⟨best, -, rfl⟩ := List.mem_map.mp hmem
      exact ⟨best, isBest_mirror.mp hbest, hid⟩
    · rintro ⟨best, hbest, hid⟩
      exact ⟨mirrorLink best, isBest_mirror.mpr hbest, hid⟩

theorem computeCumulativeLift_mirror (links : List StudyRow)
    (anchorTrials : Option (List Trial)) :
    computeCumulativeLift (links.map mirrorLink) (anchorTrials.map mirrorTrials) =
      computeCumulativeLift links anchorTrials := by
  have hfind : ∀ bestId, (links.map mirrorLink).find? (fun link => link.1 == bestId) =
      (links.find? fun link => link.1 == bestId).map mirrorLink := fun _ => List.find?_map
  simp only [computeCumulativeLift, selectBestLink_mirror, hfind, List.head?_map,
    Option.bind_eq_bind, Option.bind_map, Function.comp_def, mirrorLink_bestMetric,
    tailBaseline_mirror, directionOf_mirrorLink, directionNormalizedLift_mirror]

/-! ## The best of the lifts -/

/-- A better metric has a greater lift over the same baseline. -/
theorem Outranks.lift_le {x y : StudyRow} {mx my : ℚ} (h : Outranks direction x y)
    (hx : x.2.bestMetric = some mx) (hy : y.2.bestMetric = some my) (baseline : ℚ) :
    directionNormalizedLift my baseline direction ≤
      directionNormalizedLift mx baseline direction := by
  obtain ⟨mx', my', hmx, hmy, hle⟩ := h
  obtain rfl : mx' = mx := Option.some.inj (hmx.symm.trans hx)
  obtain rfl : my' = my := Option.some.inj (hmy.symm.trans hy)
  cases direction with
  | minimize =>
    simp only [Prod.Lex.toLex_le_toLex] at hle
    simp only [directionNormalizedLift]
    rcases hle with hlt | ⟨heq, -⟩ <;> linarith
  | maximize =>
    simp only [directionNormalizedLift]
    rcases hle with hlt | ⟨heq, -⟩ <;> linarith

/-- The lift of a chain is the one of its best link, which is found by its id. -/
theorem computeCumulativeLift_spec {anchorTrials : Option (List Trial)} {lift : ℚ}
    (hids : (links.map Prod.fst).Nodup) (h : computeCumulativeLift links anchorTrials = some lift) :
    ∃ anchor best bestMetric baseline, links.head? = some anchor ∧
      IsBest (directionOf anchor) links best ∧ best.2.bestMetric = some bestMetric ∧
      tailBaseline anchor anchorTrials = some baseline ∧
      lift = directionNormalizedLift bestMetric baseline (directionOf anchor) := by
  simp only [computeCumulativeLift, Option.bind_eq_bind, Option.bind_eq_some_iff,
    Option.some.injEq] at h
  obtain ⟨bestId, hselect, found, hfound, bestMetric, hmetric, anchor, hanchor, baseline,
    hbaseline, hlift⟩ := h
  obtain ⟨rest, rfl⟩ := List.head?_eq_some_iff.mp hanchor
  obtain ⟨best, hbest, hid⟩ := selectBestLink_eq_some_iff.mp hselect
  have hfoundId : found.1 = bestId := by simpa using List.find?_some hfound
  obtain rfl : found = best :=
    List.inj_on_of_nodup_map hids (List.mem_of_find?_eq_some hfound)
      (mem_completedLinks.mp hbest.1).1 (hfoundId.trans hid.symm)
  exact ⟨anchor, found, bestMetric, baseline, hanchor, hbest, hmetric, hbaseline, hlift.symm⟩

/-- A chain is summarized as its mirror is, and its lift is the greatest one of its links. -/
theorem chain_respects_direction (links : List StudyRow) (anchorTrials : Option (List Trial)) :
    selectBestLink (links.map mirrorLink) = selectBestLink links ∧
      deriveChainStopReason (links.map mirrorLink) (anchorTrials.map mirrorTrials) =
        deriveChainStopReason links anchorTrials ∧
      computeCumulativeLift (links.map mirrorLink) (anchorTrials.map mirrorTrials) =
        computeCumulativeLift links anchorTrials ∧
      (∀ link trials epsilon,
        (evaluateChainGate (mirrorLink link).2 (mirrorTrials trials) epsilon
            (directionOf (mirrorLink link))).decision =
          (evaluateChainGate link.2 trials epsilon (directionOf link)).decision) ∧
      ((links.map Prod.fst).Nodup → ∀ lift, computeCumulativeLift links anchorTrials = some lift →
        ∃ anchor baseline, links.head? = some anchor ∧
          tailBaseline anchor anchorTrials = some baseline ∧
          ∀ link ∈ links, link.2.status = .completed → ∀ metric, link.2.bestMetric = some metric →
            directionNormalizedLift metric baseline (directionOf anchor) ≤ lift) := by
  refine ⟨selectBestLink_mirror links, deriveChainStopReason_mirror links anchorTrials,
    computeCumulativeLift_mirror links anchorTrials, evaluateChainGate_mirror, ?_⟩
  intro hids lift hlift
  obtain ⟨anchor, best, bestMetric, baseline, hanchor, hbest, hmetric, hbaseline, rfl⟩ :=
    computeCumulativeLift_spec hids hlift
  refine ⟨anchor, baseline, hanchor, hbaseline, ?_⟩
  intro link hlink hstatus metric hlinkMetric
  have hcompleted := mem_completedLinks.mpr ⟨hlink, hstatus, metric, hlinkMetric⟩
  exact (hbest.2 link hcompleted).lift_le hmetric hlinkMetric baseline

/-- A maximizing root with a baseline, and its follow-up. -/
def measuredLinks : List StudyRow :=
  [(7, completedParent .maximize (1 / 2) (some (2 / 5))), followupLink none]

/-- The follow-up has the lift of that chain. -/
theorem chain_respects_direction_measuredLinks :
    computeCumulativeLift measuredLinks none = some (1 / 5) ∧
      ∃ anchor baseline, measuredLinks.head? = some anchor ∧
        tailBaseline anchor none = some baseline ∧
        ∀ link ∈ measuredLinks, link.2.status = .completed →
          ∀ metric, link.2.bestMetric = some metric →
            directionNormalizedLift metric baseline (directionOf anchor) ≤ 1 / 5 := by
  have hlift : computeCumulativeLift measuredLinks none = some (1 / 5) := by decide +kernel
  have hids : (measuredLinks.map Prod.fst).Nodup := by
    change [7, 8].Nodup
    decide
  obtain ⟨-, -, -, -, hgreatest⟩ := chain_respects_direction measuredLinks none
  exact ⟨hlift, hgreatest hids (1 / 5) hlift⟩

end RelyLoop.Chains
