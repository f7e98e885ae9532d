import RelyLoop.Chains.Walk
import RelyLoop.Studies.StudyState
import RelyLoop.Studies.ChainGate

/-!
# The summary of a chain

`derive_chain_stop_reason` tells why a chain ended, from its last link and the
trials of its anchor; `select_best_link` picks the best completed link. The
follow-up worker decides with `evaluate_chain_gate` on the tail of the chain and
the tail's own trials.
-/

namespace RelyLoop.Chains

open Studies

/-- `CHAIN_LIFT_EPSILON`. -/
def chainLiftEpsilon : ℚ := autoFollowupLiftEpsilon

/-- `CHAIN_STOP_REASONS`. -/
inductive ChainStopReason where
  | depthExhausted
  | noLift
  | budget
  | parentFailed
  | cancelled
  | inFlight
  deriving DecidableEq, Repr

/-- `_direction_of`. -/
def directionOf (link : StudyRow) : Direction := link.2.objective.direction

/-- `_tail_baseline`. -/
def tailBaseline (tail : StudyRow) (anchorTrials : Option (List Trial)) : Option ℚ :=
  match tail.2.baselineMetric with
  | some baselineMetric => some baselineMetric
  | none =>
    match anchorTrials with
    | none => none
    | some trials =>
      if trials = [] then none else computeFirstDecileMax trials (directionOf tail)

/-- Conditions 2 to 8 of `derive_chain_stop_reason`, on the last link. -/
def tailStopReason (tail : StudyRow) (anchorTrials : Option (List Trial)) : ChainStopReason :=
  if tail.2.status = .cancelled then .cancelled
  else if tail.2.status = .failed then .parentFailed
  else if tail.2.status ≠ .completed then .depthExhausted
  else if tail.2.config.autoFollowupDepth.getD 0 = 0 then .depthExhausted
  else match tail.2.bestMetric with
    | none => .noLift
    | some bestMetric =>
      match tailBaseline tail anchorTrials with
      | none => .noLift
      | some baseline =>
        if directionNormalizedLift bestMetric baseline (directionOf tail) ≤ chainLiftEpsilon then
          .noLift
        else .budget

/-- `derive_chain_stop_reason`; the empty list raises an `IndexError`. -/
def deriveChainStopReason (links : List StudyRow) (anchorTrials : Option (List Trial)) :
    Option ChainStopReason :=
  if links.any fun link => inFlight link.2 then some .inFlight
  else links.getLast?.map fun tail => tailStopReason tail anchorTrials

/-- The completed links that have a metric. -/
def completedLinks (links : List StudyRow) : List StudyRow :=
  links.filter fun link => link.2.status == .completed && link.2.bestMetric.isSome

/-- The best of the completed links, in a direction. -/
def bestOfCompleted (direction : Direction) (completed : List StudyRow) : Option StudyRow :=
  match direction with
  | .minimize =>
    completed.argmin fun link => toLex (link.2.bestMetric.getD 0, creationKey link)
  | .maximize =>
    let maxMetric := (completed.filterMap fun link => link.2.bestMetric).max?
    (completed.filter fun link => link.2.bestMetric == maxMetric).argmin creationKey

/-- `select_best_link`. -/
def selectBestLink (links : List StudyRow) : Option ℕ :=
  match links with
  | [] => none
  | anchor :: _ => (bestOfCompleted (directionOf anchor) (completedLinks links)).map Prod.fst

/-- The stop reason of a study's chain. -/
def chainStopReason (db : Tables) (studyId : ℕ) : Option ChainStopReason :=
  (getChainForStudy db studyId).bind fun traversal =>
    deriveChainStopReason traversal.links traversal.anchorTrials

/-- `evaluate_chain_gate` on a study, in its direction and with its own complete trials. -/
def gateOf (db : Tables) (tail : StudyRow) : ChainGateDecision :=
  (evaluateChainGate tail.2 (completeTrialsOf db.trials tail.1) autoFollowupLiftEpsilon
    (directionOf tail)).decision

theorem tailStopReason_ne_inFlight (tail : StudyRow) (anchorTrials : Option (List Trial)) :
    tailStopReason tail anchorTrials ≠ .inFlight := by
  unfold tailStopReason
  repeat' split
  all_goals simp

/-- A chain is in flight when one of its links is. -/
theorem deriveChainStopReason_eq_inFlight {links : List StudyRow}
    {anchorTrials : Option (List Trial)} :
    deriveChainStopReason links anchorTrials = some .inFlight ↔
      (links.any fun link => inFlight link.2) = true := by
  rw [deriveChainStopReason]
  split
  case isTrue h => simp [h]
  case isFalse h =>
    simp only [Option.map_eq_some_iff, h, iff_false, Bool.false_eq_true]
    rintro ⟨tail, _, htail⟩
    exact tailStopReason_ne_inFlight tail anchorTrials htail

/-! ## The best link -/

/-- A link at `x` comes before one at `y`: its metric is better, or the same and it is older. -/
def Outranks (direction : Direction) (x y : StudyRow) : Prop :=
  ∃ mx my, x.2.bestMetric = some mx ∧ y.2.bestMetric = some my ∧
    match direction with
    | .minimize => toLex (mx, creationKey x) ≤ toLex (my, creationKey y)
    | .maximize => my < mx ∨ my = mx ∧ creationKey x ≤ creationKey y

/-- `best` is completed with a metric and comes before all such links. -/
def IsBest (direction : Direction) (links : List StudyRow) (best : StudyRow) : Prop :=
  best ∈ completedLinks links ∧ ∀ link ∈ completedLinks links, Outranks direction best link

variable {direction : Direction} {links : List StudyRow} {link best : StudyRow}

@[simp] theorem mem_completedLinks : link ∈ completedLinks links ↔
    link ∈ links ∧ link.2.status = .completed ∧ ∃ metric, link.2.bestMetric = some metric := by
  simp [completedLinks, Option.isSome_iff_exists]

theorem creationKey_injective {x y : StudyRow} (h : creationKey x = creationKey y) : x.1 = y.1 :=
  congrArg (fun key => (ofLex key).2) h

/-- Two links that come before each other have one id. -/
theorem Outranks.antisymm {x y : StudyRow} (hxy : Outranks direction x y)
    (hyx : Outranks direction y x) : x.1 = y.1 := by
  obtain ⟨mx, my, hmx, hmy, hle⟩ := hxy
  obtain ⟨my', mx', hmy', hmx', hge⟩ := hyx
  obtain rfl : mx' = mx := Option.some.inj (hmx'.symm.trans hmx)
  obtain rfl : my' = my := Option.some.inj (hmy'.symm.trans hmy)
  cases direction with
  | minimize =>
    have hkeys := congrArg (fun key => (ofLex key).2) (le_antisymm hle hge)
    exact creationKey_injective hkeys
  | maximize =>
    rcases hle with hlt | ⟨heq, hle⟩ <;> rcases hge with hgt | ⟨heq', hge⟩
    · exact absurd hgt hlt.asymm
    · exact absurd heq' hlt.ne'
    · exact absurd heq hgt.ne'
    · exact creationKey_injective (le_antisymm hle hge)

/-- The selection among completed links finds the best one. -/
theorem bestOfCompleted_spec (h : bestOfCompleted direction (completedLinks links) = some best) :
    IsBest direction links best := by
  cases direction with
  | minimize =>
    have hmem := List.argmin_mem h
    obtain ⟨-, -, metric, hmetric⟩ := mem_completedLinks.mp hmem
    refine ⟨hmem, fun link hlink => ?_⟩
    obtain ⟨-, -, other, hother⟩ := mem_completedLinks.mp hlink
    have hle := List.le_of_mem_argmin hlink h
    rw [hmetric, hother] at hle
    exact ⟨metric, other, hmetric, hother, hle⟩
  | maximize =>
    obtain ⟨hmem, htied⟩ := List.mem_filter.mp (List.argmin_mem h)
    obtain ⟨-, -, metric, hmetric⟩ := mem_completedLinks.mp hmem
    rw [beq_iff_eq, hmetric] at htied
    obtain ⟨-, hmax⟩ := List.max?_eq_some_iff.mp htied.symm
    refine ⟨hmem, fun link hlink => ?_⟩
    obtain ⟨-, -, other, hother⟩ := mem_completedLinks.mp hlink
    have hle : other ≤ metric := hmax other (List.mem_filterMap.mpr ⟨link, hlink, hother⟩)
    refine ⟨metric, other, hmetric, hother, ?_⟩
    rcases hle.lt_or_eq with hlt | heq
    · exact Or.inl hlt
    · have hlink' : link ∈ (completedLinks links).filter fun link =>
          link.2.bestMetric == ((completedLinks links).filterMap fun link =>
            link.2.bestMetric).max? := by
        rw [List.mem_filter, beq_iff_eq, hother, heq]
        exact ⟨hlink, htied⟩
      exact Or.inr ⟨heq, List.le_of_mem_argmin hlink' h⟩

/-- There is a best link as soon as one link is completed with a metric. -/
theorem exists_bestOfCompleted (h : link ∈ completedLinks links) :
    ∃ best, bestOfCompleted direction (completedLinks links) = some best := by
  rw [← Option.isSome_iff_exists, ← Option.ne_none_iff_isSome]
  cases direction with
  | minimize => exact fun hnone => List.ne_nil_of_mem h (List.argmin_eq_none.mp hnone)
  | maximize =>
    intro hnone
    obtain ⟨-, -, metric, hmetric⟩ := mem_completedLinks.mp h
    have hmem : metric ∈ (completedLinks links).filterMap fun link => link.2.bestMetric :=
      List.mem_filterMap.mpr ⟨link, h, hmetric⟩
    obtain ⟨maxMetric, hmax⟩ : ∃ maxMetric,
        ((completedLinks links).filterMap fun link => link.2.bestMetric).max? = some maxMetric := by
      rw [← Option.isSome_iff_exists, ← Option.ne_none_iff_isSome, Ne, List.max?_eq_none_iff]
      exact List.ne_nil_of_mem hmem
    obtain ⟨top, htop, htopMetric⟩ :=
      List.mem_filterMap.mp (List.max?_eq_some_iff.mp hmax).1
    refine List.ne_nil_of_mem (List.mem_filter.mpr ⟨htop, ?_⟩) (List.argmin_eq_none.mp hnone)
    rw [beq_iff_eq, htopMetric, hmax]

/-- `select_best_link` returns the id of the best link, in the direction of the anchor. -/
theorem selectBestLink_eq_some_iff {anchor : StudyRow} {rest : List StudyRow} {bestId : ℕ} :
    selectBestLink (anchor :: rest) = some bestId ↔
      ∃ best, IsBest (directionOf anchor) (anchor :: rest) best ∧ best.1 = bestId := by
  unfold selectBestLink
  rw [Option.map_eq_some_iff]
  constructor
  · rintro ⟨best, hbest, hid⟩
    exact ⟨best, bestOfCompleted_spec hbest, hid⟩
  · rintro ⟨best, hbest, rfl⟩
    obtain ⟨found, hfound⟩ : ∃ found, bestOfCompleted (directionOf anchor)
        (completedLinks (anchor :: rest)) = some found := exists_bestOfCompleted hbest.1
    have hspec := bestOfCompleted_spec hfound
    exact ⟨found, hfound, (hspec.2 best hbest.1).antisymm (hbest.2 found hspec.1)⟩

/-- The root of a chain of two maximizing studies: it went up to 1/2. -/
def rootLink : StudyRow := (7, completedParent .maximize (1 / 2) none)

/-- Its follow-up, which went up to 3/5, with or without a baseline. -/
def followupLink (baseline : Option ℚ) : StudyRow :=
  (8, { completedParent .maximize (3 / 5) baseline with parentStudyId := some 7, createdAt := 1 })

theorem linearChain_rootLink (baseline : Option ℚ) :
    LinearChain [rootLink, followupLink baseline] [7, 8] := by
  have hroot : LinearChain [rootLink] [7] := linearChain_single rfl
  have hfresh : (followupLink baseline).1 ∉ [rootLink].map Prod.fst := by
    change 8 ∉ [7]
    decide
  exact hroot.snoc rfl hfresh (by simp [rootLink, completedParent]) rfl

end RelyLoop.Chains
