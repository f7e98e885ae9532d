import RelyLoop.Chains.Summary

/-!
# The stop reason and the chain gate

The summary of a chain that has ended and the gate of the follow-up worker
judge the same end of a chain from different inputs: the summary takes the
latest link that the walk returned and the trials of the oldest one, the gate
takes the tail and its own trials. They agree when these inputs lead to the same
verdict.
-/

namespace RelyLoop.Chains

open Studies

/-- How a chain ends at a link. -/
inductive Verdict where
  | cancelled
  | failed
  | exhausted
  | noLift
  | goesOn
  deriving DecidableEq, Repr

/-- The verdict as a stop reason. -/
def Verdict.reason : Verdict → ChainStopReason
  | cancelled => .cancelled
  | failed => .parentFailed
  | exhausted => .depthExhausted
  | noLift => .noLift
  | goesOn => .budget

/-- The verdict as a decision of the gate. -/
def Verdict.decision : Verdict → ChainGateDecision
  | cancelled => .skipParentFailed
  | failed => .skipParentFailed
  | exhausted => .skipDepthExhausted
  | noLift => .skipNoLift
  | goesOn => .enqueue

/-- The study has follow-up depth left. -/
def HasDepth (study : Study) : Prop := study.config.autoFollowupDepth.getD 0 ≠ 0

/-- The study's best metric improves, in its direction, on a reference. -/
def Lifts (study : Study) (reference : Option ℚ) : Prop :=
  ∃ best, study.bestMetric = some best ∧ ImprovesOn study.objective.direction best reference

/-- The verdict on a study that has ended, for a reference of its best metric. -/
inductive Ended (study : Study) (reference : Option ℚ) : Verdict → Prop
  | cancelled (hstatus : study.status = .cancelled) : Ended study reference .cancelled
  | failed (hstatus : study.status = .failed) : Ended study reference .failed
  | exhausted (hstatus : study.status = .completed) (hdepth : ¬ HasDepth study) :
    Ended study reference .exhausted
  | noLift (hstatus : study.status = .completed) (hdepth : HasDepth study)
    (hlift : ¬ Lifts study reference) : Ended study reference .noLift
  | goesOn (hstatus : study.status = .completed) (hdepth : HasDepth study)
    (hlift : Lifts study reference) : Ended study reference .goesOn

/-- The reference of the summary: the latest link's baseline, else the first
decile of the oldest link's trials when that link has no baseline. -/
def summaryReference (trials : List Trial) (oldest latest : StudyRow) : Option ℚ :=
  latest.2.baselineMetric.or
    (if oldest.2.baselineMetric.isNone then
      computeFirstDecileMax (completeTrialsOf trials oldest.1) (directionOf latest)
    else none)

/-- The reference of the gate: the tail's baseline, else the first decile of its own trials. -/
def gateReference (trials : List Trial) (tail : StudyRow) : Option ℚ :=
  tail.2.baselineMetric.or
    (computeFirstDecileMax (completeTrialsOf trials tail.1) (directionOf tail))

/-- The reason, the decision of the gate and the tail's status say the same. -/
structure Matches (reason : ChainStopReason) (decision : ChainGateDecision)
    (status : StudyStatus) : Prop where
  noLift : reason = .noLift ↔ decision = .skipNoLift
  depthExhausted : reason = .depthExhausted ↔ decision = .skipDepthExhausted
  parentFailed : reason = .parentFailed ↔ status = .failed
  cancelled : reason = .cancelled ↔ status = .cancelled
  budget : reason = .budget → decision = .enqueue

/-- The stop reason of the chain of a study matches the gate on the chain's tail. -/
def StopReasonAgrees (db : Tables) (studyId : ℕ) (tail : StudyRow) : Prop :=
  ∃ reason, chainStopReason db studyId = some reason ∧
    Matches reason (gateOf db tail) tail.2.status

/-- The oldest of the rows with the given ids. -/
def OldestOf (studies : List StudyRow) (ids : List ℕ) (row : StudyRow) : Prop :=
  (row ∈ studies ∧ row.1 ∈ ids) ∧
    ∀ other ∈ studies, other.1 ∈ ids → creationKey row ≤ creationKey other

/-- The latest of the rows with the given ids. -/
def LatestOf (studies : List StudyRow) (ids : List ℕ) (row : StudyRow) : Prop :=
  (row ∈ studies ∧ row.1 ∈ ids) ∧
    ∀ other ∈ studies, other.1 ∈ ids → creationKey other ≤ creationKey row

/-- The latest walked link ends like the tail does: with its status, and, when
completed, with depth left like the tail and with a lift over the summary's
reference like the tail over the gate's. -/
structure EndsLike (trials : List Trial) (oldest latest tail : StudyRow) : Prop where
  status : latest.2.status = tail.2.status
  depth : tail.2.status = .completed → (HasDepth latest.2 ↔ HasDepth tail.2)
  lift : tail.2.status = .completed → HasDepth tail.2 →
    (Lifts latest.2 (summaryReference trials oldest latest) ↔
      Lifts tail.2 (gateReference trials tail))

variable {study : Study} {reference : Option ℚ} {v w : Verdict} {link oldest latest tail : StudyRow}
  {db : Tables} {chain : List ℕ} {i studyId : ℕ}

/-- Each study that is not in flight ends in one way. -/
theorem exists_ended (reference : Option ℚ) (h : inFlight study = false) :
    ∃ v, Ended study reference v := by
  cases hstatus : study.status with
  | queued => simp [inFlight, hstatus] at h
  | running => simp [inFlight, hstatus] at h
  | cancelled => exact ⟨_, .cancelled hstatus⟩
  | failed => exact ⟨_, .failed hstatus⟩
  | completed =>
    by_cases hdepth : HasDepth study
    · by_cases hlift : Lifts study reference
      · exact ⟨_, .goesOn hstatus hdepth hlift⟩
      · exact ⟨_, .noLift hstatus hdepth hlift⟩
    · exact ⟨_, .exhausted hstatus hdepth⟩

/-- A stop reason and a decision match when they express one verdict. -/
theorem matches_iff (hw : Ended study reference w) :
    Matches v.reason w.decision study.status ↔ v = w := by
  constructor
  · intro h
    have hno := h.noLift
    have hdepth := h.depthExhausted
    have hfailed := h.parentFailed
    have hcancelled := h.cancelled
    have hbudget := h.budget
    cases hw <;> cases v <;> simp_all [Verdict.reason, Verdict.decision]
  · rintro rfl
    cases hw with
    | cancelled hstatus => constructor <;> simp [Verdict.reason, Verdict.decision, hstatus]
    | failed hstatus => constructor <;> simp [Verdict.reason, Verdict.decision, hstatus]
    | exhausted hstatus => constructor <;> simp [Verdict.reason, Verdict.decision, hstatus]
    | noLift hstatus => constructor <;> simp [Verdict.reason, Verdict.decision, hstatus]
    | goesOn hstatus => constructor <;> simp [Verdict.reason, Verdict.decision, hstatus]

/-- The baseline that the summary compares with. -/
theorem tailBaseline_eq (trials : List Trial) (oldest latest : StudyRow) :
    tailBaseline latest
      (if oldest.2.baselineMetric.isNone then some (completeTrialsOf trials oldest.1) else none) =
      summaryReference trials oldest latest := by
  unfold tailBaseline summaryReference
  cases latest.2.baselineMetric with
  | some baseline => rfl
  | none =>
    cases oldest.2.baselineMetric with
    | some baseline => rfl
    | none =>
      cases htrials : completeTrialsOf trials oldest.1 with
      | nil => simp [computeFirstDecileMax]; cases directionOf latest <;> rfl
      | cons trial rest => simp

/-- The summary's reason at its last link. -/
theorem Ended.tailStopReason_eq {anchorTrials : Option (List Trial)}
    (h : Ended link.2 (tailBaseline link anchorTrials) v) :
    tailStopReason link anchorTrials = v.reason := by
  cases h with
  | cancelled hstatus => simp [tailStopReason, hstatus, Verdict.reason]
  | failed hstatus => simp [tailStopReason, hstatus, Verdict.reason]
  | exhausted hstatus hdepth =>
    have hzero : link.2.config.autoFollowupDepth.getD 0 = 0 := not_not.mp hdepth
    simp [tailStopReason, hstatus, hzero, Verdict.reason]
  | noLift hstatus hdepth hlift =>
    simp only [tailStopReason, hstatus, reduceCtorEq, if_false, ne_eq, not_true_eq_false,
      if_neg hdepth]
    cases hbest : link.2.bestMetric with
    | none => rfl
    | some best =>
      cases hbase : tailBaseline link anchorTrials with
      | none => rfl
      | some baseline =>
        have hle : ¬ (directionOf link).Improves best baseline := fun himproves =>
          hlift ⟨best, hbest, baseline, hbase, himproves⟩
        rw [improves_iff_lift, not_lt] at hle
        exact if_pos hle
  | goesOn hstatus hdepth hlift =>
    obtain ⟨best, hbest, baseline, hbase, himproves⟩ := hlift
    have hlt := (improves_iff_lift _ best baseline).mp himproves
    simp only [tailStopReason, hstatus, reduceCtorEq, if_false, ne_eq, not_true_eq_false,
      if_neg hdepth, hbest, hbase]
    exact if_neg (not_le.mpr hlt)

/-- A completed study with depth left gets a follow-up or had no lift. -/
theorem evaluateChainGate_of_completed (d : Direction) (trials : List Trial)
    (hstatus : study.status = .completed) (hdepth : HasDepth study) :
    (evaluateChainGate study trials autoFollowupLiftEpsilon d).decision = .enqueue ∨
      (evaluateChainGate study trials autoFollowupLiftEpsilon d).decision = .skipNoLift := by
  have hlift (lift : ℚ) (decile : Option ℚ) :
      (gateOnLift lift decile autoFollowupLiftEpsilon).decision = .enqueue ∨
        (gateOnLift lift decile autoFollowupLiftEpsilon).decision = .skipNoLift := by
    by_cases h : lift > autoFollowupLiftEpsilon
    · exact Or.inl (if_pos h)
    · exact Or.inr (if_neg h)
  have hended : ¬ (study.status = .failed ∨ study.status = .cancelled) := by simp [hstatus]
  simp only [evaluateChainGate, if_neg hended, if_neg hdepth]
  cases study.bestMetric with
  | none => exact Or.inr rfl
  | some best =>
    cases study.baselineMetric with
    | some baseline => exact hlift _ _
    | none =>
      cases computeFirstDecileMax trials d with
      | none => exact Or.inr rfl
      | some decile => exact hlift _ _

/-- The gate's decision on a study that has ended. -/
theorem Ended.gateOf_eq (h : Ended tail.2 (gateReference db.trials tail) v) :
    gateOf db tail = v.decision := by
  have henqueue (hstatus : tail.2.status = .completed) (hdepth : HasDepth tail.2) :
      gateOf db tail = .enqueue ↔ Lifts tail.2 (gateReference db.trials tail) := by
    have hended : ¬ (tail.2.status = .failed ∨ tail.2.status = .cancelled) := by simp [hstatus]
    exact evaluateChainGate_enqueue_iff (directionOf tail) (completeTrialsOf db.trials tail.1)
      hended hdepth
  cases h with
  | cancelled hstatus => simp [gateOf, evaluateChainGate, hstatus, Verdict.decision]
  | failed hstatus => simp [gateOf, evaluateChainGate, hstatus, Verdict.decision]
  | exhausted hstatus hdepth =>
    have hzero : tail.2.config.autoFollowupDepth.getD 0 = 0 := not_not.mp hdepth
    simp [gateOf, evaluateChainGate, hstatus, hzero, Verdict.decision]
  | goesOn hstatus hdepth hlift => exact (henqueue hstatus hdepth).mpr hlift
  | noLift hstatus hdepth hlift =>
    have hno := mt (henqueue hstatus hdepth).mp hlift
    have hsome := evaluateChainGate_of_completed (directionOf tail)
      (completeTrialsOf db.trials tail.1) hstatus hdepth
    exact hsome.resolve_left hno

/-- The two ends have one verdict when the latest link ends like the tail. -/
theorem endsLike_iff (hv : Ended latest.2 (summaryReference db.trials oldest latest) v)
    (hw : Ended tail.2 (gateReference db.trials tail) w) :
    EndsLike db.trials oldest latest tail ↔ v = w := by
  constructor
  · rintro ⟨hstatus, hdepth, hlift⟩
    cases hv <;> cases hw <;> simp_all
  · rintro rfl
    cases hv with
    | cancelled hs =>
      cases hw with
      | cancelled hs' => exact ⟨hs.trans hs'.symm, by simp [hs'], by simp [hs']⟩
    | failed hs =>
      cases hw with
      | failed hs' => exact ⟨hs.trans hs'.symm, by simp [hs'], by simp [hs']⟩
    | exhausted hs hdepth =>
      cases hw with
      | exhausted hs' hdepth' =>
        exact ⟨hs.trans hs'.symm, fun _ => iff_of_false hdepth hdepth',
          fun _ h => absurd h hdepth'⟩
    | noLift hs hdepth hlift =>
      cases hw with
      | noLift hs' hdepth' hlift' =>
        exact ⟨hs.trans hs'.symm, fun _ => iff_of_true hdepth hdepth',
          fun _ _ => iff_of_false hlift hlift'⟩
    | goesOn hs hdepth hlift =>
      cases hw with
      | goesOn hs' hdepth' hlift' =>
        exact ⟨hs.trans hs'.symm, fun _ => iff_of_true hdepth hdepth',
          fun _ _ => iff_of_true hlift hlift'⟩

/-- The first row in the order of creation is the oldest. -/
theorem OldestOf.eq_head {ids : List ℕ} {first : StudyRow} {rest : List StudyRow}
    (hkeys : (db.studies.map Prod.fst).Nodup) (h : OldestOf db.studies ids oldest)
    (hlinks : hydrate db.studies ids = first :: rest) : first = oldest := by
  have hsorted : (first :: rest).Pairwise (Order.Preimage creationKey (· ≤ ·)) :=
    hlinks ▸ pairwise_byCreation _
  have hfirst := mem_hydrate.mp (hlinks ▸ List.mem_cons_self : first ∈ hydrate db.studies ids)
  have hmem : oldest ∈ first :: rest := hlinks ▸ mem_hydrate.mpr h.1
  rcases List.mem_cons.mp hmem with heq | hrest
  · exact heq.symm
  · have hle := (List.pairwise_cons.mp hsorted).1 oldest hrest
    have hge := h.2 first hfirst.1 hfirst.2
    have hid := creationKey_injective (le_antisymm hle hge)
    exact List.inj_on_of_nodup_map hkeys hfirst.1 h.1.1 hid

/-- The last row in the order of creation is the latest. -/
theorem LatestOf.eq_getLast {ids : List ℕ}
    (hkeys : (db.studies.map Prod.fst).Nodup) (h : LatestOf db.studies ids latest) :
    (hydrate db.studies ids).getLast? = some latest := by
  have hsorted : (hydrate db.studies ids).Pairwise (Order.Preimage creationKey (· ≤ ·)) :=
    pairwise_byCreation _
  have hmem : latest ∈ hydrate db.studies ids := mem_hydrate.mpr h.1
  rcases List.eq_nil_or_concat (hydrate db.studies ids) with hnil | ⟨front, last, hconcat⟩
  · simp [hnil] at hmem
  · rw [List.concat_eq_append] at hconcat
    rw [hconcat] at hsorted hmem ⊢
    have hlast : last ∈ hydrate db.studies ids := by simp [hconcat]
    rw [List.getLast?_concat]
    rcases List.mem_append.mp hmem with hfront | heq
    · have hle := (List.pairwise_append.mp hsorted).2.2 latest hfront last (by simp)
      obtain ⟨hrow, hid⟩ := mem_hydrate.mp hlast
      have hsame := creationKey_injective (le_antisymm (h.2 last hrow hid) hle)
      rw [List.inj_on_of_nodup_map hkeys hrow h.1.1 hsame]
    · rw [List.mem_singleton.mp heq]

/-- The stop reason of a chain whose walked links have all ended. -/
theorem LinearChain.chainStopReason_eq (hchain : LinearChain db.studies chain)
    (hterminal : ∀ row ∈ db.studies, row.1 ∈ chain → inFlight row.2 = false)
    (hstudy : chain[i]? = some studyId) (holdest : OldestOf db.studies (walked chain i) oldest)
    (hlatest : LatestOf db.studies (walked chain i) latest)
    (hv : Ended latest.2 (summaryReference db.trials oldest latest) v) :
    chainStopReason db studyId = some v.reason := by
  obtain ⟨anchor, rest, traversal, hlinks, hget, htraversal, htrials⟩ :=
    hchain.getChainForStudy_eq hstudy
  obtain rfl := holdest.eq_head hchain.keys hlinks
  have hidle : ¬ (traversal.links.any fun link => inFlight link.2) = true := by
    rw [List.any_eq_true]
    rintro ⟨link, hlink, hflight⟩
    rw [htraversal, ← hlinks, mem_hydrate] at hlink
    have hmem : link.1 ∈ chain := List.mem_of_mem_drop (List.mem_of_mem_take hlink.2)
    rw [hterminal link hlink.1 hmem] at hflight
    cases hflight
  have hlast := hlatest.eq_getLast hchain.keys
  rw [chainStopReason, hget, Option.bind_some, deriveChainStopReason, if_neg hidle, htraversal,
    ← hlinks, hlast, Option.map_some, htrials]
  rw [← tailBaseline_eq] at hv
  rw [hv.tailStopReason_eq]

/-- For every terminal linear chain, the stop reason agrees with the gate on the
tail exactly when the latest walked link ends like the tail. -/
theorem stop_reason_agrees_iff (hchain : LinearChain db.studies chain)
    (hterminal : ∀ row ∈ db.studies, row.1 ∈ chain → inFlight row.2 = false)
    (hstudy : chain[i]? = some studyId)
    (htail : tail ∈ db.studies) (hlast : chain.getLast? = some tail.1)
    (holdest : OldestOf db.studies (walked chain i) oldest)
    (hlatest : LatestOf db.studies (walked chain i) latest) :
    StopReasonAgrees db studyId tail ↔ EndsLike db.trials oldest latest tail := by
  have hlatestChain : latest.1 ∈ chain :=
    List.mem_of_mem_drop (List.mem_of_mem_take hlatest.1.2)
  obtain ⟨v, hv⟩ := exists_ended (summaryReference db.trials oldest latest)
    (hterminal latest hlatest.1.1 hlatestChain)
  obtain ⟨w, hw⟩ := exists_ended (gateReference db.trials tail)
    (hterminal tail htail (List.mem_of_getLast? hlast))
  have hreason := hchain.chainStopReason_eq hterminal hstudy holdest hlatest hv
  rw [endsLike_iff hv hw, ← matches_iff hw, StopReasonAgrees, hreason, hw.gateOf_eq]
  simp only [Option.some.injEq, exists_eq_left']

/-- When the walk returns the tail as the latest link, only its lift matters. -/
theorem endsLike_tail_iff : EndsLike db.trials oldest tail tail ↔
    (tail.2.status = .completed → HasDepth tail.2 →
      (Lifts tail.2 (summaryReference db.trials oldest tail) ↔
        Lifts tail.2 (gateReference db.trials tail))) :=
  ⟨EndsLike.lift, fun h => ⟨rfl, fun _ => Iff.rfl, h⟩⟩

/-- A tail with a baseline ends like itself, whatever the trials are. -/
theorem endsLike_tail_of_baseline {baseline : ℚ} (h : tail.2.baselineMetric = some baseline) :
    EndsLike db.trials oldest tail tail := by
  refine endsLike_tail_iff.mpr fun _ _ => ?_
  simp [summaryReference, gateReference, h]

/-- So does the tail of a chain of one link. -/
theorem endsLike_tail_of_single : EndsLike db.trials tail tail tail := by
  refine endsLike_tail_iff.mpr fun _ _ => ?_
  unfold summaryReference gateReference
  cases tail.2.baselineMetric <;> simp

/-- The first trial of the root's search is at 9/10, that of the follow-up at 1/10. -/
def twoLinks (baseline : Option ℚ) : Tables :=
  { studies := [rootLink, followupLink baseline]
    trials := [{ firstTrial with primaryMetric := some (9 / 10) },
      { firstTrial with id := 3, studyId := 8 }] }

theorem terminal_twoLinks (baseline : Option ℚ) :
    ∀ row ∈ (twoLinks baseline).studies, row.1 ∈ [7, 8] → inFlight row.2 = false := by
  intro row hrow _
  rcases List.mem_pair.mp hrow with rfl | rfl <;> rfl

theorem creationKey_twoLinks (baseline : Option ℚ) :
    creationKey rootLink ≤ creationKey (followupLink baseline) := by
  have hlt : rootLink.2.createdAt < (followupLink baseline).2.createdAt := Nat.zero_lt_one
  exact Prod.Lex.toLex_le_toLex.mpr (Or.inl hlt)

theorem oldestOf_twoLinks (baseline : Option ℚ) :
    OldestOf (twoLinks baseline).studies (walked [7, 8] 1) rootLink := by
  refine ⟨⟨List.mem_cons_self, by decide⟩, fun other hother _ => ?_⟩
  rcases List.mem_pair.mp hother with rfl | rfl
  · exact le_rfl
  · exact creationKey_twoLinks baseline

theorem latestOf_twoLinks (baseline : Option ℚ) :
    LatestOf (twoLinks baseline).studies (walked [7, 8] 1) (followupLink baseline) := by
  have hid : (followupLink baseline).1 ∈ walked [7, 8] 1 := by
    change 8 ∈ walked [7, 8] 1
    decide
  refine ⟨⟨by simp [twoLinks], hid⟩, fun other hother _ => ?_⟩
  rcases List.mem_pair.mp hother with rfl | rfl
  · exact creationKey_twoLinks baseline
  · exact le_rfl

/-- With a baseline at the follow-up the two sides agree. -/
theorem stop_reason_agrees_of_baseline :
    StopReasonAgrees (twoLinks (some (1 / 5))) 8 (followupLink (some (1 / 5))) :=
  (stop_reason_agrees_iff (linearChain_rootLink _) (terminal_twoLinks _) rfl
    (by simp [twoLinks]) rfl (oldestOf_twoLinks _) (latestOf_twoLinks _)).mpr
    (endsLike_tail_of_baseline rfl)

/-- Without one the gate goes on from 1/10 to 3/5, but the summary compares 3/5
with the root's 9/10 and reports no lift. -/
theorem stop_reason_compares_with_root_trials :
    ¬ ∀ (db : Tables) (chain : List ℕ) (i studyId : ℕ) (tail : StudyRow),
      LinearChain db.studies chain →
      (∀ row ∈ db.studies, row.1 ∈ chain → inFlight row.2 = false) →
      chain[i]? = some studyId → tail ∈ db.studies → chain.getLast? = some tail.1 →
      StopReasonAgrees db studyId tail := by
  intro h
  obtain ⟨reason, hreason, hmatches⟩ := h (twoLinks none) [7, 8] 1 8 (followupLink none)
    (linearChain_rootLink _) (terminal_twoLinks _) rfl (by simp [twoLinks]) rfl
  have hno : chainStopReason (twoLinks none) 8 = some .noLift := by decide +kernel
  have hgate : gateOf (twoLinks none) (followupLink none) = .enqueue := by decide +kernel
  obtain rfl : ChainStopReason.noLift = reason := Option.some.inj (hno.symm.trans hreason)
  have hskip := hmatches.noLift.mp rfl
  rw [hgate] at hskip
  cases hskip

end RelyLoop.Chains
