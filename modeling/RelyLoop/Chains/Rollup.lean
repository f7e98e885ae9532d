import RelyLoop.Chains.Summary
import Mathlib.Logic.Relation

/-!
# The rollup of a chain

When a link of a chain stops, the pending proposals of all links but the best
one are superseded. The best link of the chain as it ends is never among those
losers at an earlier time at which it was completed: what the chain gains later
does not change how its completed links compare.
-/

namespace RelyLoop.Chains

open Studies Proposals

/-- The rows that `bulk_mark_superseded` changes. -/
def supersedable (studyIds : List ℕ) (proposal : ProposalRow) : Bool :=
  (proposal.row.studyId.any fun studyId => studyId ∈ studyIds) &&
    proposal.row.status == .pending

/-- `bulk_mark_superseded`: the table and the ids of the changed rows. -/
def bulkMarkSuperseded (proposals : List ProposalRow) (studyIds : List ℕ) :
    List ProposalRow × List ℕ :=
  if studyIds = [] then (proposals, [])
  else
    (proposals.map fun proposal =>
      if supersedable studyIds proposal then
        { proposal with row := { proposal.row with status := .superseded } }
      else proposal,
      (proposals.filter (supersedable studyIds)).map ProposalRow.id)

/-- `mark_non_winning_chain_proposals_superseded`: the tables and the ids of the
superseded proposals. A traversal that the caller has is not fetched again. -/
def markNonWinningChainProposalsSuperseded (db : Tables) (studyId : ℕ)
    (prefetched : Option ChainTraversalResult := none) : Tables × List ℕ :=
  match prefetched.or (getChainForStudy db studyId) with
  | none => (db, [])
  | some traversal =>
    if traversal.links.length < 2 then (db, [])
    else if deriveChainStopReason traversal.links traversal.anchorTrials = some .inFlight then
      (db, [])
    else match selectBestLink traversal.links with
      | none => (db, [])
      | some bestLinkId =>
        let loserIds := (traversal.links.map Prod.fst).filter fun linkId => linkId != bestLinkId
        let (proposals, transitioned) := bulkMarkSuperseded db.proposals loserIds
        ({ db with proposals := proposals }, transitioned)

/-- The proposals of a study. -/
def proposalsOf (proposals : List ProposalRow) (studyId : ℕ) : List ProposalRow :=
  proposals.filter fun proposal => proposal.row.studyId == some studyId

/-- A linear chain whose links optimise in one direction, as follow-ups do: they
copy the objective of their parent. -/
structure ObjectiveChain (studies : List StudyRow) (chain : List ℕ) (direction : Direction) : Prop
    extends LinearChain studies chain where
  shared : ∀ row ∈ studies, row.1 ∈ chain → directionOf row = direction

/-- `new` is the row `old` at a later time. -/
structure SameLink (old new : StudyRow) : Prop where
  id : new.1 = old.1
  parent : new.2.parentStudyId = old.2.parentStudyId
  created : new.2.createdAt = old.2.createdAt
  objective : new.2.objective = old.2.objective
  completed : old.2.status = .completed →
    new.2.status = .completed ∧ new.2.bestMetric = old.2.bestMetric

/-- An extension of the chains: links may be added and go on, and completed ones
keep their metric. -/
def Extension (old new : Tables) : Prop :=
  ∀ row ∈ old.studies, ∃ row' ∈ new.studies, SameLink row row'

variable {studies : List StudyRow} {chain : List ℕ} {direction : Direction} {old new final : Tables}
  {row row' row'' : StudyRow} {studyId bestId : ℕ}

theorem SameLink.refl (row : StudyRow) : SameLink row row := ⟨rfl, rfl, rfl, rfl, fun h => ⟨h, rfl⟩⟩

theorem SameLink.trans (h : SameLink row row') (h' : SameLink row' row'') : SameLink row row'' where
  id := h'.id.trans h.id
  parent := h'.parent.trans h.parent
  created := h'.created.trans h.created
  objective := h'.objective.trans h.objective
  completed := by
    intro hcompleted
    obtain ⟨hstatus, hmetric⟩ := h.completed hcompleted
    obtain ⟨hstatus', hmetric'⟩ := h'.completed hstatus
    exact ⟨hstatus', hmetric'.trans hmetric⟩

/-- Any number of extensions is an extension. -/
theorem Extension.of_run (h : Relation.ReflTransGen Extension old final) : Extension old final := by
  induction h with
  | refl => exact fun row hrow => ⟨row, hrow, SameLink.refl row⟩
  | tail _ hstep ih =>
    intro row hrow
    obtain ⟨row', hrow', hsame⟩ := ih row hrow
    obtain ⟨row'', hrow'', hsame'⟩ := hstep row' hrow'
    exact ⟨row'', hrow'', hsame.trans hsame'⟩

/-- The rank of a completed link does not change. -/
theorem Outranks.of_later {x y x' y' : StudyRow} (hx : SameLink x x') (hy : SameLink y y')
    (hxc : x.2.status = .completed) (hyc : y.2.status = .completed)
    (h : Outranks direction x' y') : Outranks direction x y := by
  have hkey {z z' : StudyRow} (hz : SameLink z z') : creationKey z' = creationKey z := by
    rw [creationKey, creationKey, hz.id, hz.created]
  obtain ⟨mx, my, hmx, hmy, hle⟩ := h
  rw [(hx.completed hxc).2] at hmx
  rw [(hy.completed hyc).2] at hmy
  rw [hkey hx, hkey hy] at hle
  exact ⟨mx, my, hmx, hmy, hle⟩

/-! ## Where the walk stays -/

/-- The rows of a study and of its parent are on the same side of `inside`. -/
def Closed (studies : List StudyRow) (inside : ℕ → Prop) : Prop :=
  ∀ row ∈ studies, ∀ parentId, row.2.parentStudyId = some parentId →
    (inside parentId ↔ inside row.1)

theorem exists_row_of_parentOf {parentId : ℕ} (h : parentOf studies studyId = some parentId) :
    ∃ row ∈ studies, row.1 = studyId ∧ row.2.parentStudyId = some parentId := by
  obtain ⟨study, hstudy, hparent⟩ := Option.bind_eq_some_iff.mp h
  obtain ⟨row, hfind, rfl⟩ := Option.map_eq_some_iff.mp hstudy
  exact ⟨row, List.mem_of_find?_eq_some hfind, by simpa using List.find?_some hfind, hparent⟩

/-- The walk up stays on its side. -/
theorem Closed.upwardWalk {inside : ℕ → Prop} (h : Closed studies inside) (hops : ℕ) :
    ∀ visited cur, inside (upwardWalk studies hops visited cur) ↔ inside cur := by
  induction hops with
  | zero => intro visited cur; exact Iff.rfl
  | succ hops ih =>
    intro visited cur
    rw [Chains.upwardWalk]
    cases hparent : parentOf studies cur with
    | none => exact Iff.rfl
    | some parentId =>
      obtain ⟨row, hrow, rfl, hrowParent⟩ := exists_row_of_parentOf hparent
      have hside := h row hrow parentId hrowParent
      dsimp only
      split
      · exact Iff.rfl
      · split
        · exact Iff.rfl
        · exact (ih _ _).trans hside

/-- The walk down stays on its side. -/
theorem Closed.downwardWalk {inside : ℕ → Prop} (h : Closed studies inside) (descendants : ℕ) :
    ∀ visited cur, ∀ id ∈ downwardWalk studies descendants visited cur,
      (inside id ↔ inside cur) := by
  induction descendants with
  | zero => intro visited cur id hid; simp [Chains.downwardWalk] at hid
  | succ descendants ih =>
    intro visited cur id hid
    rw [Chains.downwardWalk] at hid
    cases hhead : (childrenOf studies cur).head? with
    | none => simp [hhead] at hid
    | some next =>
      obtain ⟨hnext, hparent⟩ := mem_childrenOf.mp (List.mem_of_head? hhead)
      have hside := h next hnext cur hparent
      simp only [hhead] at hid
      split at hid
      · cases hid
      · rcases List.mem_cons.mp hid with rfl | hrest
        · exact hside.symm
        · exact (ih _ _ id hrest).trans hside.symm

/-- All links that the walk comes by are on the side of its start. -/
theorem Closed.linkIds {inside : ℕ → Prop} (h : Closed studies inside) :
    ∀ id ∈ linkIds studies studyId, (inside id ↔ inside studyId) := by
  intro id hid
  have hup := h.upwardWalk chainUpwardHopCap [studyId] studyId
  rcases List.mem_cons.mp hid with rfl | hdown
  · exact hup
  · exact (h.downwardWalk _ _ _ id hdown).trans hup

/-- A linear chain contains the parent of a study exactly when it contains the study. -/
theorem LinearChain.closed (h : LinearChain studies chain) : Closed studies (· ∈ chain) := by
  intro row hrow parentId hparent
  constructor
  · intro hmem
    obtain ⟨i, hi⟩ := List.mem_iff_getElem?.mp hmem
    exact List.mem_of_getElem? (h.onlyChild row hrow i parentId hi hparent)
  · intro hmem
    obtain ⟨i, hi⟩ := List.mem_iff_getElem?.mp hmem
    have hrowOf : parentOf studies row.1 = some parentId := by
      rw [parentOf, (studyOf_eq_some_iff h.keys).mpr hrow, Option.bind_some, hparent]
    cases i with
    | zero =>
      rw [h.root row.1 hi] at hrowOf
      cases hrowOf
    | succ i =>
      have hlt : i + 1 < chain.length := (List.getElem?_eq_some_iff.mp hi).1
      have hbefore : chain[i]? = some chain[i] := List.getElem?_eq_getElem (by omega)
      have hlinked := h.linked i _ _ hbefore hi
      rw [hrowOf, Option.some.injEq] at hlinked
      rw [hlinked]
      exact List.getElem_mem _

/-- Earlier, too. -/
theorem Extension.closed (hext : Extension old final) (hchain : LinearChain final.studies chain) :
    Closed old.studies (· ∈ chain) := by
  intro row hrow parentId hparent
  obtain ⟨row', hrow', hsame⟩ := hext row hrow
  rw [← hsame.id]
  exact hchain.closed row' hrow' parentId (hsame.parent.trans hparent)

/-! ## What a rollup leaves -/

/-- A rollup of a fetched chain changes nothing, or supersedes the pending
proposals of all walked links but the best one. -/
theorem rollup_cases {db : Tables} {traversal : ChainTraversalResult}
    (h : getChainForStudy db studyId = some traversal) :
    markNonWinningChainProposalsSuperseded db studyId = (db, []) ∨
      ∃ best, selectBestLink traversal.links = some best ∧
        (markNonWinningChainProposalsSuperseded db studyId).1 =
          { db with proposals := (bulkMarkSuperseded db.proposals
              ((traversal.links.map Prod.fst).filter fun linkId => linkId != best)).1 } := by
  unfold markNonWinningChainProposalsSuperseded
  rw [Option.none_or, h]
  dsimp only
  split
  · exact Or.inl rfl
  · split
    · exact Or.inl rfl
    · cases hbest : selectBestLink traversal.links with
      | none => exact Or.inl rfl
      | some best => exact Or.inr ⟨best, rfl, rfl⟩

/-- The proposals of a study that is not among the losers stay as they are. -/
theorem proposalsOf_bulkMarkSuperseded {proposals : List ProposalRow} {studyIds : List ℕ}
    (h : studyId ∉ studyIds) :
    proposalsOf (bulkMarkSuperseded proposals studyIds).1 studyId =
      proposalsOf proposals studyId := by
  unfold bulkMarkSuperseded
  split
  · rfl
  · unfold proposalsOf
    induction proposals with
    | nil => rfl
    | cons proposal rest ih =>
      rw [List.map_cons]
      by_cases hsupersedable : supersedable studyIds proposal = true
      · have hother : (proposal.row.studyId == some studyId) = false := by
          rw [beq_eq_false_iff_ne]
          intro heq
          simp [supersedable, heq, h] at hsupersedable
        rw [if_pos hsupersedable, List.filter_cons_of_neg (by simp [hother]),
          List.filter_cons_of_neg (by simp [hother]), ih]
      · rw [if_neg hsupersedable, List.filter_cons, List.filter_cons, ih]

/-- A link that was completed ranks first among the links that the walk returned
then, when it is the best of the chain as it ends. -/
theorem IsBest.of_extension {traversal : ChainTraversalResult} {best best' : StudyRow}
    {anchor : StudyRow} {rest : List StudyRow} (hext : Extension old final)
    (hchain : ObjectiveChain final.studies chain direction)
    (hbest : IsBest direction (hydrate final.studies chain) best')
    (hsame : SameLink best best') (hcompleted : best.2.status = .completed)
    (hlinks : traversal.links = anchor :: rest) (hmem : best ∈ traversal.links)
    (hrows : ∀ link ∈ traversal.links, link ∈ old.studies ∧ link.1 ∈ chain) :
    selectBestLink traversal.links = some best.1 := by
  have hbestMetric := (mem_completedLinks.mp hbest.1).2.2
  rw [(hsame.completed hcompleted).2] at hbestMetric
  have hanchor : directionOf anchor = direction := by
    obtain ⟨hrow, hid⟩ := hrows anchor (hlinks ▸ List.mem_cons_self)
    obtain ⟨anchor', hrow', hsame'⟩ := hext anchor hrow
    have hshared := hchain.shared anchor' hrow' (hsame'.id ▸ hid)
    rwa [directionOf, hsame'.objective] at hshared
  rw [hlinks, selectBestLink_eq_some_iff, hanchor, ← hlinks]
  refine ⟨best, ⟨mem_completedLinks.mpr ⟨hmem, hcompleted, hbestMetric⟩, ?_⟩, rfl⟩
  intro link hlink
  obtain ⟨hlinkMem, hlinkCompleted, metric, hmetric⟩ := mem_completedLinks.mp hlink
  obtain ⟨hrow, hid⟩ := hrows link hlinkMem
  obtain ⟨link', hrow', hsame'⟩ := hext link hrow
  obtain ⟨hstatus, hmetric'⟩ := hsame'.completed hlinkCompleted
  have hlater : link' ∈ completedLinks (hydrate final.studies chain) :=
    mem_completedLinks.mpr
      ⟨mem_hydrate.mpr ⟨hrow', hsame'.id ▸ hid⟩, hstatus, metric, hmetric'.trans hmetric⟩
  exact (hbest.2 link' hlater).of_later hsame hsame' hcompleted hlinkCompleted

/-- The best link of a chain is superseded by no rollup, of any study, that ran
at an earlier time at which it was completed. -/
theorem best_link_never_superseded {bestOld : Study}
    (hrun : Relation.ReflTransGen Extension old final)
    (hchain : ObjectiveChain final.studies chain direction)
    (hbest : selectBestLink (hydrate final.studies chain) = some bestId)
    (hold : (bestId, bestOld) ∈ old.studies) (hcompleted : bestOld.status = .completed)
    (studyId : ℕ) :
    proposalsOf (markNonWinningChainProposalsSuperseded old studyId).1.proposals bestId =
      proposalsOf old.proposals bestId := by
  have hext := Extension.of_run hrun
  cases hget : getChainForStudy old studyId with
  | none => simp [markNonWinningChainProposalsSuperseded, hget]
  | some traversal =>
    rcases rollup_cases hget with hsame | ⟨best, hselect, hrollup⟩
    · rw [hsame]
    · rw [hrollup]
      obtain ⟨hlinks, hne⟩ := links_of_getChainForStudy hget
      obtain ⟨anchor, rest, hcons⟩ := List.exists_cons_of_ne_nil hne
      obtain ⟨later, hlater, hsame⟩ := hext _ hold
      obtain ⟨first, others, hfinal⟩ := List.exists_cons_of_ne_nil
        (fun hnil => by simp [hnil, selectBestLink] at hbest :
          hydrate final.studies chain ≠ [])
      rw [hfinal, selectBestLink_eq_some_iff] at hbest
      obtain ⟨best', hbest', hid⟩ := hbest
      rw [← hfinal] at hbest'
      have hfirst := mem_hydrate.mp (hfinal ▸ List.mem_cons_self : first ∈ hydrate final.studies chain)
      rw [hchain.shared first hfirst.1 hfirst.2] at hbest'
      obtain ⟨hrow', hinside⟩ := mem_hydrate.mp (mem_completedLinks.mp hbest'.1).1
      obtain rfl : later = best' :=
        List.inj_on_of_nodup_map hchain.keys hlater hrow' (hsame.id.trans hid.symm)
      refine proposalsOf_bulkMarkSuperseded fun hloser => ?_
      obtain ⟨hwalked, hother⟩ := List.mem_filter.mp hloser
      obtain ⟨link, hlink, hlinkId⟩ := List.mem_map.mp hwalked
      rw [hlinks, mem_hydrate] at hlink
      have hclosed := hext.closed hchain.toLinearChain
      have hstart : studyId ∈ chain :=
        (hclosed.linkIds link.1 hlink.2).mp (hlinkId ▸ hid ▸ hinside)
      have hrows : ∀ link ∈ traversal.links, link ∈ old.studies ∧ link.1 ∈ chain := by
        intro link hmem
        rw [hlinks, mem_hydrate] at hmem
        exact ⟨hmem.1, (hclosed.linkIds link.1 hmem.2).mpr hstart⟩
      have hmem : (bestId, bestOld) ∈ traversal.links := by
        rw [hlinks, mem_hydrate]
        exact ⟨hold, hlinkId ▸ hlink.2⟩
      have hwins := hbest'.of_extension hext hchain hsame hcompleted hcons hmem hrows
      rw [hselect, Option.some.injEq] at hwins
      simp [hwins] at hother

/-- The follow-up of the follow-up, still running. -/
def runningLink : StudyRow :=
  (9, { (followupLink none).2 with status := .running, bestMetric := none,
                                   parentStudyId := some 8, createdAt := 2 })

/-- A pending proposal of a study. -/
def pendingOf (proposalId studyId : ℕ) : ProposalRow :=
  { id := proposalId, createdAt := proposalId,
    row := { studyId := some studyId, configDiff := "", status := .pending } }

/-- The chain of the two completed links, each with its proposal. -/
def twoProposals : Tables :=
  { studies := [rootLink, followupLink none], proposals := [pendingOf 1 7, pendingOf 2 8] }

/-- The chain has grown by a third link. -/
def threeLinks : Tables :=
  { twoProposals with studies := [rootLink, followupLink none, runningLink] }

theorem objectiveChain_threeLinks : ObjectiveChain threeLinks.studies [7, 8, 9] .maximize where
  toLinearChain := by
    have hfresh : runningLink.1 ∉ [rootLink, followupLink none].map Prod.fst := by decide
    have hchildless : ∀ other ∈ [rootLink, followupLink none],
        other.2.parentStudyId ≠ some runningLink.1 := by decide
    exact (linearChain_rootLink none).snoc rfl hfresh hchildless rfl
  shared := by
    have hall : ∀ row ∈ threeLinks.studies, directionOf row = .maximize := by decide
    exact fun row hrow _ => hall row hrow

/-- The rollup supersedes the proposal of the root; that of the best link stays. -/
theorem best_link_kept_by_rollup :
    proposalsOf (markNonWinningChainProposalsSuperseded twoProposals 8).1.proposals 8 =
      proposalsOf twoProposals.proposals 8 ∧
    (markNonWinningChainProposalsSuperseded twoProposals 8).2 = [1] := by
  have hgrown : Extension twoProposals threeLinks := by
    intro row hrow
    exact ⟨row, List.mem_append_left [runningLink] hrow, SameLink.refl row⟩
  exact ⟨best_link_never_superseded (Relation.ReflTransGen.single hgrown)
    objectiveChain_threeLinks (by decide +kernel)
    (List.mem_cons_of_mem _ List.mem_cons_self) rfl 8, by decide +kernel⟩

end RelyLoop.Chains
