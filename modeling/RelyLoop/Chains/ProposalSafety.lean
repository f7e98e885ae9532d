import RelyLoop.Chains.ProposalSteps

/-!
# Withdrawn proposals and the best link

A superseded or rejected proposal is not replaced by a pending one, except by a
digest that finds no pending proposal of its study. When the stop of a link ends
the chain, the rollup leaves a pending proposal at the best link only.
-/

namespace RelyLoop.Chains

open Studies Proposals

/-- Every row of `new` comes from a row of `old`, and no row became pending. -/
def Derives (old new : List ProposalRow) : Prop :=
  ∀ proposal ∈ new, ∃ before ∈ old, before.id = proposal.id ∧
    before.row.studyId = proposal.row.studyId ∧
    (proposal.row.status = .pending → before.row.status = .pending)

variable {old new : List ProposalRow} {proposals : List ProposalRow} {world next final : World}
  {tables : Tables} {studyId newId now i : ℕ} {summary : TrialsSummary} {run : DigestRun}

theorem Derives.refl (proposals : List ProposalRow) : Derives proposals proposals :=
  fun proposal hmem => ⟨proposal, hmem, rfl, rfl, id⟩

theorem Derives.trans {newer : List ProposalRow} (h : Derives old new) (h' : Derives new newer) :
    Derives old newer := by
  intro proposal hmem
  obtain ⟨middle, hmiddle, hid, hstudy, hpending⟩ := h' proposal hmem
  obtain ⟨before, hbefore, hid', hstudy', hpending'⟩ := h middle hmiddle
  exact ⟨before, hbefore, hid'.trans hid, hstudy'.trans hstudy, hpending' ∘ hpending⟩

/-- A row that is added was either there before or is the added one. -/
theorem Derives.append {added : ProposalRow} (h : Derives (old ++ [added]) new)
    {proposal : ProposalRow} (hmem : proposal ∈ new) :
    (∃ before ∈ old, before.id = proposal.id ∧ before.row.studyId = proposal.row.studyId ∧
      (proposal.row.status = .pending → before.row.status = .pending)) ∨
    proposal.row.studyId = added.row.studyId := by
  obtain ⟨before, hbefore, hid, hstudy, hpending⟩ := h proposal hmem
  rcases List.mem_append.mp hbefore with hold | hadded
  · exact Or.inl ⟨before, hold, hid, hstudy, hpending⟩
  · rw [List.mem_singleton.mp hadded] at hstudy
    exact Or.inr hstudy.symm

theorem derives_deleteProposal (proposalId : ℕ) :
    Derives proposals (deleteProposal proposals proposalId) :=
  fun proposal hmem => ⟨proposal, (List.mem_filter.mp hmem).1, rfl, rfl, id⟩

/-- Changing a pending proposal makes no other one pending. -/
theorem derives_changeProposal (proposalId : ℕ) {change : Proposal → Proposal}
    (hstudy : ∀ row, (change row).studyId = row.studyId) :
    Derives proposals (changeProposal proposals proposalId .pending change) := by
  intro proposal hmem
  obtain ⟨before, hbefore, rfl⟩ := List.mem_map.mp hmem
  refine ⟨before, hbefore, ?_⟩
  by_cases hchange : before.id = proposalId ∧ before.row.status = .pending
  · rw [if_pos hchange]
    exact ⟨rfl, (hstudy before.row).symm, fun _ => hchange.2⟩
  · rw [if_neg hchange]
    exact ⟨rfl, rfl, id⟩

theorem derives_bulkMarkSuperseded (studyIds : List ℕ) :
    Derives proposals (bulkMarkSuperseded proposals studyIds).1 := by
  unfold bulkMarkSuperseded
  split
  · exact Derives.refl proposals
  · intro proposal hmem
    obtain ⟨before, hbefore, rfl⟩ := List.mem_map.mp hmem
    refine ⟨before, hbefore, ?_⟩
    by_cases hsupersedable : supersedable studyIds before = true
    · rw [if_pos hsupersedable]
      exact ⟨rfl, rfl, fun hpending => by simp at hpending⟩
    · rw [if_neg hsupersedable]
      exact ⟨rfl, rfl, id⟩

/-- A traversal that was fetched before is the one that the rollup would fetch. -/
theorem rollup_prefetched (tables : Tables) (studyId : ℕ) :
    markNonWinningChainProposalsSuperseded tables studyId (getChainForStudy tables studyId) =
      markNonWinningChainProposalsSuperseded tables studyId := by
  unfold markNonWinningChainProposalsSuperseded
  cases getChainForStudy tables studyId <;> rfl

/-- The rollup changes the proposals only, and makes none pending. -/
theorem rollup_derives (tables : Tables) (studyId : ℕ) :
    (markNonWinningChainProposalsSuperseded tables studyId).1.studies = tables.studies ∧
      Derives tables.proposals
        (markNonWinningChainProposalsSuperseded tables studyId).1.proposals := by
  cases hget : getChainForStudy tables studyId with
  | none => simp [markNonWinningChainProposalsSuperseded, hget, Derives.refl]
  | some traversal =>
    rcases rollup_cases hget with hsame | ⟨best, -, hrollup⟩
    · rw [hsame]
      exact ⟨rfl, Derives.refl _⟩
    · rw [hrollup]
      exact ⟨rfl, derives_bulkMarkSuperseded _⟩

/-! ## The stop of a link -/

/-- A stop that fails changes nothing; one that succeeds completes the running
study, inserts its proposal and makes no other one pending. -/
theorem stop_cases (tables : Tables) (studyId newId now : ℕ) (summary : TrialsSummary) :
    stop studyId newId now summary tables = tables ∨
      ∃ study, studyOf tables.studies studyId = some study ∧ study.status = .running ∧
        (stop studyId newId now summary tables).studies =
          setStudy tables.studies studyId (completed now summary) ∧
        Derives (tables.proposals ++ [createProposal newId now studyId])
          (stop studyId newId now summary tables).proposals := by
  unfold stop
  cases hstudy : studyOf tables.studies studyId with
  | none => exact Or.inl rfl
  | some study =>
    dsimp only
    split
    · exact Or.inl rfl
    next hlegal =>
      have hrunning : study.status = .running := by
        cases hstatus : study.status <;> simp_all [legalTransitions]
      refine Or.inr ⟨study, rfl, hrunning, ?_⟩
      split
      · rw [rollup_prefetched]
        exact rollup_derives (stopped tables studyId newId now summary) studyId
      · exact ⟨rfl, Derives.refl _⟩

/-! ## The digest of a link -/

theorem pendingProposal_isSome (h : world.HasPending studyId) :
    ∃ existing, pendingProposal world.tables.proposals studyId = some existing := by
  obtain ⟨proposal, hmem, hstudy, hpending⟩ := h
  rw [← Option.isSome_iff_exists, pendingProposal, List.find?_isSome]
  exact ⟨proposal, hmem, by simp [hstudy, hpending]⟩

/-- `next` is `world` with its proposals derived from those that the digest found
or inserted its own in. -/
structure AfterDigest (world : World) (studyId newId now : ℕ) (next : World) : Prop where
  studies : next.tables.studies = world.tables.studies
  chain : next.chain = world.chain
  derives : Derives (ensurePendingProposal world.tables.proposals studyId newId now).1
    next.tables.proposals

/-- The end of a digest gives up, or updates or deletes the proposal. -/
theorem finishDigest_cases (world : World) (studyId newId now : ℕ) (run : DigestRun) :
    finishDigest world studyId newId now run = world ∨
      AfterDigest world studyId newId now (finishDigest world studyId newId now run) := by
  unfold finishDigest
  dsimp only
  split
  · exact Or.inl rfl
  · split
    · exact Or.inl rfl
    · refine Or.inr ?_
      split
      · exact ⟨rfl, rfl, Derives.refl _⟩
      · split
        · exact ⟨rfl, rfl, derives_deleteProposal _⟩
        · have hstudy : ∀ row, (run.update row).studyId = row.studyId := fun _ => rfl
          exact ⟨rfl, rfl, derives_changeProposal _ hstudy⟩

/-- A digest changes nothing, or its study is completed and it leaves the
proposals that it found, or found and inserted, none of which became pending. -/
theorem generateDigest_cases (studyId newId now : ℕ) (run : DigestRun) (world : World) :
    generateDigest studyId newId now run world = world ∨
      (∃ study, studyOf world.tables.studies studyId = some study ∧ study.status = .completed) ∧
        AfterDigest world studyId newId now (generateDigest studyId newId now run world) := by
  have hzero : AfterDigest world studyId newId now
      (persistZeroTrialsDigest world studyId newId now) := ⟨rfl, rfl, derives_deleteProposal _⟩
  unfold generateDigest
  cases hstudy : studyOf world.tables.studies studyId with
  | none => exact Or.inl rfl
  | some study =>
    dsimp only
    split
    · exact Or.inl rfl
    next hgo =>
      have hcompleted : study.status = .completed := by
        by_contra hne
        exact hgo (Or.inl hne)
      have hfound : ∃ found, some study = some found ∧ found.status = .completed :=
        ⟨study, rfl, hcompleted⟩
      split
      · exact Or.inr ⟨hfound, hzero⟩
      · split
        · exact Or.inl rfl
        · split
          · rcases finishDigest_cases world studyId newId now run with hsame | hafter
            · exact Or.inl hsame
            · exact Or.inr ⟨hfound, hafter⟩
          · exact Or.inr ⟨hfound, hzero⟩

/-! ## Sound worlds -/

@[simp] theorem mem_setStudy {studies : List StudyRow} {f : Study → Study} {row : StudyRow} :
    row ∈ setStudy studies studyId f ↔
      ∃ before ∈ studies, (if before.1 = studyId then (before.1, f before.2) else before) = row :=
  List.mem_map

/-- The row that a study had before. -/
theorem exists_of_mem_setStudy {studies : List StudyRow} {f : Study → Study} {row : StudyRow}
    (hparent : ∀ study, (f study).parentStudyId = study.parentStudyId)
    (h : row ∈ setStudy studies studyId f) :
    ∃ before ∈ studies, before.1 = row.1 ∧ before.2.parentStudyId = row.2.parentStudyId ∧
      (before.1 ≠ studyId ∧ row.2 = before.2 ∨ before.1 = studyId ∧ row.2 = f before.2) := by
  obtain ⟨before, hbefore, rfl⟩ := mem_setStudy.mp h
  refine ⟨before, hbefore, ?_⟩
  by_cases hid : before.1 = studyId
  · rw [if_pos hid]
    exact ⟨rfl, (hparent before.2).symm, Or.inr ⟨hid, rfl⟩⟩
  · rw [if_neg hid]
    exact ⟨rfl, rfl, Or.inl ⟨hid, rfl⟩⟩

theorem keys_setStudy (studies : List StudyRow) (studyId : ℕ) (f : Study → Study) :
    (setStudy studies studyId f).map Prod.fst = studies.map Prod.fst := by
  rw [setStudy, List.map_map]
  refine List.map_congr_left fun row _ => ?_
  by_cases hid : row.1 = studyId <;> simp [hid]

/-- A chain stays linear when its rows change but not their parents. -/
theorem LinearChain.setStudy {studies : List StudyRow} {chain : List ℕ} {f : Study → Study}
    (h : LinearChain studies chain)
    (hparent : ∀ study, (f study).parentStudyId = study.parentStudyId) :
    LinearChain (setStudy studies studyId f) chain := by
  have hkeys : ((Chains.setStudy studies studyId f).map Prod.fst).Nodup := by
    rw [keys_setStudy]
    exact h.keys
  have hpresent : ∀ id ∈ chain, ∃ study, (id, study) ∈ Chains.setStudy studies studyId f := by
    intro id hid
    obtain ⟨study, hrow⟩ := h.present id hid
    have hmem : (if id = studyId then (id, f study) else (id, study)) ∈
        Chains.setStudy studies studyId f := mem_setStudy.mpr ⟨_, hrow, rfl⟩
    by_cases hstudy : id = studyId
    · exact ⟨f study, by simpa [hstudy] using hmem⟩
    · exact ⟨study, by simpa [hstudy] using hmem⟩
  have hparentOf : ∀ id ∈ chain, parentOf (Chains.setStudy studies studyId f) id =
      parentOf studies id := by
    intro id hid
    obtain ⟨study, hrow⟩ := hpresent id hid
    obtain ⟨before, hbefore, hsame, hparentEq, -⟩ := exists_of_mem_setStudy hparent hrow
    obtain rfl : before.1 = id := hsame
    rw [parentOf, parentOf, (studyOf_eq_some_iff hkeys).mpr hrow,
      (studyOf_eq_some_iff h.keys).mpr hbefore]
    exact hparentEq.symm
  refine ⟨hkeys, h.nodup, hpresent, ?_, ?_, ?_⟩
  · intro id hid
    rw [hparentOf id (List.mem_of_getElem? hid)]
    exact h.root id hid
  · intro i parent child hi hchild
    rw [hparentOf child (List.mem_of_getElem? hchild)]
    exact h.linked i parent child hi hchild
  · intro row hrow i parent hi hrowParent
    obtain ⟨before, hbefore, hid, hparentEq, -⟩ := exists_of_mem_setStudy hparent hrow
    rw [← hid]
    exact h.onlyChild before hbefore i parent hi (hparentEq.trans hrowParent)

/-- The found or inserted proposal is there, and the others are as they were. -/
theorem derives_ensurePendingProposal (proposals : List ProposalRow) (studyId newId now : ℕ) :
    Derives (proposals ++ [createProposal newId now studyId])
      (ensurePendingProposal proposals studyId newId now).1 := by
  unfold ensurePendingProposal
  cases pendingProposal proposals studyId with
  | none => exact Derives.refl _
  | some existing =>
    exact fun proposal hmem => ⟨proposal, List.mem_append_left _ hmem, rfl, rfl, id⟩

/-- A step on the proposals keeps a world sound when new ones are of completed studies. -/
theorem World.Sound.of_studies (h : world.Sound) (hstudies : next.tables.studies = world.tables.studies)
    (hchain : next.chain = world.chain)
    (hnew : ∀ proposal ∈ next.tables.proposals,
      (∃ before ∈ world.tables.proposals, before.row.studyId = proposal.row.studyId) ∨
      ∃ row ∈ world.tables.studies, row.2.status = .completed ∧
        proposal.row.studyId = some row.1) : next.Sound where
  linear := by
    rw [hstudies, hchain]
    exact h.linear
  completed := by
    intro row hrow proposal hproposal hstudy
    rw [hstudies] at hrow
    rcases hnew proposal hproposal with ⟨before, hbefore, hsame⟩ | ⟨other, hother, hcompleted, hid⟩
    · exact h.completed row hrow before hbefore (hsame.trans hstudy)
    · rw [hstudy, Option.some.injEq] at hid
      rwa [List.inj_on_of_nodup_map h.linear.keys hrow hother hid]

theorem World.Sound.changeProposal (h : world.Sound) (proposalId : ℕ) (required : ProposalStatus)
    {change : Proposal → Proposal} (hstudy : ∀ row, (change row).studyId = row.studyId)
    (hstudies : next.tables.studies = world.tables.studies) (hchain : next.chain = world.chain)
    (hproposals : next.tables.proposals =
      Chains.changeProposal world.tables.proposals proposalId required change) : next.Sound := by
  refine h.of_studies hstudies hchain fun proposal hproposal => Or.inl ?_
  rw [hproposals] at hproposal
  obtain ⟨before, hbefore, rfl⟩ := List.mem_map.mp hproposal
  refine ⟨before, hbefore, ?_⟩
  split
  · exact (hstudy before.row).symm
  · rfl

/-- A stop keeps a world sound. -/
theorem World.Sound.stop (h : world.Sound) (studyId newId now : ℕ) (summary : TrialsSummary) :
    (world.step (.stop studyId newId now summary)).Sound := by
  rcases stop_cases world.tables studyId newId now summary with
    hsame | ⟨study, -, -, hstudies, hderives⟩
  · rw [World.step, hsame]
    exact h
  · have hparent : ∀ study, (Chains.completed now summary study).parentStudyId = study.parentStudyId :=
      fun _ => rfl
    constructor
    · rw [World.step, hstudies]
      exact h.linear.setStudy hparent
    · intro row hrow proposal hproposal hstudy
      rw [World.step, hstudies] at hrow
      obtain ⟨before, hbefore, hid, -, hkind⟩ := exists_of_mem_setStudy hparent hrow
      rcases hkind with ⟨hne, hsame⟩ | ⟨-, hcompleted⟩
      · rcases hderives.append hproposal with ⟨old, hold, -, hsameStudy, -⟩ | hadded
        · rw [hsame]
          exact h.completed before hbefore old hold (by rw [hsameStudy, hstudy, hid])
        · rw [hstudy, createProposal, Option.some.injEq] at hadded
          exact absurd (hid.trans hadded) hne
      · rw [hcompleted]
        rfl

/-- A digest keeps a world sound. -/
theorem World.Sound.digest (h : world.Sound) (studyId newId now : ℕ) (run : DigestRun) :
    (world.step (.digest studyId newId now run)).Sound := by
  rcases generateDigest_cases studyId newId now run world with
    hsame | ⟨⟨study, hstudy, hcompleted⟩, hafter⟩
  · rw [World.step, hsame]
    exact h
  · refine h.of_studies hafter.studies hafter.chain fun proposal hproposal => ?_
    have hderives := (derives_ensurePendingProposal _ studyId newId now).trans hafter.derives
    rcases hderives.append hproposal with ⟨old, hold, -, hsameStudy, -⟩ | hadded
    · exact Or.inl ⟨old, hold, hsameStudy⟩
    · have hrow := (studyOf_eq_some_iff h.linear.keys).mp hstudy
      exact Or.inr ⟨_, hrow, hcompleted, hadded⟩

/-- Moving a link keeps a world sound: completed links do not move. -/
theorem World.Sound.move (h : world.Sound) (studyId : ℕ) (target : StudyStatus) :
    (world.step (.move studyId target)).Sound := by
  have hparent : ∀ study, (moved target study).parentStudyId = study.parentStudyId := by
    intro study
    unfold moved
    split <;> rfl
  constructor
  · exact h.linear.setStudy hparent
  · intro row hrow proposal hproposal hstudy
    obtain ⟨before, hbefore, hid, -, hkind⟩ := exists_of_mem_setStudy hparent hrow
    have hcompleted := h.completed before hbefore proposal hproposal (hid ▸ hstudy)
    rcases hkind with ⟨-, hsame⟩ | ⟨-, hmoved⟩
    · rw [hsame]
      exact hcompleted
    · simp [hmoved, moved, hcompleted, legalTransitions]

/-- Every step keeps a world sound. -/
theorem World.Sound.step (h : world.Sound) {event : Event} (hadmits : world.Admits event) :
    (world.step event).Sound := by
  cases event with
  | stop studyId newId now summary => exact h.stop studyId newId now summary
  | digest studyId newId now run => exact h.digest studyId newId now run
  | reject proposalId reason =>
    have hstudy : ∀ row, (rejected reason row).studyId = row.studyId := fun _ => rfl
    exact h.changeProposal proposalId .pending hstudy rfl rfl rfl
  | reinstate proposalId =>
    have hstudy : ∀ row, (reinstated row).studyId = row.studyId := fun _ => rfl
    exact h.changeProposal proposalId .superseded hstudy rfl rfl rfl
  | move studyId target => exact h.move studyId target
  | followup row =>
    obtain ⟨-, hfresh, hnoProposal, hchildless, last, hlast, hparent⟩ := hadmits
    constructor
    · exact h.linear.snoc hlast hfresh hchildless hparent
    · intro other hother proposal hproposal hstudy
      rcases List.mem_append.mp hother with hold | hnew
      · exact h.completed other hold proposal hproposal hstudy
      · rw [List.mem_singleton.mp hnew] at hstudy
        exact absurd hstudy (hnoProposal proposal hproposal)

theorem World.Sound.of_reaches (h : world.Sound) (hreach : world.Reaches final) : final.Sound := by
  induction hreach with
  | refl => exact h
  | tail _ hstep ih =>
    obtain ⟨event, hadmits, rfl⟩ := hstep
    exact ih.step hadmits

/-! ## Withdrawn proposals -/

theorem Derives.not_newPending (h : Derives world.tables.proposals next.tables.proposals) :
    ¬ NewPending world next studyId := by
  rintro ⟨proposal, hmem, -, hpending, hnone⟩
  obtain ⟨before, hbefore, hid, -, hstill⟩ := h proposal hmem
  exact hnone before hbefore hid (hstill hpending)

/-- A running study has no proposals, so its stop replaces none. -/
theorem World.Sound.stop_not_newPending (h : world.Sound) (stoppedId newId now : ℕ)
    (summary : TrialsSummary) (hwithdrawn : world.Withdrawn studyId) :
    ¬ NewPending world (world.step (.stop stoppedId newId now summary)) studyId := by
  rcases stop_cases world.tables stoppedId newId now summary with
    hsame | ⟨study, hstudy, hrunning, -, hderives⟩
  · rw [World.step, hsame]
    exact (Derives.refl _).not_newPending
  · rintro ⟨proposal, hmem, hproposal, hpending, hnone⟩
    rcases hderives.append hmem with ⟨before, hbefore, hid, -, hstill⟩ | hadded
    · exact hnone before hbefore hid (hstill hpending)
    · obtain ⟨old, hold, holdStudy, -⟩ := hwithdrawn
      have hrow := (studyOf_eq_some_iff h.linear.keys).mp hstudy
      have hsame : old.row.studyId = some stoppedId := by
        rw [holdStudy, ← hproposal, hadded, createProposal]
      have hcompleted := h.completed _ hrow old hold hsame
      rw [hrunning] at hcompleted
      cases hcompleted

/-- A digest that finds a pending proposal inserts none. -/
theorem digest_derives (hpending : world.HasPending studyId) :
    Derives world.tables.proposals
      (generateDigest studyId newId now run world).tables.proposals := by
  rcases generateDigest_cases studyId newId now run world with hsame | ⟨-, hafter⟩
  · rw [hsame]
    exact Derives.refl _
  · obtain ⟨existing, hfound⟩ := pendingProposal_isSome hpending
    have hderives := hafter.derives
    rwa [ensurePendingProposal, hfound] at hderives

/-- The event is a digest of the study. -/
def Event.IsDigestOf : Event → ℕ → Prop
  | .digest digested _ _ _, studyId => digested = studyId
  | _, _ => False

/-- The event is an operator's reinstate. -/
def Event.IsReinstate : Event → Prop
  | .reinstate _ => True
  | _ => False

/-- No step but a reinstate gives a study with a withdrawn proposal a new pending
one, if a digest finds a pending proposal of its study. -/
theorem World.Sound.not_newPending (h : world.Sound) {event : Event}
    (hreinstate : ¬ event.IsReinstate)
    (hdigest : ∀ digested, event.IsDigestOf digested → world.HasPending digested)
    (hwithdrawn : world.Withdrawn studyId) : ¬ NewPending world (world.step event) studyId := by
  cases event with
  | stop stoppedId newId now summary => exact h.stop_not_newPending _ _ _ _ hwithdrawn
  | digest digested newId now run => exact (digest_derives (hdigest digested rfl)).not_newPending
  | reject proposalId reason =>
    have hstudy : ∀ row, (rejected reason row).studyId = row.studyId := fun _ => rfl
    exact Derives.not_newPending (derives_changeProposal proposalId hstudy)
  | reinstate proposalId => exact absurd trivial hreinstate
  | move studyId target => exact Derives.not_newPending (Derives.refl _)
  | followup row => exact Derives.not_newPending (Derives.refl _)

/-! ## The best link after a stop -/

/-- Among the links of `ids`, only the best one has a pending proposal. -/
def OnlyBestPending (world : World) (ids : List ℕ) : Prop :=
  ∀ studyId ∈ ids, world.HasPending studyId →
    selectBestLink (hydrate world.tables.studies ids) = some studyId

/-- No link of `ids` is in flight, and one of them is completed with a metric. -/
def Settled (studies : List StudyRow) (ids : List ℕ) : Prop :=
  (∀ row ∈ studies, row.1 ∈ ids → inFlight row.2 = false) ∧
    ∃ row ∈ studies, row.1 ∈ ids ∧ row.2.status = .completed ∧
      ∃ metric, row.2.bestMetric = some metric

/-- The walk from a link below the root returns at least two links. -/
theorem LinearChain.two_le_length {studies : List StudyRow} {chain : List ℕ}
    (h : LinearChain studies chain) (hlink : chain[i + 1]? = some studyId) :
    2 ≤ (hydrate studies (walked chain (i + 1))).length := by
  have hlt : i + 1 < chain.length := (List.getElem?_eq_some_iff.mp hlink).1
  have hcap : chainMaxDescendants + 1 = 6 := rfl
  have hlength : 2 ≤ (walked chain (i + 1)).length := by
    rw [walked, List.length_take, List.length_drop, hcap]
    unfold chainUpwardHopCap
    omega
  have hnodup : (walked chain (i + 1)).Nodup :=
    (h.nodup.sublist (List.drop_sublist _ _)).sublist (List.take_sublist _ _)
  have hsub : walked chain (i + 1) ⊆ (hydrate studies (walked chain (i + 1))).map Prod.fst := by
    intro id hid
    obtain ⟨study, hrow⟩ := h.present id (List.mem_of_mem_drop (List.mem_of_mem_take hid))
    exact List.mem_map.mpr ⟨(id, study), mem_hydrate.mpr ⟨hrow, hid⟩, rfl⟩
  have hle := (List.subperm_of_subset hnodup hsub).length_le
  rw [List.length_map] at hle
  exact hlength.trans hle

/-- The rollup of a settled part of a chain leaves the best link's proposal pending only. -/
theorem rollup_onlyBest {chain : List ℕ} (h : LinearChain tables.studies chain)
    (hlink : chain[i + 1]? = some studyId)
    (hsettled : Settled tables.studies (walked chain (i + 1))) :
    ∃ best, selectBestLink (hydrate tables.studies (walked chain (i + 1))) = some best ∧
      (markNonWinningChainProposalsSuperseded tables studyId).1 =
        { tables with proposals := (bulkMarkSuperseded tables.proposals
            (((hydrate tables.studies (walked chain (i + 1))).map Prod.fst).filter
              fun linkId => linkId != best)).1 } := by
  obtain ⟨anchor, rest, traversal, hlinks, hget, htraversal, -⟩ := h.getChainForStudy_eq hlink
  obtain ⟨hidle, row, hrow, hid, hcompleted, metric, hmetric⟩ := hsettled
  rw [← hlinks] at htraversal
  have hlong : ¬ traversal.links.length < 2 := by
    rw [htraversal]
    exact not_lt.mpr (h.two_le_length hlink)
  have hreason : ¬ deriveChainStopReason traversal.links traversal.anchorTrials =
      some .inFlight := by
    have hnone : ¬ (traversal.links.any fun link => inFlight link.2) = true := by
      rw [List.any_eq_true]
      rintro ⟨link, hmem, hflight⟩
      rw [htraversal, mem_hydrate] at hmem
      rw [hidle link hmem.1 hmem.2] at hflight
      cases hflight
    rw [deriveChainStopReason, if_neg hnone, Option.map_eq_some_iff]
    rintro ⟨tail, -, htail⟩
    exact tailStopReason_ne_inFlight _ _ htail
  have hwinner : row ∈ completedLinks (anchor :: rest) := by
    rw [← hlinks]
    exact mem_completedLinks.mpr ⟨mem_hydrate.mpr ⟨hrow, hid⟩, hcompleted, metric, hmetric⟩
  obtain ⟨best, hbest⟩ : ∃ best, bestOfCompleted (directionOf anchor)
      (completedLinks (anchor :: rest)) = some best := exists_bestOfCompleted hwinner
  have hselect : selectBestLink traversal.links = some best.1 := by
    rw [htraversal, hlinks, selectBestLink, hbest]
    rfl
  refine ⟨best.1, htraversal ▸ hselect, ?_⟩
  rw [markNonWinningChainProposalsSuperseded, Option.none_or, hget]
  dsimp only
  rw [if_neg hlong, if_neg hreason, hselect, htraversal]

/-- After the update the losers have no pending proposal. -/
theorem not_pending_of_bulkMarkSuperseded {studyIds : List ℕ} {proposal : ProposalRow}
    (hloser : studyId ∈ studyIds) (hmem : proposal ∈ (bulkMarkSuperseded proposals studyIds).1)
    (hstudy : proposal.row.studyId = some studyId) : proposal.row.status ≠ .pending := by
  rw [bulkMarkSuperseded, if_neg (List.ne_nil_of_mem hloser)] at hmem
  obtain ⟨before, -, rfl⟩ := List.mem_map.mp hmem
  by_cases hsupersedable : supersedable studyIds before = true
  · rw [if_pos hsupersedable]
    simp
  · rw [if_neg hsupersedable] at hstudy ⊢
    intro hpending
    exact hsupersedable (by simp [supersedable, hstudy, hpending, hloser])

/-- The stop of a running link below the root, when it leaves the walked links
settled, leaves a pending proposal at the best of them only. -/
theorem World.Sound.stop_onlyBestPending (h : world.Sound) {study : Study}
    (hlink : world.chain[i + 1]? = some studyId)
    (hstudy : studyOf world.tables.studies studyId = some study) (hrunning : study.status = .running)
    (hsettled : Settled (world.step (.stop studyId newId now summary)).tables.studies
      (walked world.chain (i + 1))) :
    OnlyBestPending (world.step (.stop studyId newId now summary))
      (walked world.chain (i + 1)) := by
  have hparent : ∀ study, (Chains.completed now summary study).parentStudyId =
      study.parentStudyId := fun _ => rfl
  have hlinear : LinearChain (stopped world.tables studyId newId now summary).studies
      world.chain := h.linear.setStudy hparent
  have hchild : couldBeInChain study = true := by
    have hlt : i + 1 < world.chain.length := (List.getElem?_eq_some_iff.mp hlink).1
    have hbefore : world.chain[i]? = some world.chain[i] := List.getElem?_eq_getElem (by omega)
    have hlinked := h.linear.linked i _ _ hbefore hlink
    rw [parentOf, hstudy, Option.bind_some] at hlinked
    simp [couldBeInChain, hlinked]
  have hstop : (world.step (.stop studyId newId now summary)).tables =
      (markNonWinningChainProposalsSuperseded
        (stopped world.tables studyId newId now summary) studyId).1 := by
    have hlegal : ¬ StudyStatus.completed ∉ legalTransitions study.status := by
      rw [hrunning]
      decide
    rw [World.step, Chains.stop, hstudy]
    dsimp only
    rw [if_neg hlegal, if_pos hchild, rollup_prefetched]
  have hrows := (rollup_derives (stopped world.tables studyId newId now summary) studyId).1
  rw [← hstop] at hrows
  rw [hrows] at hsettled
  obtain ⟨best, hbest, hrollup⟩ := rollup_onlyBest hlinear hlink hsettled
  intro other hother hpending
  rw [hrows, hbest, Option.some.injEq]
  by_contra hne
  obtain ⟨proposal, hmem, hproposal, hstatus⟩ := hpending
  rw [hstop, hrollup] at hmem
  obtain ⟨otherStudy, hrow⟩ := hlinear.present other
    (List.mem_of_mem_drop (List.mem_of_mem_take hother))
  have hloser : other ∈ ((hydrate (stopped world.tables studyId newId now summary).studies
      (walked world.chain (i + 1))).map Prod.fst).filter fun linkId => linkId != best :=
    List.mem_filter.mpr ⟨List.mem_map.mpr ⟨_, mem_hydrate.mpr ⟨hrow, hother⟩, rfl⟩,
      by simpa using Ne.symm hne⟩
  exact not_pending_of_bulkMarkSuperseded hloser hmem hproposal hstatus

/-- In every run on a linear chain: a step other than a reinstate, and other than
a digest that finds no pending proposal of its study, makes no proposal pending
for a study with a withdrawn one; and the stop of a link below the root that
leaves the walked links settled leaves a pending proposal at the best one only. -/
theorem chain_proposals_safe (h : world.Sound) (hreach : world.Reaches final) :
    (∀ event, final.Admits event → ¬ event.IsReinstate →
      (∀ digested, event.IsDigestOf digested → final.HasPending digested) →
      ∀ studyId, final.Withdrawn studyId → ¬ NewPending final (final.step event) studyId) ∧
    (∀ i studyId newId now summary study, final.chain[i + 1]? = some studyId →
      studyOf final.tables.studies studyId = some study → study.status = .running →
      final.Admits (.stop studyId newId now summary) →
      Settled (final.step (.stop studyId newId now summary)).tables.studies
        (walked final.chain (i + 1)) →
      OnlyBestPending (final.step (.stop studyId newId now summary))
        (walked final.chain (i + 1))) := by
  have hfinal := h.of_reaches hreach
  constructor
  · intro event _ hreinstate hdigest studyId hwithdrawn
    exact hfinal.not_newPending hreinstate hdigest hwithdrawn
  · intro i studyId newId now summary study hlink hstudy hrunning _ hsettled
    exact hfinal.stop_onlyBestPending hlink hstudy hrunning hsettled

/-! ## Runs -/

/-- A trials summary with a best trial. -/
def summaryOf (metric : ℚ) (trialId : ℕ) : TrialsSummary where
  total := 1
  complete := 1
  failed := 0
  pruned := 0
  bestPrimaryMetric := some metric
  bestTrialId := some trialId

/-- A study that runs again. -/
def running (study : Study) : Study := { study with status := .running }

theorem running_parent (study : Study) : (running study).parentStudyId = study.parentStudyId := rfl

/-- The root has stopped, its follow-up is running. -/
def runningFollowup : World where
  tables :=
    { studies := setStudy [rootLink, followupLink none] 8 running
      trials := [firstTrial]
      proposals := [pendingOf 1 7] }
  chain := [7, 8]

theorem sound_runningFollowup : runningFollowup.Sound where
  linear := (linearChain_rootLink none).setStudy running_parent
  completed := by decide

/-- The follow-up stops with a better metric: the root's proposal is superseded. -/
theorem stop_of_better_followup :
    OnlyBestPending (runningFollowup.step (.stop 8 2 5 (summaryOf (3 / 5) 3))) [7, 8] := by
  have hsettled : Settled (runningFollowup.step (.stop 8 2 5 (summaryOf (3 / 5) 3))).tables.studies
      (walked [7, 8] 1) := by
    refine ⟨by decide +kernel, (8, completed 5 (summaryOf (3 / 5) 3)
      (running (followupLink none).2)), by decide +kernel, by decide, rfl, ?_⟩
    exact ⟨3 / 5, rfl⟩
  have hfresh : runningFollowup.FreshProposal 2 := by decide
  exact (chain_proposals_safe sound_runningFollowup Relation.ReflTransGen.refl).2 0 8 2 5
    (summaryOf (3 / 5) 3) _ rfl rfl rfl hfresh hsettled

/-- A running root without follow-ups and proposals. -/
def runningRoot : World where
  tables :=
    { studies := [(7, { rootLink.2 with status := .running })]
      trials := [firstTrial] }
  chain := [7]

/-- It stops, and the operator rejects its proposal. -/
def rejectedRoot : World :=
  (runningRoot.step (.stop 7 1 3 (summaryOf (1 / 2) 2))).step (.reject 1 none)

/-- The root has stopped while both its follow-up and that one's follow-up are running. -/
def twoRunning : World where
  tables :=
    { studies := setStudy threeLinks.studies 8 running
      proposals := [pendingOf 1 7] }
  chain := [7, 8, 9]

/-- A digest inserts a pending proposal beside the rejected one; and the stop of a
link, while a later one is in flight, leaves the proposal of a worse link pending. -/
theorem digest_replaces_rejected_and_rollup_waits :
    (¬ ∀ world final : World, world.Sound → world.Reaches final → ∀ event, final.Admits event →
      ¬ event.IsReinstate → ∀ studyId, final.Withdrawn studyId →
      ¬ NewPending final (final.step event) studyId) ∧
    (¬ ∀ world final : World, world.Sound → world.Reaches final →
      ∀ i studyId newId now summary study, final.chain[i + 1]? = some studyId →
      studyOf final.tables.studies studyId = some study → study.status = .running →
      final.Admits (.stop studyId newId now summary) →
      OnlyBestPending (final.step (.stop studyId newId now summary)) final.chain) := by
  constructor
  · intro h
    have hsound : runningRoot.Sound := ⟨linearChain_single rfl, by decide⟩
    have hfirst : runningRoot.FreshProposal 1 := by decide
    have hreach : runningRoot.Reaches rejectedRoot :=
      (Relation.ReflTransGen.single ⟨.stop 7 1 3 (summaryOf (1 / 2) 2), hfirst, rfl⟩).tail
        ⟨.reject 1 none, trivial, rfl⟩
    have hsecond : rejectedRoot.FreshProposal 2 := by decide +kernel
    refine h runningRoot rejectedRoot hsound hreach (.digest 7 2 4 { }) hsecond id 7 ?_ ?_
    · exact ⟨{ createProposal 1 3 7 with row := rejected none (createProposal 1 3 7).row },
        by decide +kernel, rfl, Or.inr rfl⟩
    · exact ⟨createProposal 2 4 7, by decide +kernel, rfl, rfl, by decide +kernel⟩
  · intro h
    have hsound : twoRunning.Sound := ⟨objectiveChain_threeLinks.setStudy running_parent, by decide⟩
    have hfresh : twoRunning.FreshProposal 2 := by decide
    have hbest := h twoRunning twoRunning hsound Relation.ReflTransGen.refl 0 8 2 5
      (summaryOf (3 / 5) 3) _ rfl rfl rfl hfresh 7 (by decide)
      ⟨pendingOf 1 7, by decide +kernel, rfl, rfl⟩
    revert hbest
    decide +kernel

end RelyLoop.Chains
