import RelyLoop.Chains.Rollup

/-!
# The proposals along a chain

The steps that touch the proposals of a chain, each in its own transaction: the
stop of a link, which inserts the link's pending proposal and runs the rollup,
the digest of a link, and the operator's reject and reinstate. The other steps
start, cancel and fail links and append a follow-up.
-/

namespace RelyLoop.Chains

open Studies Proposals

/-- The chain, its tables, and the studies whose digest is persisted. -/
structure World where
  tables : Tables
  chain : List ℕ
  digests : List ℕ := []
  deriving DecidableEq, Repr

/-- The empty JSON object. -/
def emptyDiff : String := "\x7b\x7d"

/-- The row that `repo.create_proposal` inserts for a study. -/
def createProposal (newId now studyId : ℕ) : ProposalRow :=
  { id := newId, createdAt := now,
    row := { studyId := some studyId, configDiff := emptyDiff, status := .pending } }

/-- The rows with one study changed. -/
def setStudy (studies : List StudyRow) (studyId : ℕ) (f : Study → Study) : List StudyRow :=
  studies.map fun row => if row.1 = studyId then (row.1, f row.2) else row

/-- The change that `complete_study` makes. -/
def completed (now : ℕ) (summary : TrialsSummary) (study : Study) : Study :=
  { study with status := .completed, completedAt := some now,
               bestMetric := summary.bestPrimaryMetric, bestTrialId := summary.bestTrialId }

/-- `could_be_in_chain`. -/
def couldBeInChain (study : Study) : Bool :=
  study.parentStudyId.isSome || study.config.autoFollowupDepth.getD 0 != 0

/-- The tables after `complete_study` and the insert of the pending proposal. -/
def stopped (tables : Tables) (studyId newId now : ℕ) (summary : TrialsSummary) : Tables :=
  { tables with
    studies := setStudy tables.studies studyId (completed now summary)
    proposals := tables.proposals ++ [createProposal newId now studyId] }

/-- `_stop`. When `complete_study` raises, the transaction is rolled back. -/
def stop (studyId newId now : ℕ) (summary : TrialsSummary) (tables : Tables) : Tables :=
  match studyOf tables.studies studyId with
  | none => tables
  | some study =>
    if .completed ∉ legalTransitions study.status then tables
    else if couldBeInChain study then
      let after := stopped tables studyId newId now summary
      (markNonWinningChainProposalsSuperseded after studyId (getChainForStudy after studyId)).1
    else stopped tables studyId newId now summary

/-- What a run of the digest worker meets on its way. -/
structure DigestRun where
  gotLock : Bool := true
  apiKey : Bool := true
  structuredOutput : Bool := true
  pricingKnown : Bool := true
  withinBudget : Bool := true
  optunaLoads : Bool := true
  bestParams : List String := []
  declaredParams : Option (List String) := some []
  llmAnswers : Bool := true
  configDiff : String := emptyDiff
  metricDelta : Option String := none
  deriving DecidableEq, Repr

/-- `all_dropped`: no parameter of the best trial is declared any more. -/
def DigestRun.allDropped (run : DigestRun) (declared : List String) : Bool :=
  !run.bestParams.isEmpty && (run.bestParams.filter fun param => param ∈ declared).isEmpty

/-- A pending proposal of the study. -/
def pendingProposal (proposals : List ProposalRow) (studyId : ℕ) : Option ProposalRow :=
  proposals.find? fun proposal =>
    proposal.row.studyId == some studyId && proposal.row.status == .pending

/-- `_ensure_pending_proposal`: the table and the found or inserted row. -/
def ensurePendingProposal (proposals : List ProposalRow) (studyId newId now : ℕ) :
    List ProposalRow × ProposalRow :=
  match pendingProposal proposals studyId with
  | some existing => (proposals, existing)
  | none => (proposals ++ [createProposal newId now studyId], createProposal newId now studyId)

/-- `DELETE FROM proposals WHERE id = …`. -/
def deleteProposal (proposals : List ProposalRow) (proposalId : ℕ) : List ProposalRow :=
  proposals.filter fun proposal => proposal.id != proposalId

/-- One proposal is changed if it has the required status. -/
def changeProposal (proposals : List ProposalRow) (proposalId : ℕ) (required : ProposalStatus)
    (change : Proposal → Proposal) : List ProposalRow :=
  proposals.map fun proposal =>
    if proposal.id = proposalId ∧ proposal.row.status = required then
      { proposal with row := change proposal.row }
    else proposal

/-- The change that `update_proposal_for_digest` makes. -/
def DigestRun.update (run : DigestRun) (row : Proposal) : Proposal :=
  { row with configDiff := run.configDiff, metricDelta := run.metricDelta }

/-- The change that `reject_proposal` makes. -/
def rejected (reason : Option String) (row : Proposal) : Proposal :=
  { row with status := .rejected, rejectedReason := reason }

/-- The change that `reinstate_from_superseded` makes. -/
def reinstated (row : Proposal) : Proposal := { row with status := .pending }

/-- The digest of a study is persisted together with a new state of the proposals. -/
def World.persistDigest (world : World) (studyId : ℕ) (proposals : List ProposalRow) : World :=
  { world with
    tables := { world.tables with proposals := proposals }
    digests := studyId :: world.digests }

/-- `_persist_zero_trials_digest`. -/
def persistZeroTrialsDigest (world : World) (studyId newId now : ℕ) : World :=
  let (proposals, proposal) := ensurePendingProposal world.tables.proposals studyId newId now
  world.persistDigest studyId (deleteProposal proposals proposal.id)

/-- The end of `generate_digest`, from the found or inserted proposal on. A run
that gives up here is rolled back with what it inserted. -/
def finishDigest (world : World) (studyId newId now : ℕ) (run : DigestRun) : World :=
  let (proposals, proposal) := ensurePendingProposal world.tables.proposals studyId newId now
  match run.declaredParams with
  | none => world
  | some declared =>
    if !run.llmAnswers then world
    else if !run.structuredOutput then world.persistDigest studyId proposals
    else if run.allDropped declared then
      world.persistDigest studyId (deleteProposal proposals proposal.id)
    else
      world.persistDigest studyId (changeProposal proposals proposal.id .pending run.update)

/-- `generate_digest`. -/
def generateDigest (studyId newId now : ℕ) (run : DigestRun) (world : World) : World :=
  match studyOf world.tables.studies studyId with
  | none => world
  | some study =>
    if study.status ≠ .completed ∨ studyId ∈ world.digests ∨ run.gotLock = false then world
    else if study.bestMetric.isNone then persistZeroTrialsDigest world studyId newId now
    else if !(run.apiKey && run.pricingKnown && run.withinBudget && run.optunaLoads) then world
    else if world.tables.trials.any fun trial =>
        trial.studyId == studyId && some trial.id == study.bestTrialId then
      finishDigest world studyId newId now run
    else persistZeroTrialsDigest world studyId newId now

/-- A step on a link or a proposal of the chain. -/
inductive Event where
  | stop (studyId newId now : ℕ) (summary : TrialsSummary)
  | digest (studyId newId now : ℕ) (run : DigestRun)
  | reject (proposalId : ℕ) (reason : Option String)
  | reinstate (proposalId : ℕ)
  | move (studyId : ℕ) (target : StudyStatus)
  | followup (row : StudyRow)

/-- `start_study`, `cancel_study` and `fail_study`, as far as the status goes. -/
def moved (target : StudyStatus) (study : Study) : Study :=
  if target ∈ legalTransitions study.status then { study with status := target } else study

/-- One step of the chain. -/
def World.step (world : World) : Event → World
  | .stop studyId newId now summary =>
    { world with tables := Chains.stop studyId newId now summary world.tables }
  | .digest studyId newId now run => generateDigest studyId newId now run world
  | .reject proposalId reason =>
    { world with tables := { world.tables with
        proposals :=
          changeProposal world.tables.proposals proposalId .pending (rejected reason) } }
  | .reinstate proposalId =>
    { world with tables := { world.tables with
        proposals := changeProposal world.tables.proposals proposalId .superseded reinstated } }
  | .move studyId target =>
    { world with tables := { world.tables with
        studies := setStudy world.tables.studies studyId (moved target) } }
  | .followup row =>
    { world with
      tables := { world.tables with studies := world.tables.studies ++ [row] }
      chain := world.chain ++ [row.1] }

/-- The id of a row to insert is new. -/
def World.FreshProposal (world : World) (newId : ℕ) : Prop :=
  ∀ proposal ∈ world.tables.proposals, proposal.id ≠ newId

instance (world : World) (newId : ℕ) : Decidable (world.FreshProposal newId) :=
  inferInstanceAs (Decidable (∀ proposal ∈ world.tables.proposals, proposal.id ≠ newId))

/-- What holds of a step when it is taken: ids are new, only `_stop` completes a
study, and a follow-up is a queued child of the chain's last link. -/
def World.Admits (world : World) : Event → Prop
  | .stop _ newId _ _ => world.FreshProposal newId
  | .digest _ newId _ _ => world.FreshProposal newId
  | .reject _ _ => True
  | .reinstate _ => True
  | .move _ target => target ≠ .completed
  | .followup row => row.2.status = .queued ∧ row.1 ∉ world.tables.studies.map Prod.fst ∧
      (∀ proposal ∈ world.tables.proposals, proposal.row.studyId ≠ some row.1) ∧
      (∀ other ∈ world.tables.studies, other.2.parentStudyId ≠ some row.1) ∧
      ∃ last, world.chain.getLast? = some last ∧ row.2.parentStudyId = some last

/-- The worlds that a run leads to. -/
def World.Reaches : World → World → Prop :=
  Relation.ReflTransGen fun world next => ∃ event, world.Admits event ∧ next = world.step event

/-- A linear chain in which only completed studies have proposals. -/
structure World.Sound (world : World) : Prop where
  linear : LinearChain world.tables.studies world.chain
  completed : ∀ row ∈ world.tables.studies, ∀ proposal ∈ world.tables.proposals,
    proposal.row.studyId = some row.1 → row.2.status = .completed

/-- A proposal of the study has been superseded or rejected. -/
def World.Withdrawn (world : World) (studyId : ℕ) : Prop :=
  ∃ proposal ∈ world.tables.proposals, proposal.row.studyId = some studyId ∧
    (proposal.row.status = .superseded ∨ proposal.row.status = .rejected)

/-- The study has a pending proposal. -/
def World.HasPending (world : World) (studyId : ℕ) : Prop :=
  ∃ proposal ∈ world.tables.proposals, proposal.row.studyId = some studyId ∧
    proposal.row.status = .pending

/-- A proposal of the study is pending in `new` that was not in `old`. -/
def NewPending (old new : World) (studyId : ℕ) : Prop :=
  ∃ proposal ∈ new.tables.proposals, proposal.row.studyId = some studyId ∧
    proposal.row.status = .pending ∧
    ∀ before ∈ old.tables.proposals, before.id = proposal.id → before.row.status ≠ .pending

end RelyLoop.Chains
