import RelyLoop.Concurrency.RowContract

/-!
# Proposals

The functions of `db/repo/proposal.py` that change a proposal, as programs of a
session on the `proposals` table, and the sessions that call them. Rejecting and
reinstating read the object, check its status and flush the change; all other
functions are conditional updates. A caller commits after each of them.
-/

namespace RelyLoop.Proposals

open Concurrency

/-- `proposals.status`. -/
inductive ProposalStatus where
  | pending
  | prOpened
  | prMerged
  | rejected
  | superseded
  deriving DecidableEq, Repr

/-- The stored text of a status. -/
def ProposalStatus.text : ProposalStatus → String
  | .pending => "pending"
  | .prOpened => "pr_opened"
  | .prMerged => "pr_merged"
  | .rejected => "rejected"
  | .superseded => "superseded"

/-- `proposals.pr_state`; `opened` is the stored `open`. -/
inductive PrState where
  | opened
  | closed
  | merged
  deriving DecidableEq, Repr

/-- A row of the `proposals` table. -/
structure Proposal where
  studyId : Option ℕ := none
  configDiff : String
  metricDelta : Option String := none
  status : ProposalStatus
  prUrl : Option String := none
  prState : Option PrState := none
  prMergedAt : Option ℕ := none
  prOpenError : Option String := none
  rejectedReason : Option String := none
  deriving DecidableEq, Repr

/-- The exceptions of the repository functions. -/
inductive ProposalError where
  | lookupError (proposalId : ℕ)
  | invalidStateTransition (proposalId : ℕ) (currentStatus : ProposalStatus)
  deriving DecidableEq

/-- The message of an exception. -/
def ProposalError.message : ProposalError → String
  | lookupError proposalId => "proposal '" ++ toString proposalId ++ "' not found"
  | invalidStateTransition proposalId currentStatus =>
    "proposal '" ++ toString proposalId ++ "' is in status '" ++ currentStatus.text ++
      "'; only 'pending' proposals can be rejected"

/-- A program of a session on the `proposals` table. -/
abbrev Db := Transaction ℕ Proposal ProposalError

/-- `get_proposal`. -/
def getProposal (proposalId : ℕ) : Db (Option Proposal) := Transaction.select proposalId

/-- `lookup_proposal_by_pr_url`. -/
def lookupProposalByPrUrl (prUrl : String) : Db (List (ℕ × Proposal)) :=
  Transaction.selectWhere (fun _ row => row.prUrl == some prUrl) fun x y => x.1 ≤ y.1

/-- The common part of `reject_proposal` and `reinstate_from_superseded`: read,
check the loaded status, flush `change` of the loaded object. -/
def readCheckWrite (proposalId : ℕ) (required : ProposalStatus)
    (change : Proposal → Proposal → Proposal) : Db Proposal := do
  match ← getProposal proposalId with
  | none => throw (.lookupError proposalId)
  | some row =>
    if row.status ≠ required then throw (.invalidStateTransition proposalId row.status)
    else do
      Transaction.update proposalId (change row)
      return change row row

/-- `reject_proposal`. The flush leaves out a reason that the object already has. -/
def rejectProposal (proposalId : ℕ) (reason : Option String) : Db Proposal :=
  readCheckWrite proposalId .pending fun loaded row =>
    { row with
      status := .rejected
      rejectedReason :=
        if loaded.rejectedReason = reason then row.rejectedReason else reason }

/-- `reinstate_from_superseded`. -/
def reinstateFromSuperseded (proposalId : ℕ) : Db Proposal :=
  readCheckWrite proposalId .superseded fun _ row => { row with status := .pending }

/-- A conditional `UPDATE … RETURNING` of one proposal. -/
def conditionalUpdate (proposalId : ℕ) (condition : Proposal → Bool)
    (values : Proposal → Proposal) : Db (Option Proposal) := do
  if ← Transaction.updateWhere proposalId condition values then getProposal proposalId
  else return none

/-- `mark_proposal_pr_opened`. -/
def markProposalPrOpened (proposalId : ℕ) (prUrl : String) : Db (Option Proposal) :=
  conditionalUpdate proposalId (fun row => row.status = .pending) fun row =>
    { row with prUrl := some prUrl, prState := some .opened, status := .prOpened,
               prOpenError := none }

/-- `set_proposal_pr_open_error`. -/
def setProposalPrOpenError (proposalId : ℕ) (error : String) : Db (Option Proposal) :=
  conditionalUpdate proposalId (fun row => row.status = .pending) fun row =>
    { row with prOpenError := some error }

/-- `mark_proposal_pr_merged`. -/
def markProposalPrMerged (proposalId prMergedAt : ℕ) : Db (Option Proposal) :=
  conditionalUpdate proposalId
    (fun row => row.status = .prOpened ∧ row.prState = some .opened) fun row =>
    { row with status := .prMerged, prState := some .merged, prMergedAt := some prMergedAt }

/-- `mark_proposal_pr_merged_from_closed`. -/
def markProposalPrMergedFromClosed (proposalId prMergedAt : ℕ) : Db (Option Proposal) :=
  conditionalUpdate proposalId
    (fun row => row.status = .prOpened ∧ row.prState = some .closed) fun row =>
    { row with status := .prMerged, prState := some .merged, prMergedAt := some prMergedAt }

/-- `mark_proposal_pr_closed`. -/
def markProposalPrClosed (proposalId : ℕ) : Db (Option Proposal) :=
  conditionalUpdate proposalId
    (fun row => row.status = .prOpened ∧ row.prState = some .opened) fun row =>
    { row with prState := some .closed }

/-- `mark_proposal_pr_reopened`. -/
def markProposalPrReopened (proposalId : ℕ) : Db (Option Proposal) :=
  conditionalUpdate proposalId
    (fun row => row.status = .prOpened ∧ row.prState = some .closed) fun row =>
    { row with prState := some .opened }

/-- `update_proposal_for_digest`. -/
def updateProposalForDigest (proposalId : ℕ) (configDiff : String)
    (metricDelta : Option String) : Db (Option Proposal) :=
  conditionalUpdate proposalId (fun row => row.status = .pending) fun row =>
    { row with configDiff := configDiff, metricDelta := metricDelta }

/-- One row of the bulk `UPDATE`. -/
def supersedeRow (studyIds : List ℕ) (proposalId : ℕ) : Db Unit :=
  discard (Transaction.updateWhere proposalId
    (fun row => (row.studyId.any fun studyId => studyId ∈ studyIds) ∧ row.status = .pending)
    fun row => { row with status := .superseded })

/-- `bulk_mark_superseded`; `visited` are the rows that the `UPDATE` comes by, in its order. -/
def bulkMarkSuperseded (visited studyIds : List ℕ) : Db Unit :=
  if studyIds = [] then pure () else Program.each (supersedeRow studyIds) visited

/-- What a session is asked to do next. -/
inductive Request where
  | get (proposalId : ℕ)
  | lookupByPrUrl (prUrl : String)
  | release (proposalId : ℕ)
  | reject (proposalId : ℕ) (reason : Option String)
  | reinstate (proposalId : ℕ)
  | markPrOpened (proposalId : ℕ) (prUrl : String)
  | setPrOpenError (proposalId : ℕ) (error : String)
  | markPrMerged (proposalId prMergedAt : ℕ)
  | markPrMergedFromClosed (proposalId prMergedAt : ℕ)
  | markPrClosed (proposalId : ℕ)
  | markPrReopened (proposalId : ℕ)
  | bulkMarkSuperseded (visited studyIds : List ℕ)
  | updateForDigest (proposalId : ℕ) (configDiff : String) (metricDelta : Option String)

/-- A repository function and its caller: `commit`, or `rollback` when it raised. -/
def transact {α : Type} (p : Db α) : Db Unit :=
  tryCatch (p >>= fun _ => Transaction.commit) fun _ => Transaction.rollback

/-- One request, as its caller runs it. -/
def serve : Request → Db Unit
  | .get proposalId => discard (getProposal proposalId)
  | .lookupByPrUrl prUrl => discard (lookupProposalByPrUrl prUrl)
  | .release proposalId => Transaction.release proposalId
  | .reject proposalId reason => transact (rejectProposal proposalId reason)
  | .reinstate proposalId => transact (reinstateFromSuperseded proposalId)
  | .markPrOpened proposalId prUrl => transact (markProposalPrOpened proposalId prUrl)
  | .setPrOpenError proposalId error => transact (setProposalPrOpenError proposalId error)
  | .markPrMerged proposalId prMergedAt => transact (markProposalPrMerged proposalId prMergedAt)
  | .markPrMergedFromClosed proposalId prMergedAt =>
    transact (markProposalPrMergedFromClosed proposalId prMergedAt)
  | .markPrClosed proposalId => transact (markProposalPrClosed proposalId)
  | .markPrReopened proposalId => transact (markProposalPrReopened proposalId)
  | .bulkMarkSuperseded visited studyIds =>
    transact (Proposals.bulkMarkSuperseded visited studyIds)
  | .updateForDigest proposalId configDiff metricDelta =>
    transact (updateProposalForDigest proposalId configDiff metricDelta)

/-- Any number of sessions on the `proposals` table, each with a list of requests. -/
def proposalSystem (T : Type) [DecidableEq T] :
    System T (List Request) (Store T ℕ Proposal) (RowOp ℕ Proposal) RowOp.Res ProposalError :=
  tableSystem fun requests => Program.each serve requests

end RelyLoop.Proposals
