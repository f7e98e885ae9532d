import RelyLoop.Concurrency.TableBeside
import RelyLoop.Proposals.ProposalState

/-!
# Digests and pull requests

`generate_digest` fills or deletes a pending proposal of its study, and `open_pr` builds a pull
request from a pending proposal and records it. Both read the proposal, work for minutes, and
write it in the end; a rejection or the rollup of a chain may come in between. The advisory locks
only forbid orders, and are left out: what is shown here holds without them.
-/

namespace RelyLoop.Proposals.PullRequests

open Concurrency

/-! ## GitHub -/

/-- A pull request, with the diff that it was built from. -/
structure PullRequest where
  head : String
  url : String
  configDiff : String
  deriving DecidableEq

/-- The repository on GitHub, which has one pull request for a branch and one for an address. -/
structure Github where
  branches : List String := []
  pulls : List PullRequest := []
  heads : (pulls.map PullRequest.head).Nodup
  urls : (pulls.map PullRequest.url).Nodup

/-- What the worker asks of GitHub. -/
inductive GithubOp where
  | branchExistsOnRemote (branch : String)
  | push (branch : String)
  /-- `url` is the address that GitHub will choose. -/
  | createPull (branch configDiff url : String)

/-- The answers of GitHub. -/
abbrev GithubOp.Res : GithubOp → Type
  | branchExistsOnRemote _ => Bool
  | push _ => Bool
  | createPull _ _ _ => Option String

/-- GitHub without branches. -/
def emptyGithub : Github := ⟨[], [], List.nodup_nil, List.nodup_nil⟩

/-- A new pull request. -/
def Github.open (github : Github) (pull : PullRequest)
    (hhead : pull.head ∉ github.pulls.map PullRequest.head)
    (hurl : pull.url ∉ github.pulls.map PullRequest.url) : Github where
  branches := github.branches
  pulls := pull :: github.pulls
  heads := List.nodup_cons.mpr ⟨hhead, github.heads⟩
  urls := List.nodup_cons.mpr ⟨hurl, github.urls⟩

/-- A push without force is refused where the branch exists, and a second pull request for a
branch is refused. An address that is in use is not chosen. -/
def execGithub (github : Github) : (o : GithubOp) → Option (Github × o.Res)
  | .branchExistsOnRemote branch => some (github, decide (branch ∈ github.branches))
  | .push branch =>
    if branch ∈ github.branches then some (github, false)
    else some ({ github with branches := branch :: github.branches }, true)
  | .createPull branch configDiff url =>
    if hurl : url ∈ github.pulls.map PullRequest.url then none
    else if hhead : branch ∈ github.pulls.map PullRequest.head then some (github, none)
    else if branch ∈ github.branches then
      some (github.open ⟨branch, url, configDiff⟩ hhead hurl, some url)
    else some (github, none)

/-! ## The worker that opens pull requests -/

/-- A program of a worker: statements on the `proposals` table and requests to GitHub. -/
abbrev Worker := Program (BesideOp ℕ (Option Proposal) GithubOp) (BesideOp.Res GithubOp.Res)
  ProposalError

/-- `_branch_exists_on_remote`. -/
def branchExistsOnRemote (branch : String) : Worker Bool :=
  .perform (BesideOp.outside (GithubOp.branchExistsOnRemote branch))

/-- `git push`. -/
def push (branch : String) : Worker Bool := .perform (BesideOp.outside (GithubOp.push branch))

/-- The request for a pull request, answered with its address. -/
def createPull (branch configDiff url : String) : Worker (Option String) :=
  .perform (BesideOp.outside (GithubOp.createPull branch configDiff url))

/-- How the request for the pull request ends. -/
inductive PullCall where
  | unreachable (error : String)
  /-- GitHub creates the pull request, and the worker does not learn its address. -/
  | answerLost (url error : String)
  | answered (url : String)

/-- What a delivery of `open_pr` meets. -/
structure OpenPrRun where
  /-- An error of the steps before the lock: cluster, repository, template or token. -/
  preflightError : Option String := none
  gotLock : Bool := true
  /-- An error of the clone or of the new branch. -/
  prepareError : Option String := none
  /-- An error of the path, of the diff, of the file of parameters or of the commit. -/
  commitError : Option String := none
  /-- An error of a push that reached the remote. -/
  pushError : Option String := none
  pullCall : PullCall
  /-- What git or GitHub says when it refuses. -/
  refusal : String := ""

/-- `_branch_name`. -/
def branchName (proposalId : ℕ) (studyId : Option ℕ) : String :=
  match studyId with
  | some studyId => "relyloop/study-" ++ toString studyId
  | none => "relyloop/proposal-" ++ toString proposalId

/-- `_safe_set_pr_open_error`, in a session of its own. -/
def safeSetPrOpenError (proposalId : ℕ) (error : String) : Worker Unit :=
  inSession (onRows (transact (setProposalPrOpenError proposalId error)))

/-- The last write of `_do_open_pr`. -/
def recordPull (proposalId : ℕ) (url : String) : Worker Unit :=
  onRows do
    let _ ← markProposalPrOpened proposalId url
    Transaction.commit

/-- The request of `_do_open_pr` for the pull request, and what it does with the answer. -/
def requestPull (run : OpenPrRun) (proposalId : ℕ) (branch configDiff : String) : Worker Unit :=
  match run.pullCall with
  | .unreachable error => safeSetPrOpenError proposalId error
  | .answerLost url error => do
    let _ ← createPull branch configDiff url
    safeSetPrOpenError proposalId error
  | .answered url => do
    match ← createPull branch configDiff url with
    | some url => recordPull proposalId url
    | none => safeSetPrOpenError proposalId ("GITHUB_API_FAILED: 422: " ++ run.refusal)

/-- `_do_open_pr`. -/
def doOpenPr (run : OpenPrRun) (proposalId : ℕ) (proposal : Proposal) : Worker Unit := do
  let branch := branchName proposalId proposal.studyId
  match run.prepareError with
  | some error => safeSetPrOpenError proposalId error
  | none =>
    if ← branchExistsOnRemote branch then
      safeSetPrOpenError proposalId
        ("BRANCH_EXISTS: branch '" ++ branch ++ "' already exists on origin (no force-push)")
    else
      match run.commitError with
      | some error => safeSetPrOpenError proposalId error
      | none =>
        if ← push branch then
          match run.pushError with
          | some error => safeSetPrOpenError proposalId error
          | none => requestPull run proposalId branch proposal.configDiff
        else safeSetPrOpenError proposalId ("git push failed: " ++ run.refusal)

/-- `open_pr`. A delivery that does not get the lock ends, and Arq delivers the job again. -/
def openPr (run : OpenPrRun) (proposalId : ℕ) : Worker Unit := do
  match ← inSession (onRows (getProposal proposalId)) with
  | none => return
  | some proposal =>
    if proposal.status ≠ .pending then return
    else
      match run.preflightError with
      | some error => safeSetPrOpenError proposalId error
      | none =>
        if run.gotLock then
          inSession do
            match ← onRows (getProposal proposalId) with
            | none => return
            | some current =>
              if current.status ≠ .pending then return else doOpenPr run proposalId current
        else return

/-! ## The digest worker -/

/-- How a digest ends. -/
inductive DigestPath where
  | zeroTrials
  /-- The template or the answer of the language model is missing. -/
  | aborted
  | degraded
  | allDropped
  | standard (configDiff : String) (metricDelta : Option String)

/-- What a delivery of `generate_digest` meets. -/
structure DigestRun where
  /-- Whether it gets past the guards, the lock and the checks before the proposal is needed. -/
  starts : Bool := true
  /-- The row that `LIMIT 1` leaves of the pending proposals. -/
  choice : ℕ := 0
  /-- The fresh id of a proposal that is missing. -/
  newProposalId : ℕ := 0
  path : DigestPath
  /-- Whether the row of the digest is inserted, or the study has one. -/
  inserted : Bool := true

/-- `_ensure_pending_proposal`. -/
def ensurePendingProposal (studyId : ℕ) (run : DigestRun) : Db ℕ := do
  let found ← Transaction.selectWhere
    (fun _ row => decide (row.studyId = some studyId ∧ row.status = .pending)) fun _ _ => true
  match found[run.choice % found.length]? with
  | some (proposalId, _) => return proposalId
  | none =>
    Transaction.insert run.newProposalId
      { studyId := some studyId, configDiff := "\x7b\x7d", status := .pending }
    return run.newProposalId

/-- The write of a digest on its proposal. -/
def writeProposal (proposalId : ℕ) : DigestPath → Worker Unit
  | .zeroTrials => discard (deleteRow proposalId)
  | .aborted => return
  | .degraded => return
  | .allDropped => discard (deleteRow proposalId)
  | .standard configDiff metricDelta =>
    onRows (discard (updateProposalForDigest proposalId configDiff metricDelta))

/-- `generate_digest`, as far as it depends on the proposal. -/
def generateDigest (studyId : ℕ) (run : DigestRun) : Worker Unit :=
  if run.starts then
    inSession do
      let proposalId ← onRows (ensurePendingProposal studyId run)
      match run.path with
      | .aborted => return
      | path =>
        if run.inserted then do
          writeProposal proposalId path
          onRows Transaction.commit
        else onRows Transaction.rollback
  else return

/-! ## All workers -/

/-- What a session of an endpoint, of a chat tool or of the orchestrator does. -/
inductive SessionRequest where
  | get (proposalId : ℕ)
  | reject (proposalId : ℕ) (reason : Option String)
  | rollup (visited loserIds : List ℕ)

/-- The request to the repository functions. -/
def SessionRequest.toRequest : SessionRequest → Request
  | .get proposalId => .get proposalId
  | .reject proposalId reason => .reject proposalId reason
  | .rollup visited loserIds => .bulkMarkSuperseded visited loserIds

/-- The jobs. -/
inductive Job where
  | generateDigest (studyId : ℕ) (run : DigestRun)
  | openPr (proposalId : ℕ) (run : OpenPrRun)
  | session (requests : List SessionRequest)

/-- The code of a job. -/
def Job.code : Job → Worker Unit
  | .generateDigest studyId run => PullRequests.generateDigest studyId run
  | .openPr proposalId run => PullRequests.openPr run proposalId
  | .session requests => onRows (Program.each serve (requests.map SessionRequest.toRequest))

/-- The `proposals` table and GitHub. -/
abbrev World (T : Type) := Beside T ℕ (Option Proposal) Github

/-- Any number of workers and sessions. -/
def pullRequestSystem (T : Type) [DecidableEq T] :
    System T Job (World T) (BesideOp ℕ (Option Proposal) GithubOp) (BesideOp.Res GithubOp.Res)
      ProposalError :=
  besideSystem Job.code (fun _ _ => true) execGithub

end RelyLoop.Proposals.PullRequests
