import RelyLoop.Concurrency.RowContract
import RelyLoop.Studies.Records

/-!
# The study state machine

The transitions of `services/study_state.py` as programs of a session on the
`studies` table, and the sessions that run them: the API, the agent tools and
the ticks of the orchestrator. A caller commits after a transition and rolls
back when it raises.
-/

namespace RelyLoop.Studies

open Concurrency

/-- The exceptions of the state machine. -/
inductive StudyError where
  | studyNotFound (studyId : ℕ)
  | invalidStateTransition (current target : StudyStatus)
  | recursionError
  deriving DecidableEq

/-- The message of an exception; the id's own text is the message of `StudyNotFound`. -/
def StudyError.message : StudyError → String
  | studyNotFound studyId => toString studyId
  | invalidStateTransition current target =>
    "illegal transition: '" ++ current.text ++ "' → '" ++ target.text ++ "'"
  | recursionError => "maximum recursion depth exceeded"

/-- A program of a session on the `studies` table. -/
abbrev Db := Transaction ℕ Study StudyError

/-- `_LEGAL_TRANSITIONS`. -/
def legalTransitions : StudyStatus → List StudyStatus
  | .queued => [.running, .cancelled]
  | .running => [.completed, .cancelled, .failed]
  | .completed => []
  | .cancelled => []
  | .failed => []

/-- `_ensure_legal`. -/
def ensureLegal (current target : StudyStatus) : Db Unit :=
  if target ∉ legalTransitions current then throw (.invalidStateTransition current target)
  else pure ()

/-- `repo.get_study`. -/
def getStudy (studyId : ℕ) : Db (Option Study) := Transaction.select studyId

/-- The order of `repo.list_children_of_study`. -/
def createdBefore (x y : ℕ × Study) : Bool :=
  x.2.createdAt < y.2.createdAt || (x.2.createdAt == y.2.createdAt && x.1 ≤ y.1)

/-- `repo.list_children_of_study`. -/
def listChildrenOfStudy (studyId : ℕ) : Db (List (ℕ × Study)) :=
  Transaction.selectWhere (fun _ study => study.parentStudyId == some studyId) createdBefore

/-- The flush of a changed study. -/
def flush (studyId : ℕ) (f : Study → Study) : Db Unit := Transaction.update studyId f

/-- `_load_for_update`. -/
def loadForUpdate (studyId : ℕ) : Db Study := do
  match ← Transaction.selectForUpdate studyId with
  | none => throw (.studyNotFound studyId)
  | some study => return study

/-- The common part of `cancel_study`, `complete_study` and `fail_study`: load,
check, set the status together with the columns that `stamp` sets. -/
def transition (studyId : ℕ) (target : StudyStatus) (stamp : Study → Study) : Db Study := do
  let study ← loadForUpdate studyId
  ensureLegal study.status target
  flush studyId (fun row => stamp { row with status := target })
  return stamp { study with status := target }

/-- `start_study`. A study that is already running is returned unchanged. -/
def startStudy (now studyId : ℕ) : Db Study := do
  let study ← loadForUpdate studyId
  if study.status = .running then
    return study
  ensureLegal study.status .running
  flush studyId (fun row => { row with status := .running, startedAt := some now })
  return { study with status := .running, startedAt := some now }

/-- `cancel_study`. -/
def cancelStudy (now studyId : ℕ) : Db Study :=
  transition studyId .cancelled fun row => { row with completedAt := some now }

/-- `complete_study`. -/
def completeStudy (now studyId : ℕ) (bestMetric : Option ℚ) (bestTrialId : Option ℕ) : Db Study :=
  transition studyId .completed fun row =>
    { row with completedAt := some now, bestMetric := bestMetric, bestTrialId := bestTrialId }

/-- `fail_study`. -/
def failStudy (now studyId : ℕ) (failedReason : String) : Db Study :=
  transition studyId .failed fun row =>
    { row with completedAt := some now, failedReason := some failedReason }

/-- `study.status in {"queued", "running"}`. -/
def inFlight (study : Study) : Bool := study.status = .queued ∨ study.status = .running

/-- `cancel_study` where `InvalidStateTransition` is caught and logged; the
loaded study is returned then. -/
def cancelUnlessTerminal (now studyId : ℕ) (study : Study) : Db Study :=
  tryCatch (cancelStudy now studyId) fun e =>
    match e with
    | .invalidStateTransition _ _ => pure study
    | e => throw e

/-- The cascade on a parent that is not in flight: the follow-up depth of a
completed parent is set to zero. -/
def zeroFollowupDepth (studyId : ℕ) (parent : Study) : Db Study :=
  match parent.config.autoFollowupDepth with
  | some previousDepth =>
    if parent.status = .completed ∧ previousDepth > 0 then do
      let config := { parent.config with autoFollowupDepth := some 0 }
      flush studyId fun row => { row with config := config }
      return { parent with config := config }
    else return parent
  | none => return parent

/-- The cascade on the loaded parent: cancelled when in flight, else skipped. -/
def cascadeParent (now studyId : ℕ) (parent : Study) : Db Study :=
  if inFlight parent then cancelUnlessTerminal now studyId parent
  else zeroFollowupDepth studyId parent

/-- The cascade on a listed child, before its own children. -/
def cascadeChild (now : ℕ) (child : ℕ × Study) : Db Unit :=
  if inFlight child.2 then discard (cancelUnlessTerminal now child.1 child.2) else pure ()

/-- `cancel_study_with_chain_cascade` with `cascade=True`; the first number is
what is left of the interpreter's recursion limit. -/
def cascadeCancel (now : ℕ) : ℕ → ℕ → Db Study
  | 0, _ => throw .recursionError
  | fuel + 1, studyId => do
    let loaded ← loadForUpdate studyId
    let parent ← cascadeParent now studyId loaded
    let children ← listChildrenOfStudy studyId
    Program.each (fun child => do
      cascadeChild now child
      discard (cascadeCancel now fuel child.1)) children
    return parent

/-- `cancel_study_with_chain_cascade`. -/
def cancelStudyWithChainCascade (recursionLimit now studyId : ℕ) (cascade : Bool) : Db Study :=
  if cascade then cascadeCancel now recursionLimit studyId else cancelStudy now studyId

/-- What a tick of the orchestrator decides from the trials it has read. -/
inductive TickDecision where
  | goOn
  | fail (failedReason : String)
  | stop (summary : TrialsSummary)

/-- What a session is asked to do next. -/
inductive Request where
  | get (studyId : ℕ)
  | listChildren (studyId : ℕ)
  | release (studyId : ℕ)
  | start (now studyId : ℕ)
  | cancel (now studyId : ℕ) (cascade : Bool)
  | complete (now studyId : ℕ) (bestMetric : Option ℚ) (bestTrialId : Option ℕ)
  | fail (now studyId : ℕ) (failedReason : String)
  | tick (now studyId : ℕ) (decision : TickDecision)

/-- A transition and its caller: `commit`, or `rollback` when it raised. -/
def transact (p : Db Study) : Db Unit :=
  tryCatch (p >>= fun _ => Transaction.commit) fun _ => Transaction.rollback

/-- `_stop`: the study is completed with the best of the trials summary. -/
def stop (now studyId : ℕ) (summary : TrialsSummary) : Db Unit :=
  transact (completeStudy now studyId summary.bestPrimaryMetric summary.bestTrialId)

/-- The part of an orchestrator tick that uses the session: the status read,
and the transition that the stop conditions ask for. -/
def tick (now studyId : ℕ) (decision : TickDecision) : Db Unit := do
  match ← getStudy studyId with
  | none => return
  | some current =>
    if current.status ≠ .running then
      return
    match decision with
    | .goOn => return
    | .fail failedReason => transact (failStudy now studyId failedReason)
    | .stop summary => stop now studyId summary

/-- The program of a request. -/
def serve (recursionLimit : ℕ) : Request → Db Unit
  | .get studyId => discard (getStudy studyId)
  | .listChildren studyId => discard (listChildrenOfStudy studyId)
  | .release studyId => Transaction.release studyId
  | .start now studyId => transact (startStudy now studyId)
  | .cancel now studyId cascade =>
    transact (cancelStudyWithChainCascade recursionLimit now studyId cascade)
  | .complete now studyId bestMetric bestTrialId =>
    transact (completeStudy now studyId bestMetric bestTrialId)
  | .fail now studyId failedReason => transact (failStudy now studyId failedReason)
  | .tick now studyId decision => tick now studyId decision

/-- Sessions on the `studies` table: a job is the list of a session's requests. -/
def studySystem (T : Type) [DecidableEq T] (recursionLimit : ℕ) :
    System T (List Request) (Store T ℕ Study) (RowOp ℕ Study) RowOp.Res StudyError :=
  tableSystem (Program.each (serve recursionLimit))

end RelyLoop.Studies
