import RelyLoop.Proposals.ProposalState
import Mathlib.Data.List.Induction

/-!
# Requests to open a pull request

`open_pr` of the dispatch service enqueues the worker under a job id that is salted with a
digest of the last stored error. Arq drops a job whose id belongs to a queued or running job, or
to a job whose result it still keeps. The history of one proposal is a run of requests and of
outcomes of its jobs.
-/

namespace RelyLoop.Proposals.OpenPrRequests

/-- `_err`. -/
structure HttpError where
  statusCode : ℕ
  errorCode : String
  message : String
  retryable : Bool
  deriving DecidableEq

/-- The part of a proposal that `open_pr` reads. -/
structure OpenPrProposal where
  status : ProposalStatus
  clusterId : String
  prOpenError : Option String
  deriving DecidableEq

structure Cluster where
  configRepoId : Option String
  deriving DecidableEq

structure ConfigRepo where
  authRef : String
  deriving DecidableEq

/-- What `open_pr` finds beside the proposal. -/
structure Surroundings where
  getCluster : String → Option Cluster
  getConfigRepo : String → Option ConfigRepo
  readAuthSecret : String → Option String
  /-- `repr` of a text. -/
  repr : String → String
  arqPool : Bool
  /-- The type of the exception that `enqueue_job` raises. -/
  enqueueRaises : Option String

/-- A job, by the error that was stored when it was requested. -/
structure Attempt where
  error : Option String
  deriving DecidableEq

/-- The jobs of one proposal: those that are queued or running, and those whose results Arq
keeps. -/
structure Queue where
  jobs : List Attempt
  kept : List Attempt
  deriving DecidableEq

/-- `OpenPrResult`. -/
structure OpenPrResult where
  proposalId : String
  status : ProposalStatus
  message : String
  deriving DecidableEq

variable (digest : String → String) (proposalId : String)

/-- The salt of a job id. An empty error is no error. -/
def retrySuffix (prOpenError : Option String) : Option String :=
  match prOpenError with
  | none => none
  | some error => if error = "" then none else some (digest error)

/-- The id of a job. -/
def Attempt.jobId (attempt : Attempt) : String :=
  match retrySuffix digest attempt.error with
  | none => "open_pr:" ++ proposalId
  | some suffix => "open_pr:" ++ proposalId ++ ":retry-" ++ suffix

/-- `enqueue_job`: nothing happens if the id is known. -/
def Queue.enqueueJob (queue : Queue) (attempt : Attempt) : Queue :=
  if attempt.jobId digest proposalId ∈
      (queue.jobs ++ queue.kept).map (Attempt.jobId digest proposalId) then queue
  else { queue with jobs := queue.jobs ++ [attempt] }

/-- `open_pr`. -/
def openPr (surroundings : Surroundings) (queue : Queue) (found : Option OpenPrProposal) :
    Except HttpError (OpenPrResult × Queue) :=
  match found with
  | none =>
    .error ⟨404, "PROPOSAL_NOT_FOUND", "proposal " ++ proposalId ++ " not found", false⟩
  | some proposal =>
    if proposal.status ≠ .pending then
      .error ⟨409, "INVALID_STATE_TRANSITION",
        "proposal " ++ proposalId ++ " is in status '" ++ proposal.status.text ++
          "'; only 'pending' proposals can have a PR opened", false⟩
    else
      match (surroundings.getCluster proposal.clusterId).bind Cluster.configRepoId with
      | none =>
        .error ⟨422, "CLUSTER_HAS_NO_CONFIG_REPO",
          "cluster " ++ proposal.clusterId ++ " has no config_repo wired in; " ++
            "register one via POST /api/v1/config-repos and update the cluster", false⟩
      | some configRepoId =>
        match surroundings.getConfigRepo configRepoId with
        | none =>
          .error ⟨422, "CLUSTER_HAS_NO_CONFIG_REPO",
            "config_repo " ++ configRepoId ++ " not found", false⟩
        | some configRepo =>
          if surroundings.readAuthSecret configRepo.authRef = none then
            .error ⟨503, "GITHUB_NOT_CONFIGURED",
              "GitHub PAT for auth_ref=" ++ surroundings.repr configRepo.authRef ++
                " is missing or empty; populate ./secrets/<auth_ref> and retry", true⟩
          else if !surroundings.arqPool then
            .error ⟨503, "QUEUE_UNAVAILABLE",
              "Arq pool is not initialized; ensure the worker is running and retry", true⟩
          else
            match surroundings.enqueueRaises with
            | some exception =>
              .error ⟨503, "QUEUE_UNAVAILABLE",
                "Arq enqueue failed: " ++ exception ++ "; retry after the worker recovers", true⟩
            | none =>
              .ok (⟨proposalId, .pending, "PR creation queued"⟩,
                queue.enqueueJob digest proposalId ⟨proposal.prOpenError⟩)

/-! ## Histories of a proposal -/

/-- The proposal and the jobs of Arq for it. -/
structure Dispatch where
  proposal : OpenPrProposal
  queue : Queue
  deriving DecidableEq

/-- What can happen to a proposal and its jobs. -/
inductive Event where
  | request (surroundings : Surroundings)
  /-- A running job stores an error. -/
  | storeError (attempt : Attempt) (error : String)
  /-- A running job records its pull request. -/
  | markOpened (attempt : Attempt)
  /-- A job ends, for whatever reason, and Arq keeps its result. -/
  | finish (attempt : Attempt)
  /-- Arq forgets a result. -/
  | expire (attempt : Attempt)
  | reject
  | supersede
  | reinstate

/-- A conditional `UPDATE` of the proposal. -/
def Dispatch.updateWhere (w : Dispatch) (status : ProposalStatus)
    (values : OpenPrProposal → OpenPrProposal) : Dispatch :=
  if w.proposal.status = status then { w with proposal := values w.proposal } else w

/-- One event, `none` where it cannot happen. -/
def Dispatch.step (w : Dispatch) : Event → Option Dispatch
  | .request surroundings =>
    match openPr digest proposalId surroundings w.queue (some w.proposal) with
    | .ok (_, queue) => some { w with queue := queue }
    | .error _ => some w
  | .storeError attempt error =>
    if attempt ∈ w.queue.jobs then
      some (w.updateWhere .pending fun row => { row with prOpenError := some error })
    else none
  | .markOpened attempt =>
    if attempt ∈ w.queue.jobs then
      some (w.updateWhere .pending fun row =>
        { row with status := .prOpened, prOpenError := none })
    else none
  | .finish attempt =>
    if attempt ∈ w.queue.jobs then
      some { w with queue := ⟨w.queue.jobs.erase attempt, attempt :: w.queue.kept⟩ }
    else none
  | .expire attempt => some { w with queue := ⟨w.queue.jobs, w.queue.kept.erase attempt⟩ }
  | .reject => some (w.updateWhere .pending fun row => { row with status := .rejected })
  | .supersede => some (w.updateWhere .pending fun row => { row with status := .superseded })
  | .reinstate => some (w.updateWhere .superseded fun row => { row with status := .pending })

/-- The state after some events. -/
def Dispatch.run (w : Dispatch) (events : List Event) : Option Dispatch :=
  events.foldlM (Dispatch.step digest proposalId) w

/-- A proposal as it is created. -/
def created (clusterId : String) : Dispatch :=
  ⟨⟨.pending, clusterId, none⟩, ⟨[], []⟩⟩

/-- A request that succeeds while the proposal is pending and none of its jobs is queued or
running enqueues a job, under an id that no kept result has. -/
def RequestsEnqueue (w : Dispatch) : Prop :=
  w.proposal.status = .pending → w.queue.jobs = [] →
    ∀ surroundings result queue,
      openPr digest proposalId surroundings w.queue (some w.proposal) = .ok (result, queue) →
        ∃ attempt, queue.jobs = [attempt] ∧ ∀ earlier ∈ w.queue.kept,
          attempt.jobId digest proposalId ≠ earlier.jobId digest proposalId

/-- The stored error has another digest than the error before each attempt with a kept result. -/
def FreshError (w : Dispatch) : Prop :=
  ∀ earlier ∈ w.queue.kept,
    retrySuffix digest w.proposal.prOpenError ≠ retrySuffix digest earlier.error

/-- The events after which a pending proposal may be left without a job. -/
def Event.leavesAlone : Event → Bool
  | finish _ => true
  | reinstate => true
  | _ => false

/-! ## Job ids -/

variable {digest proposalId}

theorem jobId_inj {a b : Attempt} :
    a.jobId digest proposalId = b.jobId digest proposalId ↔
      retrySuffix digest a.error = retrySuffix digest b.error := by
  constructor
  · intro h
    have hchars := congrArg String.toList h
    unfold Attempt.jobId at hchars
    cases ha : retrySuffix digest a.error with
    | none =>
      cases hb : retrySuffix digest b.error with
      | none => rfl
      | some suffix =>
        rw [ha, hb] at hchars
        have hlength := congrArg List.length hchars
        simp at hlength
    | some suffix =>
      cases hb : retrySuffix digest b.error with
      | none =>
        rw [ha, hb] at hchars
        have hlength := congrArg List.length hchars
        simp at hlength
      | some suffix' =>
        rw [ha, hb] at hchars
        simp only [String.toList_append, List.append_cancel_left_eq] at hchars
        rw [String.toList_injective hchars]
  · intro h
    rw [Attempt.jobId, Attempt.jobId, h]

/-! ## The answer to a request -/

/-- A request that succeeds has found a pending proposal and hands its error to Arq. -/
theorem openPr_ok {surroundings : Surroundings} {queue queue' : Queue} {proposal : OpenPrProposal}
    {result : OpenPrResult}
    (h : openPr digest proposalId surroundings queue (some proposal) = .ok (result, queue')) :
    proposal.status = .pending ∧
      queue' = queue.enqueueJob digest proposalId ⟨proposal.prOpenError⟩ := by
  unfold openPr at h
  simp only at h
  split at h
  · cases h
  rename_i hpending
  split at h
  · cases h
  split at h
  · cases h
  split at h
  · cases h
  split at h
  · cases h
  split at h
  · cases h
  · cases h
    exact ⟨not_not.mp hpending, rfl⟩

/-- Everything that a request needs is there. -/
def allPresent : Surroundings where
  getCluster _ := some ⟨some "repo"⟩
  getConfigRepo _ := some ⟨"token"⟩
  readAuthSecret _ := some "secret"
  repr s := "'" ++ s ++ "'"
  arqPool := true
  enqueueRaises := none

theorem openPr_allPresent {queue : Queue} {proposal : OpenPrProposal}
    (h : proposal.status = .pending) :
    openPr digest proposalId allPresent queue (some proposal) =
      .ok (⟨proposalId, .pending, "PR creation queued"⟩,
        queue.enqueueJob digest proposalId ⟨proposal.prOpenError⟩) := by
  simp [openPr, allPresent, h]

/-- Requests enqueue where the stored error is fresh. -/
theorem requestsEnqueue_iff {w : Dispatch} :
    RequestsEnqueue digest proposalId w ↔
      (w.proposal.status = .pending → w.queue.jobs = [] → FreshError digest w) := by
  constructor
  · intro h hpending hjobs earlier hearlier heq
    obtain ⟨attempt, hqueued, hdiffers⟩ := h hpending hjobs _ _ _ (openPr_allPresent hpending)
    have hknown : (⟨w.proposal.prOpenError⟩ : Attempt).jobId digest proposalId ∈
        (w.queue.jobs ++ w.queue.kept).map (Attempt.jobId digest proposalId) := by
      rw [hjobs, List.nil_append]
      exact List.mem_map.mpr ⟨earlier, hearlier, jobId_inj.mpr heq.symm⟩
    rw [Queue.enqueueJob, if_pos hknown, hjobs] at hqueued
    cases hqueued
  · intro h hpending hjobs surroundings result queue hok
    obtain ⟨-, rfl⟩ := openPr_ok hok
    have hfresh := h hpending hjobs
    have hunknown : (⟨w.proposal.prOpenError⟩ : Attempt).jobId digest proposalId ∉
        (w.queue.jobs ++ w.queue.kept).map (Attempt.jobId digest proposalId) := by
      rw [hjobs, List.nil_append]
      intro hmem
      obtain ⟨earlier, hearlier, heq⟩ := List.mem_map.mp hmem
      exact hfresh earlier hearlier (jobId_inj.mp heq.symm)
    refine ⟨⟨w.proposal.prOpenError⟩, ?_, fun earlier hearlier heq => ?_⟩
    · rw [Queue.enqueueJob, if_neg hunknown, hjobs, List.nil_append]
    · exact hfresh earlier hearlier (jobId_inj.mp heq)

/-! ## Runs -/

theorem updateWhere_queue (w : Dispatch) (status : ProposalStatus)
    (values : OpenPrProposal → OpenPrProposal) : (w.updateWhere status values).queue = w.queue := by
  unfold Dispatch.updateWhere
  split <;> rfl

/-- An event that does not leave the proposal alone keeps requests enqueueing. -/
theorem requestsEnqueue_step {w w' : Dispatch} {e : Event} (he : e.leavesAlone = false)
    (hstep : w.step digest proposalId e = some w') (h : RequestsEnqueue digest proposalId w) :
    RequestsEnqueue digest proposalId w' := by
  rw [requestsEnqueue_iff] at h ⊢
  intro hpending hjobs
  cases e with
  | request surroundings =>
    simp only [Dispatch.step] at hstep
    split at hstep
    · rename_i queue hok
      obtain rfl := Option.some.inj hstep
      obtain ⟨-, rfl⟩ := openPr_ok hok
      have hkept : ∀ earlier ∈ (w.queue.enqueueJob digest proposalId
          ⟨w.proposal.prOpenError⟩).kept, earlier ∈ w.queue.kept := by
        unfold Queue.enqueueJob
        split <;> exact fun _ h => h
      have hidle : w.queue.jobs = [] := by
        unfold Queue.enqueueJob at hjobs
        split at hjobs
        · exact hjobs
        · simp at hjobs
      exact fun earlier hearlier => h hpending hidle earlier (hkept earlier hearlier)
    · obtain rfl := Option.some.inj hstep
      exact h hpending hjobs
  | storeError attempt error =>
    simp only [Dispatch.step] at hstep
    split at hstep
    · rename_i hrunning
      obtain rfl := Option.some.inj hstep
      rw [updateWhere_queue] at hjobs
      rw [hjobs] at hrunning
      cases hrunning
    · cases hstep
  | markOpened attempt =>
    simp only [Dispatch.step] at hstep
    split at hstep
    · rename_i hrunning
      obtain rfl := Option.some.inj hstep
      rw [updateWhere_queue] at hjobs
      rw [hjobs] at hrunning
      cases hrunning
    · cases hstep
  | finish attempt => cases he
  | expire attempt =>
    obtain rfl := Option.some.inj hstep
    exact fun earlier hearlier => h hpending hjobs earlier (List.mem_of_mem_erase hearlier)
  | reject =>
    obtain rfl := Option.some.inj hstep
    unfold Dispatch.updateWhere at hpending
    split at hpending
    · cases hpending
    · contradiction
  | supersede =>
    obtain rfl := Option.some.inj hstep
    unfold Dispatch.updateWhere at hpending
    split at hpending
    · cases hpending
    · contradiction
  | reinstate => cases he

theorem run_concat (w : Dispatch) (past : List Event) (e : Event) :
    w.run digest proposalId (past ++ [e]) =
      (w.run digest proposalId past).bind fun w => w.step digest proposalId e := by
  rw [Dispatch.run, List.foldlM_append]
  simp only [List.foldlM_cons, List.foldlM_nil, bind_pure]
  rfl

/-- The error of a clone that fails the same way each time. -/
def cloneFailed : String := "CLONE_FAILED: git exited 128"

/-- The digest of that error. -/
def cloneDigest (_ : String) : String := "9ad5217c"

/-- Two attempts that fail alike. -/
def twoFailures : List Event :=
  [.request allPresent, .storeError ⟨none⟩ cloneFailed, .finish ⟨none⟩,
    .request allPresent, .storeError ⟨some cloneFailed⟩ cloneFailed, .finish ⟨some cloneFailed⟩]

end RelyLoop.Proposals.OpenPrRequests
