import RelyLoop.Concurrency.TwoTables
import RelyLoop.Proposals.ProposalState

/-!
# The pointer follows the merges

While a transaction has the lock on the config repo, no other one commits a merge on
it. So the pointer that the locking read returns is still right when the transaction
commits, provided that it is the pointer of the row and not that of an object which
the session has loaded before.
-/

/-!
## The last merged proposal of a config repo

`config_repos.last_merged_proposal_id` and its two writers: the receiver of GitHub's
webhooks and the reconciler that polls GitHub. Both mark the proposal and move the
pointer in one transaction. The receiver has loaded the config repo before, to check
the signature of the request.
-/

namespace RelyLoop.Proposals

open Concurrency

/-- A row of the `config_repos` table. -/
structure ConfigRepo where
  repoUrl : String
  webhookSecretRef : Option String
  lastMergedProposalId : Option ℕ
  deriving DecidableEq, Repr

/-- The exceptions of the two writers. -/
inductive MergeError where
  | invalidSignature
  /-- `MultipleResultsFound`. -/
  | multipleResultsFound
  | proposal (e : ProposalError)
  deriving DecidableEq

/-- What the writers read besides the two tables. -/
structure MergeEnv where
  /-- Owner and repository of a URL in lower case, `none` when `validate_repo_url` raises. -/
  ownerRepoOf : String → Option (String × String)
  /-- The config repo of a proposal's cluster, `none` when the cluster has none or is
  deleted. -/
  configRepoOf : ℕ → Option ℕ

/-- A program of a session on the tables `config_repos` and `proposals`. -/
abbrev MergeDb := Program (TablesOp ℕ ConfigRepo ℕ Proposal) TablesOp.Res MergeError

/-- `lookup_config_repo_by_owner_repo`: all rows are loaded, and the session keeps the
object that is returned. -/
def lookupConfigRepoByOwnerRepo (env : MergeEnv) (needle : String × String) :
    Transaction ℕ ConfigRepo MergeError (Option (ℕ × ConfigRepo)) := do
  let rows ← Transaction.selectWhere (fun _ _ => true) fun x y => x.1 ≤ y.1
  let found := rows.find? fun row => env.ownerRepoOf row.2.repoUrl == some needle
  Program.each (fun row => Transaction.release row.1)
    (rows.filter fun row => some row.1 != found.map Prod.fst)
  return found

/-- Whether the new merge is later than the one that the loaded row points to. -/
def mergedLater (row : ConfigRepo) (prMergedAt : ℕ) : MergeDb Bool :=
  match row.lastMergedProposalId with
  | none => return true
  | some previousProposalId => do
    let tracked ← Program.perform (TablesOp.column previousProposalId)
    return (tracked.bind Proposal.prMergedAt).all fun currentTs => prMergedAt > currentTs

/-- `update_config_repo_last_merged_pointer`. The flush leaves out a pointer that the
object already has. -/
def updateConfigRepoLastMergedPointer (configRepoId proposalId prMergedAt : ℕ) : MergeDb Bool := do
  match ← Program.perform (TablesOp.first (.selectForUpdate configRepoId)) with
  | none => return false
  | some row =>
    if ← mergedLater row prMergedAt then
      Program.perform (TablesOp.first (.update configRepoId fun stored =>
        if row.lastMergedProposalId = some proposalId then stored
        else { stored with lastMergedProposalId := some proposalId }))
      return true
    else return false

/-- The merge of a proposal as both writers apply it: `mark` is the conditional update,
and the pointer follows when it has matched. -/
def applyMerge (env : MergeEnv) (mark : Db (Option Proposal)) (proposalId prMergedAt : ℕ) :
    MergeDb Unit := do
  let updated ← mark.onSecond MergeError.proposal
  if updated.isSome then
    match env.configRepoOf proposalId with
    | some configRepoId =>
      discard (updateConfigRepoLastMergedPointer configRepoId proposalId prMergedAt)
    | none => return ()
  else return ()

/-! ## The webhook receiver -/

/-- The mutation that `dispatch_event` decides on. -/
inductive Mutation where
  | none
  | merged (prMergedAt : Option ℕ)
  | closed
  | reopened
  deriving DecidableEq, Repr

/-- A request of GitHub's with a parseable repository. -/
structure WebhookEvent where
  /-- Owner and repository, in lower case. -/
  ownerRepo : String × String
  /-- Whether the signature fits the secret that is mounted for the config repo. -/
  signatureValid : Bool
  mutation : Mutation
  prUrl : String

/-- The mutation of the proposal that a request is about. -/
def mutate (env : MergeEnv) (proposalId : ℕ) : Mutation → MergeDb Unit
  | .none => return ()
  | .merged none => discard ((markProposalPrClosed proposalId).onSecond MergeError.proposal)
  | .merged (some prMergedAt) =>
    applyMerge env (markProposalPrMerged proposalId prMergedAt) proposalId prMergedAt
  | .closed => discard ((markProposalPrClosed proposalId).onSecond MergeError.proposal)
  | .reopened => discard ((markProposalPrReopened proposalId).onSecond MergeError.proposal)

/-- The webhook handler. -/
def githubWebhook (env : MergeEnv) (event : WebhookEvent) : MergeDb Unit := do
  match ← (lookupConfigRepoByOwnerRepo env event.ownerRepo).onFirst id with
  | none => throw MergeError.invalidSignature
  | some (_, configRepo) =>
    if (configRepo.webhookSecretRef.getD "").isEmpty || !event.signatureValid then
      throw MergeError.invalidSignature
    else if event.mutation = .none then return ()
    else
      match ← (lookupProposalByPrUrl event.prUrl).onSecond MergeError.proposal with
      | [] => return ()
      | [(proposalId, _)] => do
        mutate env proposalId event.mutation
        Program.perform TablesOp.commit
      | _ => throw MergeError.multipleResultsFound

/-! ## The reconciler -/

/-- What GitHub answers about a pull request. -/
inductive PullAnswer where
  | merged (mergedAt : ℕ)
  | closed
  | opened
  /-- There is no usable answer, or none was asked for. -/
  | failed
  | rateLimited
  deriving DecidableEq, Repr

/-- A proposal as the reconciler has listed it, and GitHub's answer. -/
structure Candidate where
  proposalId : ℕ
  prState : Option PrState
  answer : PullAnswer

/-- `stamp_proposal_last_polled_at`; the stamped column is left out. -/
def stampProposalLastPolledAt (proposalId : ℕ) : Db (Option Proposal) :=
  conditionalUpdate proposalId
    (fun row => row.status = .prOpened ∧ row.prState = some .closed) id

/-- The block `async with factory() as db` with its commit. -/
def inOwnSession (body : MergeDb Unit) : MergeDb Unit := do
  body
  Program.perform TablesOp.commit
  Program.perform TablesOp.rollback

/-- One candidate of `reconcile_pr_state`. -/
def reconcileCandidate (env : MergeEnv) (c : Candidate) : MergeDb Unit :=
  match c.answer with
  | .merged mergedAt =>
    inOwnSession (applyMerge env
      (if c.prState = some .closed then markProposalPrMergedFromClosed c.proposalId mergedAt
        else markProposalPrMerged c.proposalId mergedAt) c.proposalId mergedAt)
  | .closed =>
    inOwnSession (discard ((if c.prState = some .closed then stampProposalLastPolledAt c.proposalId
      else markProposalPrClosed c.proposalId).onSecond MergeError.proposal))
  | _ => return ()

/-- `reconcile_pr_state`: a rate limit ends the tick. -/
def reconcilePrState (env : MergeEnv) (candidates : List Candidate) : MergeDb Unit :=
  Program.each (reconcileCandidate env) (candidates.takeWhile (·.answer ≠ .rateLimited))

/-! ## The system -/

/-- A delivery of events about pull requests. -/
inductive Delivery where
  | webhook (event : WebhookEvent)
  | reconcile (candidates : List Candidate)

/-- The code of a delivery. -/
def Delivery.code (env : MergeEnv) : Delivery → MergeDb Unit
  | .webhook event => githubWebhook env event
  | .reconcile candidates => reconcilePrState env candidates

/-- Any number of deliveries at a time. -/
def mergeSystem (T : Type) [DecidableEq T] (env : MergeEnv) :
    System T Delivery (Tables T ℕ ConfigRepo ℕ Proposal) (TablesOp ℕ ConfigRepo ℕ Proposal)
      TablesOp.Res MergeError :=
  Tables.system (Delivery.code env)

end RelyLoop.Proposals

/-! ## Safety of the deliveries -/

namespace RelyLoop.Proposals

open Concurrency

/-! ## The greatest of the applied merges -/

section Greatest

variable {P V : Type} [LinearOrder V]

/-- The pointer is at the latest of the merges, if there are any. -/
structure PointsToGreatest (onRepo : P → Prop) (pointer : Option P) (merges : P → Option V) :
    Prop where
  target : ∀ q, pointer = some q → onRepo q ∧ (merges q).isSome
  greatest : ∀ p m, onRepo p → merges p = some m →
    ∃ q m', pointer = some q ∧ merges q = some m' ∧ m ≤ m'

variable {onRepo : P → Prop} {pointer : Option P} {merges merges' : P → Option V}

/-- Only the merges on the repo count. -/
theorem PointsToGreatest.congr (h : PointsToGreatest onRepo pointer merges)
    (hsame : ∀ p, onRepo p → merges' p = merges p) : PointsToGreatest onRepo pointer merges' where
  target q hq := by
    obtain ⟨hrepo, hmerged⟩ := h.target q hq
    exact ⟨hrepo, by rwa [hsame q hrepo]⟩
  greatest p m hp hm := by
    rw [hsame p hp] at hm
    obtain ⟨q, m', hq, hm', hle⟩ := h.greatest p m hp hm
    exact ⟨q, m', hq, by rwa [hsame q (h.target q hq).1], hle⟩

/-- A new merge moves the pointer exactly when it is later than the one it points to. -/
theorem PointsToGreatest.move [DecidableEq P] (h : PointsToGreatest onRepo pointer merges) {p : P}
    {m : V} (hp : onRepo p) (hnew : merges p = none) :
    PointsToGreatest onRepo (if (pointer.bind merges).all (m > ·) then some p else pointer)
      (Function.update merges p (some m)) := by
  have hother : ∀ q, (merges q).isSome → q ≠ p := by
    rintro q hq rfl
    simp [hnew] at hq
  cases hpointer : pointer with
  | none =>
    refine ⟨fun q hq => ?_, fun p' m' hp' hm' => ?_⟩
    · obtain rfl : p = q := by simpa using hq
      exact ⟨hp, by simp⟩
    · by_cases hself : p' = p
      · subst hself
        exact ⟨p', m', by simp, hm', le_rfl⟩
      · rw [Function.update_of_ne hself] at hm'
        obtain ⟨q, -, hq, -⟩ := h.greatest p' m' hp' hm'
        rw [hpointer] at hq
        cases hq
  | some q =>
    obtain ⟨hqrepo, hq⟩ := h.target q hpointer
    obtain ⟨current, hcurrent⟩ := Option.isSome_iff_exists.mp hq
    have hne : q ≠ p := hother q hq
    have hall : ∀ p' m', onRepo p' → merges p' = some m' → m' ≤ current := by
      intro p' m' hp' hm'
      obtain ⟨q', m'', hq', hm'', hle⟩ := h.greatest p' m' hp' hm'
      obtain rfl : q = q' := Option.some.inj (hpointer.symm.trans hq')
      rw [hcurrent] at hm''
      rwa [Option.some.inj hm'']
    by_cases hlater : m > current
    · refine ⟨fun q' hq' => ?_, fun p' m' hp' hm' => ?_⟩
      · obtain rfl : p = q' := by simpa [hcurrent, hlater] using hq'
        exact ⟨hp, by simp⟩
      · refine ⟨p, m, by simp [hcurrent, hlater], by simp, ?_⟩
        by_cases hself : p' = p
        · subst hself
          rw [Function.update_self] at hm'
          exact le_of_eq (Option.some.inj hm').symm
        · rw [Function.update_of_ne hself] at hm'
          exact (hall p' m' hp' hm').trans hlater.le
    · refine ⟨fun q' hq' => ?_, fun p' m' hp' hm' => ?_⟩
      · obtain rfl : q = q' := by simpa [hcurrent, hlater] using hq'
        exact ⟨hqrepo, by simpa [hne] using hq⟩
      · refine ⟨q, current, by simp [hcurrent, hlater], by simpa [hne] using hcurrent, ?_⟩
        by_cases hself : p' = p
        · subst hself
          rw [Function.update_self] at hm'
          rw [← Option.some.inj hm']
          exact not_lt.mp hlater
        · rw [Function.update_of_ne hself] at hm'
          exact hall p' m' hp' hm'

end Greatest

/-! ## What a transaction has done -/

/-- The time at which a proposal was merged, as far as the merge is applied. -/
def mergedAt (rows : ℕ → Option Proposal) (proposalId : ℕ) : Option ℕ :=
  (rows proposalId).bind fun row => if row.status = .prMerged then row.prMergedAt else none

/-- The pointer of a config repo. -/
def pointerOf (rows : ℕ → Option ConfigRepo) (configRepoId : ℕ) : Option ℕ :=
  (rows configRepoId).bind ConfigRepo.lastMergedProposalId

/-- The proposal belongs to the config repo. -/
def MergeEnv.OnRepo (env : MergeEnv) (configRepoId proposalId : ℕ) : Prop :=
  env.configRepoOf proposalId = some configRepoId

/-- The tables of the merges. -/
abbrev MergeTables (T : Type) := Tables T ℕ ConfigRepo ℕ Proposal

variable {T : Type} [DecidableEq T] {t : T} {w w' : MergeTables T} {proposalId : ℕ}
variable {env : MergeEnv} {configRepoId : ℕ}

/-- The transaction of `t` has written one proposal, whose merge is not committed;
`merged` is the merge that it has applied. -/
structure Marking (t : T) (proposalId : ℕ) (merged : Option ℕ) (s : Store T ℕ Proposal) :
    Prop where
  held : s.held t proposalId ≠ none
  others : ∀ p, p ≠ proposalId → s.held t p = none
  seen : (s.visible t proposalId).isSome
  before : mergedAt s.committed proposalId = none
  after : mergedAt (s.visible t) proposalId = merged

namespace Marking

variable {s s' : Store T ℕ Proposal} {merged : Option ℕ}

theorem frame (h : Marking t proposalId merged s) (hf : Store.Frame t s s') :
    Marking t proposalId merged s' where
  held := by rw [hf.held]; exact h.held
  others p hp := (hf.held p).trans (h.others p hp)
  seen := by rw [hf.visible h.held]; exact h.seen
  before := by
    have hsame := hf.committed proposalId h.held
    have hbefore := h.before
    unfold mergedAt at hbefore ⊢
    rwa [hsame]
  after := by
    have hsame := hf.visible h.held
    have hafter := h.after
    unfold mergedAt at hafter ⊢
    rwa [hsame]

/-- The transaction sees the committed merges and its own. -/
theorem view (h : Marking t proposalId merged s) :
    mergedAt (s.visible t) = Function.update (mergedAt s.committed) proposalId merged := by
  funext p
  by_cases hp : p = proposalId
  · subst hp
    rw [Function.update_self, h.after]
  · rw [Function.update_of_ne hp]
    unfold mergedAt
    rw [Store.visible_of_not_held (h.others p hp)]

end Marking

/-- What a transaction may commit: it keeps all merges, and either it has the lock on
the config repo and leaves the pointer right, or it applies no merge on it. -/
def CommitOk (env : MergeEnv) (configRepoId : ℕ) (t : T) (w : MergeTables T) : Prop :=
  (∀ p m, mergedAt w.second.committed p = some m → mergedAt (w.second.visible t) p = some m) ∧
    ((w.first.held t configRepoId ≠ none ∧ PointsToGreatest (env.OnRepo configRepoId)
        (pointerOf (w.first.visible t) configRepoId) (mergedAt (w.second.visible t))) ∨
      (w.first.held t configRepoId = none ∧ ∀ p, env.OnRepo configRepoId p →
        mergedAt (w.second.visible t) p = mergedAt w.second.committed p))

/-- A session without a transaction commits nothing. -/
theorem commitOk_of_clean (h : w.Clean t) : CommitOk env configRepoId t w := by
  have hview : w.second.visible t = w.second.committed := funext fun p => h.2.visible p
  refine ⟨fun p m hm => by rwa [hview], Or.inr ⟨h.1 configRepoId, fun p _ => by rw [hview]⟩⟩

/-- A mark that applies no merge on the config repo. -/
theorem commitOk_of_marking {merged : Option ℕ} (hfree : w.first.held t configRepoId = none)
    (h : Marking t proposalId merged w.second)
    (hother : merged = none ∨ ¬ env.OnRepo configRepoId proposalId) :
    CommitOk env configRepoId t w := by
  refine ⟨fun p m hm => ?_, Or.inr ⟨hfree, fun p hp => ?_⟩⟩
  · rw [h.view]
    by_cases hself : p = proposalId
    · subst hself
      simp [h.before] at hm
    · rwa [Function.update_of_ne hself]
  · rw [h.view]
    by_cases hself : p = proposalId
    · subst hself
      have hnone : merged = none := hother.resolve_right fun hnot => hnot hp
      rw [Function.update_self, hnone, h.before]
    · rw [Function.update_of_ne hself]

/-! ## The contract -/

/-- When a session locks the config repo, an object of it that the session has loaded
before has the pointer of the row. -/
def LocksCurrentPointer (configRepoId : ℕ) (t : T) (w : MergeTables T) :
    TablesOp ℕ ConfigRepo ℕ Proposal → Prop
  | .first (.selectForUpdate k) => k = configRepoId → ∀ loaded row,
      w.first.identity t k = some loaded → w.first.visible t k = some row →
      loaded.lastMergedProposalId = row.lastMergedProposalId
  | _ => True

/-- The pointer of the config repo is right. -/
structure PointerRight (env : MergeEnv) (configRepoId : ℕ) (w : MergeTables T) : Prop where
  found : (w.first.committed configRepoId).isSome
  right : PointsToGreatest (env.OnRepo configRepoId) (pointerOf w.first.committed configRepoId)
    (mergedAt w.second.committed)

/-- While a session has the lock on the config repo, the others apply no merge on it. -/
def MergeRely (env : MergeEnv) (configRepoId : ℕ) (t : T) (w w' : MergeTables T) : Prop :=
  w.Frame t w' ∧ (w.first.held t configRepoId ≠ none → ∀ p, env.OnRepo configRepoId p →
    mergedAt w'.second.committed p = mergedAt w.second.committed p)

/-- The agreement of the deliveries. -/
def mergeContract (T : Type) [DecidableEq T] (env : MergeEnv) (configRepoId : ℕ) :
    Contract T Delivery (MergeTables T) (TablesOp ℕ ConfigRepo ℕ Proposal) where
  inv := PointerRight env configRepoId
  change _ w w' := ∀ p m, mergedAt w.second.committed p = some m →
    mergedAt w'.second.committed p = some m
  rely := MergeRely env configRepoId
  cond := LocksCurrentPointer configRepoId
  rely_refl t w := ⟨Tables.Frame.refl t w, fun _ _ _ => rfl⟩
  rely_trans t w₁ w₂ w₃ h h' := by
    refine ⟨h.1.trans h'.1, fun hlock p hp => ?_⟩
    have hlock₂ : w₂.first.held t configRepoId ≠ none := by
      rw [h.1.1.held]
      exact hlock
    exact (h'.2 hlock₂ p hp).trans (h.2 hlock p hp)

/-- The other deliveries do not spoil what a transaction may commit. -/
theorem CommitOk.rely (h : CommitOk env configRepoId t w)
    (hrely : MergeRely env configRepoId t w w') : CommitOk env configRepoId t w' := by
  have hrow : ∀ p, w.second.held t p ≠ none →
      mergedAt (w'.second.visible t) p = mergedAt (w.second.visible t) p ∧
        mergedAt w'.second.committed p = mergedAt w.second.committed p := by
    intro p hp
    have hvisible := hrely.1.2.visible hp
    have hcommitted := hrely.1.2.committed p hp
    unfold mergedAt
    exact ⟨by rw [hvisible], by rw [hcommitted]⟩
  have hfree : ∀ p, w.second.held t p = none →
      mergedAt (w'.second.visible t) p = mergedAt w'.second.committed p := by
    intro p hp
    have hnot : w'.second.held t p = none := (hrely.1.2.held p).trans hp
    unfold mergedAt
    rw [Store.visible_of_not_held hnot]
  refine ⟨fun p m hm => ?_, ?_⟩
  · by_cases hp : w.second.held t p = none
    · rwa [hfree p hp]
    · rw [(hrow p hp).2] at hm
      rw [(hrow p hp).1]
      exact h.1 p m hm
  · rcases h.2 with ⟨hlock, hright⟩ | ⟨hfreeRepo, hsame⟩
    · have hpointer : pointerOf (w'.first.visible t) configRepoId =
          pointerOf (w.first.visible t) configRepoId := by
        unfold pointerOf
        rw [hrely.1.1.visible hlock]
      refine Or.inl ⟨by rw [hrely.1.1.held]; exact hlock, ?_⟩
      rw [hpointer]
      refine hright.congr fun p hp => ?_
      by_cases hheld : w.second.held t p = none
      · have hbefore : mergedAt (w.second.visible t) p = mergedAt w.second.committed p := by
          unfold mergedAt
          rw [Store.visible_of_not_held hheld]
        rw [hfree p hheld, hbefore, hrely.2 hlock p hp]
      · exact (hrow p hheld).1
    · refine Or.inr ⟨(hrely.1.1.held configRepoId).trans hfreeRepo, fun p hp => ?_⟩
      by_cases hheld : w.second.held t p = none
      · exact hfree p hheld
      · rw [(hrow p hheld).1, (hrow p hheld).2]
        exact hsame p hp

end RelyLoop.Proposals
