import RelyLoop.Concurrency.TablesAlone
import RelyLoop.Proposals.MergeSafety

/-!
# A tick of the reconciler

`reconcile_pr_state` from the selection of its candidates on: what GitHub answers
about the pull request of a candidate, and what the tick makes of the row. A tick
runs undisturbed; the webhooks before it may have left any row.
-/

namespace RelyLoop.Proposals

open Concurrency

/-! ## GitHub's answers -/

/-- The body of a response, as far as it is read; `none` is no text. -/
structure PullPayload where
  merged : Bool
  state : Option String
  mergedAt : Option String
  deriving DecidableEq, Repr

/-- The outcome of `GET /repos/{owner}/{repo}/pulls/{number}`. -/
inductive PullResponse where
  | requestError
  | response (statusCode : ℕ) (payload : PullPayload)
  deriving DecidableEq, Repr

/-- What a tick reads besides the two tables. -/
structure PollEnv where
  merge : MergeEnv
  /-- The value of a character of the class `\d`. -/
  decimalDigit : Char → Option ℕ
  /-- `datetime.fromisoformat`, `none` when it raises. -/
  fromIsoFormat : String → Option ℕ
  /-- The token that is mounted for the config repo of an owner and a repository. -/
  tokenOf : String → String → Option String
  github : String → String → String → ℕ → PullResponse

/-- A character of `[a-zA-Z0-9._-]`. -/
def isSlugChar (c : Char) : Bool := c.isAlphanum || c == '.' || c == '_' || c == '-'

/-- The number of a nonempty text of digits; the `$` of the pattern allows a line break
after it. -/
def parseNumber (env : PollEnv) (text : List Char) : Option ℕ :=
  let digits := if text.getLast? = some '\n' then text.dropLast else text
  if digits.isEmpty then none
  else (digits.mapM env.decimalDigit).map fun values => values.foldl (fun n d => 10 * n + d) 0

/-- `_parse_pr_url`. -/
def parsePrUrl (env : PollEnv) (prUrl : String) : Option (String × String × ℕ) :=
  match prUrl.toList.splitOn '/' with
  | [scheme, [], host, owner, repo, pull, number] =>
    if scheme = "https:".toList ∧ host = "github.com".toList ∧ pull = "pull".toList ∧
        ¬owner.isEmpty ∧ owner.all isSlugChar ∧ ¬repo.isEmpty ∧ repo.all isSlugChar then
      (parseNumber env number).map fun n => (String.ofList owner, String.ofList repo, n)
    else none
  | _ => none

/-- `raw.replace("Z", "+00:00")`. -/
def withOffset (raw : String) : String :=
  String.ofList (raw.toList.flatMap fun c => if c = 'Z' then "+00:00".toList else [c])

/-- `_coerce_merged_at`. -/
def coerceMergedAt (env : PollEnv) (raw : Option String) : Option ℕ :=
  match raw with
  | none => none
  | some text => if text = "" then none else env.fromIsoFormat (withOffset text)

/-- The branches on the response. -/
def pullAnswer (env : PollEnv) : PullResponse → PullAnswer
  | .requestError => .failed
  | .response statusCode payload =>
    if statusCode = 429 then .rateLimited
    else if statusCode ∈ [401, 403, 404] ∨ 500 ≤ statusCode then .failed
    else if statusCode ≠ 200 then .failed
    else
      match payload.merged, coerceMergedAt env payload.mergedAt with
      | true, some mergedAt => .merged mergedAt
      | _, _ => if payload.state = some "closed" then .closed else .opened

/-- What the tick learns about the pull request of a proposal. -/
def observe (env : PollEnv) (proposal : Proposal) : PullAnswer :=
  match proposal.prUrl.bind (parsePrUrl env) with
  | none => .failed
  | some (owner, repo, number) =>
    match env.tokenOf owner repo with
    | none => .failed
    | some token => pullAnswer env (env.github token owner repo number)

/-! ## The tick -/

/-- A tick: its time in seconds, and two columns of the proposals that it selects by. -/
structure PollTick where
  now : ℕ
  createdAt : ℕ → ℕ
  lastPolledAt : ℕ → Option ℕ

/-- The condition of `list_pr_opened_proposals_for_reconcile`. -/
def reconcilable (tick : PollTick) (proposalId : ℕ) (row : Proposal) : Bool :=
  row.status = .prOpened && row.prUrl.isSome &&
    tick.now < tick.createdAt proposalId + 90 * 86400 &&
    !(row.prState = some .closed &&
      (tick.lastPolledAt proposalId).any fun polledAt => tick.now < polledAt + 24 * 3600)

/-- `ORDER BY created_at`. -/
def createdBefore (tick : PollTick) (x y : ℕ × Proposal) : Bool :=
  tick.createdAt x.1 ≤ tick.createdAt y.1

/-- A selected row, and what is learnt about it. -/
def candidateOf (env : PollEnv) (x : ℕ × Proposal) : Candidate where
  proposalId := x.1
  prState := x.2.prState
  answer := observe env x.2

/-- `reconcile_pr_state`. -/
def reconcileTick (env : PollEnv) (tick : PollTick) : MergeDb Unit := do
  let found ← (Transaction.selectWhere (reconcilable tick) (createdBefore tick)).onSecond
    MergeError.proposal
  Program.perform TablesOp.rollback
  reconcilePrState env.merge (found.map (candidateOf env))

/-! ## One candidate -/

deriving instance DecidableEq for Candidate

/-- Whether a candidate changes the row. -/
def Candidate.applies (c : Candidate) (row : Proposal) : Bool :=
  row.status = .prOpened &&
    match c.answer with
    | .merged _ => row.prState = if c.prState = some .closed then some .closed else some .opened
    | .closed => c.prState ≠ some .closed && row.prState = some .opened
    | _ => false

/-- The change. -/
def Candidate.change (c : Candidate) (row : Proposal) : Proposal :=
  match c.answer with
  | .merged mergedAt =>
    { row with status := .prMerged, prState := some .merged, prMergedAt := some mergedAt }
  | .closed => { row with prState := some .closed }
  | _ => row

/-- The row that a candidate leaves. -/
def Candidate.settle (c : Candidate) (row : Proposal) : Proposal :=
  if c.applies row then c.change row else row

theorem Candidate.applies_change (c : Candidate) (row : Proposal) :
    c.applies (c.change row) = false := by
  unfold applies change
  cases c.answer <;> simp

/-- A candidate that is seen twice leaves the same row. -/
theorem Candidate.settle_settle (c : Candidate) (row : Proposal) :
    c.settle (c.settle row) = c.settle row := by
  by_cases happlies : c.applies row = true
  · have hagain := c.applies_change row
    simp [settle, happlies, hagain]
  · simp [settle, happlies]

section Programs

variable {T : Type} [DecidableEq T] {t : T} {env : MergeEnv}
variable {w : Tables T ℕ ConfigRepo ℕ Proposal} {proposalId : ℕ}

open Tables

/-- The rows of the proposals that the session sees, where the given one is changed. -/
def Changed (t : T) (proposalId : ℕ) (f : Proposal → Proposal)
    (w w' : Tables T ℕ ConfigRepo ℕ Proposal) : Prop :=
  w'.second.visible t =
    Function.update (w.second.visible t) proposalId ((w.second.visible t proposalId).map f)

/-- A conditional update, and whether it has found its row. -/
theorem returns_conditionalUpdate (condition : Proposal → Bool) (values : Proposal → Proposal)
    (hfree : w.Free t) :
    Returns t (fun _ w' => Changed t proposalId
        (fun row => if condition row then values row else row) w w')
      ((conditionalUpdate proposalId condition values).onSecond MergeError.proposal) w := by
  refine Returns.seq (Returns.updateWhere proposalId condition values hfree) ?_
  rintro matched w₁ hfree₁ ⟨-, hrows⟩
  cases matched with
  | false => exact Returns.done hfree₁ hrows
  | true =>
    refine (Returns.select proposalId hfree₁).post ?_
    rintro _ w₂ ⟨hsame, -⟩
    exact hsame.trans hrows

/-- The pointer is on the first table. -/
theorem returns_updateConfigRepoLastMergedPointer (configRepoId prMergedAt : ℕ)
    (hfree : w.Free t) :
    Returns t (fun _ w' => w'.second = w.second)
      (updateConfigRepoLastMergedPointer configRepoId proposalId prMergedAt) w := by
  refine Returns.seq (Returns.first (o := .selectForUpdate configRepoId) (fun h => h) hfree) ?_
  intro row w₁ hfree₁ hsame₁
  cases row with
  | none => exact Returns.done hfree₁ hsame₁
  | some row =>
    have hlater : Returns t (fun _ w' => w' = w₁) (mergedLater row prMergedAt) w₁ := by
      unfold mergedLater
      cases row.lastMergedProposalId with
      | none => exact Returns.done hfree₁ rfl
      | some previousProposalId =>
        exact Returns.seq (Returns.column previousProposalId hfree₁)
          fun _ w₂ hfree₂ h => Returns.done hfree₂ h
    refine Returns.seq hlater ?_
    rintro later w₂ hfree₂ rfl
    cases later with
    | false => exact Returns.done hfree₂ hsame₁
    | true =>
      refine Returns.seq (Returns.first (o := .update configRepoId _) (fun h => h) hfree₂) ?_
      intro _ w₃ hfree₃ hsame₃
      exact Returns.done hfree₃ (hsame₃.trans hsame₁)

/-- A merge, with its pointer. -/
theorem returns_applyMerge {mark : Db (Option Proposal)} {prMergedAt : ℕ}
    {f : Proposal → Proposal}
    (hmark : Returns t (fun _ w' => Changed t proposalId f w w')
      (mark.onSecond MergeError.proposal) w) :
    Returns t (fun _ w' => Changed t proposalId f w w')
      (applyMerge env mark proposalId prMergedAt) w := by
  refine Returns.seq hmark fun updated w₁ hfree₁ hchanged => ?_
  cases updated with
  | none => exact Returns.done hfree₁ hchanged
  | some row =>
    simp only [Option.isSome_some, if_true]
    cases env.configRepoOf proposalId with
    | none => exact Returns.done hfree₁ hchanged
    | some configRepoId =>
      refine Returns.seq (returns_updateConfigRepoLastMergedPointer configRepoId prMergedAt
        hfree₁) fun _ w₂ hfree₂ hsame => Returns.done hfree₂ ?_
      rwa [Changed, hsame]

/-- The block of a session. -/
theorem returns_inOwnSession {body : MergeDb Unit} {f : Proposal → Proposal}
    (hbody : Returns t (fun _ w' => Changed t proposalId f w w') body w) :
    Returns t (fun _ w' => Changed t proposalId f w w' ∧ w'.second.Clean t)
      (inOwnSession body) w := by
  refine Returns.seq hbody fun _ w₁ hfree₁ hchanged => ?_
  refine Returns.seq (Returns.commit hfree₁) ?_
  rintro _ w₂ hfree₂ ⟨hrows₂, hclean₂⟩
  refine (Returns.rollback hclean₂ hfree₂).post ?_
  rintro _ w₃ ⟨hrows₃, hclean₃⟩
  exact ⟨(hrows₃.trans hrows₂).trans hchanged, hclean₃⟩

theorem Changed.congr {f f' : Proposal → Proposal} {w' : Tables T ℕ ConfigRepo ℕ Proposal}
    (h : Changed t proposalId f w w') (hf : ∀ row, f row = f' row) :
    Changed t proposalId f' w w' := by
  obtain rfl : f = f' := funext hf
  exact h

/-- A row that is left as it is. -/
theorem changed_refl {f : Proposal → Proposal} (hf : ∀ row, f row = row) :
    Changed t proposalId f w w := by
  have hid : (w.second.visible t proposalId).map f = w.second.visible t proposalId := by
    cases w.second.visible t proposalId with
    | none => rfl
    | some row => rw [Option.map_some, hf]
  rw [Changed, hid, Function.update_eq_self]

/-- One candidate of the tick. -/
theorem returns_reconcileCandidate (c : Candidate) (hclean : w.second.Clean t)
    (hfree : w.Free t) :
    Returns t (fun _ w' => Changed t c.proposalId c.settle w w' ∧ w'.second.Clean t)
      (reconcileCandidate env c) w := by
  have hsettled : ∀ {f} {p : MergeDb Unit},
      (∀ row, f row = c.settle row) →
      Returns t (fun _ w' => Changed t c.proposalId f w w' ∧ w'.second.Clean t) p w →
      Returns t (fun _ w' => Changed t c.proposalId c.settle w w' ∧ w'.second.Clean t) p w :=
    fun hf h => h.post fun _ _ h => ⟨h.1.congr hf, h.2⟩
  have hignored : (∀ row, c.settle row = row) →
      Returns t (fun _ w' => Changed t c.proposalId c.settle w w' ∧ w'.second.Clean t)
        (Program.done () : MergeDb Unit) w :=
    fun hf => Returns.done hfree ⟨changed_refl hf, hclean⟩
  unfold reconcileCandidate
  cases hanswer : c.answer with
  | merged mergedAt =>
    dsimp only
    by_cases hrecovery : c.prState = some .closed
    · rw [if_pos hrecovery]
      refine hsettled (fun row => ?_) (returns_inOwnSession (returns_applyMerge
        (returns_conditionalUpdate _ _ hfree)))
      simp [Candidate.settle, Candidate.applies, Candidate.change, hanswer, hrecovery]
    · rw [if_neg hrecovery]
      refine hsettled (fun row => ?_) (returns_inOwnSession (returns_applyMerge
        (returns_conditionalUpdate _ _ hfree)))
      simp [Candidate.settle, Candidate.applies, Candidate.change, hanswer, hrecovery]
  | closed =>
    dsimp only
    have hmark : ∀ (condition : Proposal → Bool) (values : Proposal → Proposal),
        Returns t (fun _ w' => Changed t c.proposalId
            (fun row => if condition row then values row else row) w w')
          (discard ((conditionalUpdate c.proposalId condition values).onSecond
            MergeError.proposal) : MergeDb Unit) w := fun condition values =>
      Returns.seq (returns_conditionalUpdate condition values hfree)
        fun _ _ hfree₁ h => Returns.done hfree₁ h
    by_cases hclosed : c.prState = some .closed
    · rw [if_pos hclosed]
      refine hsettled (fun row => ?_) (returns_inOwnSession (hmark _ _))
      simp [Candidate.settle, Candidate.applies, hanswer, hclosed]
    · rw [if_neg hclosed]
      refine hsettled (fun row => ?_) (returns_inOwnSession (hmark _ _))
      simp [Candidate.settle, Candidate.applies, Candidate.change, hanswer, hclosed]
  | opened => exact hignored fun row => by simp [Candidate.settle, Candidate.applies, hanswer]
  | failed => exact hignored fun row => by simp [Candidate.settle, Candidate.applies, hanswer]
  | rateLimited => exact hignored fun row => by simp [Candidate.settle, Candidate.applies, hanswer]

/-- The loop: a row whose candidates are all the same one is settled by it. -/
theorem returns_candidates (c : Candidate) (cs : List Candidate) {row : Proposal}
    (hsame : ∀ c' ∈ cs, c'.proposalId = c.proposalId → c' = c)
    (hrow : w.second.visible t c.proposalId = some row) (hclean : w.second.Clean t)
    (hfree : w.Free t) :
    Returns t (fun _ w' => w'.second.Clean t ∧ w'.second.visible t c.proposalId =
        some (if c ∈ cs then c.settle row else row))
      (Program.each (reconcileCandidate env) cs) w := by
  induction cs generalizing w row with
  | nil => exact Returns.done hfree ⟨hclean, by simp [hrow]⟩
  | cons c' cs ih =>
    refine Returns.seq (returns_reconcileCandidate c' hclean hfree) ?_
    rintro _ w₁ hfree₁ ⟨hchanged, hclean₁⟩
    have hsame' : ∀ c' ∈ cs, c'.proposalId = c.proposalId → c' = c :=
      fun c' hc' => hsame c' (List.mem_cons_of_mem _ hc')
    by_cases hc : c' = c
    · subst hc
      have hrow₁ : w₁.second.visible t c'.proposalId = some (c'.settle row) := by
        rw [hchanged, Function.update_self, hrow, Option.map_some]
      refine (ih hsame' hrow₁ hclean₁ hfree₁).post fun _ w₂ h => ⟨h.1, ?_⟩
      rw [h.2, if_pos List.mem_cons_self, Candidate.settle_settle, ite_self]
    · have hother : c.proposalId ≠ c'.proposalId :=
        fun heq => hc (hsame c' List.mem_cons_self heq.symm)
      have hrow₁ : w₁.second.visible t c.proposalId = some row := by
        rw [hchanged, Function.update_of_ne hother, hrow]
      refine (ih hsame' hrow₁ hclean₁ hfree₁).post fun _ w₂ h => ⟨h.1, ?_⟩
      simpa [Ne.symm hc] using h.2

end Programs

end RelyLoop.Proposals
