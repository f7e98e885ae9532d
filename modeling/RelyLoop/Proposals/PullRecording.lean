import RelyLoop.Concurrency.Program
import RelyLoop.Proposals.PullRequests

/-!
# Recording a pull request

`open_pr` pushes a branch, asks GitHub for a pull request, and records it: three durable systems
without a common transaction. A delivery that finds the branch on the remote stores an error and
ends. So a delivery that dies, or does not learn the answer of GitHub, once the pull request
exists leaves it to no other delivery to record it.
-/

namespace RelyLoop.Proposals.PullRecording

open Concurrency

/-- Where a delivery of `open_pr` stands: what it does next. -/
inductive Phase where
  | idle
  /-- Load the proposal. -/
  | delivered
  /-- Find the repository and the token, and take the lock. -/
  | loaded
  /-- Load the proposal again. -/
  | locked
  /-- Clone, create the branch, and look for it on the remote. -/
  | reread
  /-- Write the parameters, commit, and push. -/
  | checked
  /-- Ask GitHub for the pull request. -/
  | pushed
  /-- Record the pull request. -/
  | created (url : String)
  /-- Store an error. -/
  | failed (error : String)
  deriving DecidableEq

/-- The phases of a delivery that has taken the lock. -/
def Phase.HoldsLock : Phase → Prop
  | locked => True
  | reread => True
  | checked => True
  | pushed => True
  | created _ => True
  | _ => False

/-- The proposal, the advisory lock of its repository, its branch and the pull requests for the
branch, and the deliveries. -/
structure State (T : Type) where
  proposalId : ℕ
  row : Proposal
  lock : Option T := none
  branch : Bool := false
  pulls : List String := []
  phase : T → Phase := fun _ => .idle

/-- What a step meets outside. -/
inductive Outcome where
  | fine
  | error (message : String)
  /-- GitHub creates the pull request, unless there is one, and answers. -/
  | answered (url : String)
  /-- GitHub creates the pull request, unless there is one, and the answer is lost. -/
  | answerLost (url message : String)

/-- What happens next. A delivery may die at any point. -/
inductive Event (T : Type) where
  | deliver (t : T)
  | advance (t : T) (outcome : Outcome)
  | crash (t : T)

namespace State

variable {T : Type} [DecidableEq T]

/-- The delivery of `t` goes on with `phase`. -/
def goto (s : State T) (t : T) (phase : Phase) : State T :=
  { s with phase := Function.update s.phase t phase }

/-- The delivery of `t` ends, and its session gives up the lock. -/
def finish (s : State T) (t : T) : State T :=
  { s with
    lock := if s.lock = some t then none else s.lock
    phase := Function.update s.phase t .idle }

/-- GitHub creates a pull request for the branch, or refuses a second one. -/
def createPull (s : State T) (url : String) : State T :=
  if s.pulls = [] then { s with pulls := [url] } else s

/-- `mark_proposal_pr_opened`. -/
def markOpened (s : State T) (url : String) : State T :=
  if s.row.status = .pending then
    { s with row := { s.row with
        prUrl := some url, prState := some .opened, status := .prOpened, prOpenError := none } }
  else s

/-- `set_proposal_pr_open_error`. -/
def setError (s : State T) (error : String) : State T :=
  if s.row.status = .pending then { s with row := { s.row with prOpenError := some error } } else s

/-- The error of a delivery that finds the branch. -/
def branchExists (s : State T) : String :=
  "BRANCH_EXISTS: branch '" ++ PullRequests.branchName s.proposalId s.row.studyId ++
    "' already exists on origin (no force-push)"

/-- One step of the delivery of `t`. -/
def advance (s : State T) (t : T) (outcome : Outcome) : State T :=
  match s.phase t with
  | .idle => s
  | .delivered => if s.row.status = .pending then s.goto t .loaded else s.finish t
  | .loaded =>
    match outcome with
    | .error message => s.goto t (.failed message)
    | _ => if s.lock = none then { s.goto t .locked with lock := some t } else s.finish t
  | .locked => if s.row.status = .pending then s.goto t .reread else s.finish t
  | .reread =>
    match outcome with
    | .error message => s.goto t (.failed message)
    | _ =>
      if s.branch then s.goto t (.failed s.branchExists) else s.goto t .checked
  | .checked =>
    match outcome with
    | .error message => s.goto t (.failed message)
    | .answerLost _ message => { s.goto t (.failed message) with branch := true }
    | _ =>
      if s.branch then s.goto t (.failed "git push failed")
      else { s.goto t .pushed with branch := true }
  | .pushed =>
    match outcome with
    | .answered url =>
      if s.pulls = [] then (s.createPull url).goto t (.created url)
      else s.goto t (.failed "GITHUB_API_FAILED: 422")
    | .answerLost url message => (s.createPull url).goto t (.failed message)
    | .error message => s.goto t (.failed message)
    | .fine => s
  | .created url => (s.markOpened url).finish t
  | .failed error => (s.setError error).finish t

/-- One event. -/
def step (s : State T) : Event T → State T
  | .deliver t => if s.phase t = .idle then s.goto t .delivered else s
  | .advance t outcome => s.advance t outcome
  | .crash t => s.finish t

/-- A run whose events all meet `cond`. -/
def Run (cond : State T → Event T → Prop) : State T → State T → Prop :=
  Relation.ReflTransGen fun s s' => ∃ e, cond s e ∧ s' = s.step e

/-- The pull request is recorded. -/
def Recorded (s : State T) : Prop :=
  s.row.status = .prOpened ∧ ∃ url ∈ s.pulls, s.row.prUrl = some url

/-- There is at most one pull request, and once there is one, a pending proposal is not beyond the
reach of deliveries that would record it. -/
structure Recordable (s : State T) : Prop where
  atMostOne : s.pulls.length ≤ 1
  notBlocked : s.pulls ≠ [] → s.row.status = .pending →
    ∃ s', Run (fun _ _ => True) s s' ∧ s'.Recorded

/-- Once GitHub has created the pull request its delivery learns the answer, and does not die. -/
def Survives (s : State T) : Event T → Prop
  | .deliver _ => True
  | .advance t outcome => ∀ url message, outcome = .answerLost url message → s.phase t ≠ .pushed
  | .crash t => ∀ url, s.phase t ≠ .created url

/-! ## All runs -/

variable {s s' : State T} {t : T} {phase : Phase} {outcome : Outcome}

/-- The deliveries agree with the lock, the remote and GitHub. -/
structure Consistent (s : State T) : Prop where
  atMostOne : s.pulls.length ≤ 1
  branch : s.pulls ≠ [] → s.branch = true
  lock : ∀ t, (s.phase t).HoldsLock → s.lock = some t
  checked : ∀ t, s.phase t = .checked → s.branch = false
  pushed : ∀ t, s.phase t = .pushed → s.branch = true ∧ s.pulls = []
  created : ∀ t url, s.phase t = .created url → url ∈ s.pulls

/-- The start of a run: nothing is delivered, and there is no pull request. -/
structure Start (s : State T) : Prop where
  lock : s.lock = none
  pulls : s.pulls = []
  phase : ∀ t, s.phase t = .idle

omit [DecidableEq T] in
theorem Start.consistent (h : s.Start) : s.Consistent where
  atMostOne := by simp [h.pulls]
  branch hpulls := absurd h.pulls hpulls
  lock t ht := by simp [h.phase t, Phase.HoldsLock] at ht
  checked t ht := by simp [h.phase t] at ht
  pushed t ht := by simp [h.phase t] at ht
  created t url ht := by simp [h.phase t] at ht

omit [DecidableEq T] in
/-- Only one delivery has the lock. -/
theorem Consistent.alone (h : s.Consistent) (ht : (s.phase t).HoldsLock) (t' : T) (hne : t' ≠ t) :
    ¬ (s.phase t').HoldsLock := fun ht' =>
  hne (Option.some.inj ((h.lock t' ht').symm.trans (h.lock t ht)))

omit [DecidableEq T] in
/-- A pull request needs the branch, so a delivery that has not found it has found none. -/
theorem Consistent.pulls_of_checked (h : s.Consistent) (ht : s.phase t = .checked) :
    s.pulls = [] := by
  by_contra hpulls
  have hbranch := h.branch hpulls
  simp [h.checked t ht] at hbranch

/-- A delivery goes on with a phase without the lock. -/
theorem Consistent.goto (h : s.Consistent) (hphase : ¬ phase.HoldsLock) :
    (s.goto t phase).Consistent := by
  have hother : ∀ t', ((s.goto t phase).phase t').HoldsLock →
      (s.goto t phase).phase t' = s.phase t' := by
    intro t' ht'
    by_cases hne : t' = t
    · subst hne
      simp [State.goto, hphase] at ht'
    · simp [State.goto, hne]
  refine ⟨h.atMostOne, h.branch, fun t' ht' => ?_, fun t' ht' => ?_, fun t' ht' => ?_,
    fun t' url ht' => ?_⟩
  · exact h.lock t' (hother t' ht' ▸ ht')
  · exact h.checked t' ((hother t' (by rw [ht']; trivial)).symm.trans ht')
  · exact h.pushed t' ((hother t' (by rw [ht']; trivial)).symm.trans ht')
  · exact h.created t' url ((hother t' (by rw [ht']; trivial)).symm.trans ht')

/-- The end of a delivery takes the lock from no other. -/
theorem Consistent.finish (h : s.Consistent) (t : T) : (s.finish t).Consistent := by
  have hidle : (s.goto t .idle).Consistent := h.goto id
  refine ⟨hidle.atMostOne, hidle.branch, fun t' ht' => ?_, hidle.checked, hidle.pushed,
    hidle.created⟩
  have hlock : s.lock = some t' := hidle.lock t' ht'
  have hne : t' ≠ t := by
    rintro rfl
    simp [State.finish, Phase.HoldsLock] at ht'
  simp [State.finish, hlock, hne]

omit [DecidableEq T] in
/-- The proposal plays no part. -/
theorem Consistent.congr_row (h : s.Consistent) (row : Proposal) :
    ({ s with row := row } : State T).Consistent :=
  ⟨h.atMostOne, h.branch, h.lock, h.checked, h.pushed, h.created⟩

omit [DecidableEq T] in
theorem Consistent.markOpened (h : s.Consistent) (url : String) :
    (s.markOpened url).Consistent := by
  unfold State.markOpened
  split
  · exact h.congr_row _
  · exact h

omit [DecidableEq T] in
theorem Consistent.setError (h : s.Consistent) (error : String) :
    (s.setError error).Consistent := by
  unfold State.setError
  split
  · exact h.congr_row _
  · exact h

/-- Where the other deliveries do not have the lock, it is enough that `t` agrees. -/
theorem consistent_of_alone (halone : ∀ t', t' ≠ t → ¬ (s.phase t').HoldsLock)
    (hphase : s'.phase = Function.update s.phase t phase)
    (hlock : phase.HoldsLock → s'.lock = some t)
    (hone : s'.pulls.length ≤ 1) (hbranch : s'.pulls ≠ [] → s'.branch = true)
    (hchecked : phase = .checked → s'.branch = false)
    (hpushed : phase = .pushed → s'.branch = true ∧ s'.pulls = [])
    (hcreated : ∀ url, phase = .created url → url ∈ s'.pulls) : s'.Consistent := by
  have hcases : ∀ t', (s'.phase t').HoldsLock → t' = t ∧ s'.phase t' = phase := by
    intro t' ht'
    rw [hphase] at ht' ⊢
    by_cases hne : t' = t
    · subst hne
      exact ⟨rfl, by simp⟩
    · rw [Function.update_of_ne hne] at ht'
      exact absurd ht' (halone t' hne)
  refine ⟨hone, hbranch, fun t' ht' => ?_, fun t' ht' => ?_, fun t' ht' => ?_,
    fun t' url ht' => ?_⟩
  · obtain ⟨rfl, heq⟩ := hcases t' ht'
    exact hlock (heq ▸ ht')
  · exact hchecked ((hcases t' (by rw [ht']; trivial)).2.symm.trans ht')
  · exact hpushed ((hcases t' (by rw [ht']; trivial)).2.symm.trans ht')
  · exact hcreated url ((hcases t' (by rw [ht']; trivial)).2.symm.trans ht')

theorem Consistent.advance (h : s.Consistent) (t : T) (outcome : Outcome) :
    (s.advance t outcome).Consistent := by
  have hholder : (s.phase t).HoldsLock →
      (∀ t', t' ≠ t → ¬ (s.phase t').HoldsLock) ∧ s.lock = some t := fun ht =>
    ⟨h.alone ht, h.lock t ht⟩
  unfold State.advance
  cases hphase : s.phase t with
  | idle => exact h
  | delivered =>
    dsimp only
    split
    · exact h.goto id
    · exact h.finish t
  | loaded =>
    dsimp only
    split
    · exact h.goto id
    split
    · rename_i hfree
      have halone : ∀ t', t' ≠ t → ¬ (s.phase t').HoldsLock := fun t' _ ht' => by
        simpa [hfree] using h.lock t' ht'
      exact consistent_of_alone halone rfl (fun _ => rfl) h.atMostOne h.branch (by simp) (by simp)
        (by simp)
    · exact h.finish t
  | locked =>
    obtain ⟨halone, hlock⟩ := hholder (by rw [hphase]; trivial)
    dsimp only
    split
    · exact consistent_of_alone halone rfl (fun _ => hlock) h.atMostOne h.branch (by simp) (by simp)
        (by simp)
    · exact h.finish t
  | reread =>
    obtain ⟨halone, hlock⟩ := hholder (by rw [hphase]; trivial)
    dsimp only
    split
    · exact h.goto id
    split
    · exact h.goto id
    · rename_i hbranch
      exact consistent_of_alone halone rfl (fun _ => hlock) h.atMostOne h.branch
        (fun _ => by simpa [State.goto] using hbranch) (by simp) (by simp)
  | checked =>
    obtain ⟨halone, hlock⟩ := hholder (by rw [hphase]; trivial)
    have hpulls := h.pulls_of_checked hphase
    dsimp only
    split
    · exact h.goto id
    · exact consistent_of_alone halone rfl (fun _ => hlock) h.atMostOne (fun _ => rfl) (by simp)
        (by simp) (by simp)
    split
    · exact h.goto id
    · exact consistent_of_alone halone rfl (fun _ => hlock) h.atMostOne (fun _ => rfl) (by simp)
        (fun _ => ⟨rfl, hpulls⟩) (by simp)
  | pushed =>
    obtain ⟨halone, hlock⟩ := hholder (by rw [hphase]; trivial)
    obtain ⟨hbranch, hpulls⟩ := h.pushed t hphase
    have hcreate : ∀ url, s.createPull url = { s with pulls := [url] } := fun url => by
      simp [State.createPull, hpulls]
    dsimp only
    split
    · rw [if_pos hpulls, hcreate]
      exact consistent_of_alone halone rfl (fun _ => hlock) (by simp [State.goto])
        (fun _ => hbranch) (by simp) (by simp) (by simp [State.goto])
    · rw [hcreate]
      exact consistent_of_alone halone rfl (fun _ => hlock) (by simp [State.goto])
        (fun _ => hbranch) (by simp) (by simp) (by simp)
    · exact h.goto id
    · exact h
  | created url => exact (h.markOpened url).finish t
  | failed error => exact (h.setError error).finish t

theorem Consistent.step (h : s.Consistent) (e : Event T) : (s.step e).Consistent := by
  cases e with
  | deliver t =>
    simp only [State.step]
    split
    · exact h.goto id
    · exact h
  | advance t outcome => exact h.advance t outcome
  | crash t => exact h.finish t

theorem Consistent.run {cond : State T → Event T → Prop} (h : s.Consistent)
    (hrun : Run cond s s') : s'.Consistent :=
  EventRun.keeps (fun _ e hs _ => hs.step e) h hrun

/-! ## When the pull request can be recorded -/

/-- A pull request that is not recorded has a delivery that will record it. -/
def Attended (s : State T) : Prop :=
  s.pulls ≠ [] → s.row.status = .pending → ∃ t url, s.phase t = .created url

/-- No delivery will come to record the pull request. -/
structure Blocked (s : State T) : Prop where
  branch : s.branch = true
  pulls : s.pulls ≠ []
  pending : s.row.status = .pending
  phase : ∀ t, s.phase t ≠ .checked ∧ s.phase t ≠ .pushed ∧ ∀ url, s.phase t ≠ .created url

omit [DecidableEq T] in
@[simp] theorem pulls_setError (error : String) : (s.setError error).pulls = s.pulls := by
  unfold setError
  split <;> rfl

omit [DecidableEq T] in
@[simp] theorem branch_setError (error : String) : (s.setError error).branch = s.branch := by
  unfold setError
  split <;> rfl

omit [DecidableEq T] in
@[simp] theorem phase_setError (error : String) : (s.setError error).phase = s.phase := by
  unfold setError
  split <;> rfl

omit [DecidableEq T] in
@[simp] theorem status_setError (error : String) :
    (s.setError error).row.status = s.row.status := by
  unfold setError
  split <;> rfl

omit [DecidableEq T] in
/-- After the record the proposal is not pending. -/
theorem status_markOpened (url : String) : (s.markOpened url).row.status ≠ .pending := by
  unfold markOpened
  split
  · simp
  · assumption

/-- A delivery that was not about to record goes on, or ends, and nothing else changes. -/
theorem Attended.congr (h : s.Attended) (ht : ∀ url, s.phase t ≠ .created url)
    (hpulls : s'.pulls = s.pulls) (hstatus : s'.row.status = s.row.status)
    (hphase : s'.phase = Function.update s.phase t phase) : s'.Attended := by
  intro hsome hpending
  obtain ⟨t', url, hcreated⟩ := h (hpulls ▸ hsome) (hstatus ▸ hpending)
  refine ⟨t', url, ?_⟩
  have hne : t' ≠ t := by
    rintro rfl
    exact ht url hcreated
  rw [hphase, Function.update_of_ne hne, hcreated]

/-- In a run in which deliveries survive, a pull request stays attended. -/
theorem Attended.step (h : s.Attended) {e : Event T} (he : s.Survives e) :
    (s.step e).Attended := by
  cases e with
  | deliver t =>
    simp only [State.step]
    split
    · rename_i hidle
      exact h.congr (fun url => by simp [hidle]) rfl rfl rfl
    · exact h
  | crash t => exact h.congr he rfl rfl rfl
  | advance t outcome =>
    show (s.advance t outcome).Attended
    unfold State.advance
    cases hphase : s.phase t with
    | idle => exact h
    | created url => exact fun _ hpending => absurd hpending (status_markOpened url)
    | pushed =>
      have hother : ∀ url, s.phase t ≠ .created url := fun url => by simp [hphase]
      dsimp only
      split
      · rename_i url
        split
        · exact fun _ _ => ⟨t, url, by simp [goto]⟩
        · exact h.congr hother rfl rfl rfl
      · rename_i url message
        exact absurd hphase (he url message rfl)
      · exact h.congr hother rfl rfl rfl
      · exact h
    | failed error =>
      have hfinish : ((s.setError error).finish t).phase = Function.update s.phase t .idle := by
        simp [finish]
      exact h.congr (fun url => by simp [hphase]) (by simp [finish]) (by simp [finish]) hfinish
    | _ =>
      have hother : ∀ url, s.phase t ≠ .created url := fun url => by simp [hphase]
      dsimp only
      repeat' split
      all_goals exact h.congr hother rfl rfl rfl

theorem Blocked.congr (h : s.Blocked) (hbranch : s'.branch = s.branch)
    (hpulls : s'.pulls = s.pulls) (hstatus : s'.row.status = s.row.status)
    (hphase : s'.phase = Function.update s.phase t phase)
    (hsafe : phase ≠ .checked ∧ phase ≠ .pushed ∧ ∀ url, phase ≠ .created url) : s'.Blocked := by
  refine ⟨hbranch.trans h.branch, hpulls ▸ h.pulls, hstatus.trans h.pending, fun t' => ?_⟩
  rw [hphase]
  by_cases hne : t' = t
  · subst hne
    rwa [Function.update_self]
  · rw [Function.update_of_ne hne]
    exact h.phase t'

/-- A blocked proposal stays blocked. -/
theorem Blocked.step (h : s.Blocked) (e : Event T) : (s.step e).Blocked := by
  cases e with
  | deliver t =>
    simp only [State.step]
    split
    · exact h.congr rfl rfl rfl rfl (by simp)
    · exact h
  | crash t =>
    have hfinish : (s.finish t).phase = Function.update s.phase t .idle := rfl
    exact h.congr rfl rfl rfl hfinish (by simp)
  | advance t outcome =>
    obtain ⟨hchecked, hpushed, hcreated⟩ := h.phase t
    show (s.advance t outcome).Blocked
    unfold State.advance
    cases hphase : s.phase t with
    | idle => exact h
    | checked => exact absurd hphase hchecked
    | pushed => exact absurd hphase hpushed
    | created url => exact absurd hphase (hcreated url)
    | failed error =>
      have hfinish : ((s.setError error).finish t).phase = Function.update s.phase t .idle := by
        simp [finish]
      exact h.congr (by simp [finish]) (by simp [finish]) (by simp [finish]) hfinish (by simp)
    | reread =>
      dsimp only
      split
      · exact h.congr rfl rfl rfl rfl (by simp)
      · rw [if_pos h.branch]
        exact h.congr rfl rfl rfl rfl (by simp)
    | _ =>
      dsimp only
      repeat' split
      all_goals exact h.congr rfl rfl rfl rfl (by simp)

theorem Blocked.run {cond : State T → Event T → Prop} (h : s.Blocked) (hrun : Run cond s s') :
    s'.Blocked :=
  EventRun.keeps (fun _ e hs _ => hs.step e) h hrun

theorem Blocked.not_recordable (h : s.Blocked) : ¬ s.Recordable := by
  intro hrecordable
  obtain ⟨s', hrun, hopened, -⟩ := hrecordable.notBlocked h.pulls h.pending
  have hpending := (h.run hrun).pending
  simp [hopened] at hpending

omit [DecidableEq T] in
/-- A pull request that nobody attends to is blocked. -/
theorem Consistent.blocked (h : s.Consistent) (hs : ¬ s.Attended) : s.Blocked := by
  simp only [Attended, not_forall, not_exists] at hs
  obtain ⟨hpulls, hpending, hphase⟩ := hs
  refine ⟨h.branch hpulls, hpulls, hpending, fun t => ⟨fun ht => ?_, fun ht => ?_, hphase t⟩⟩
  · exact hpulls (h.pulls_of_checked ht)
  · exact hpulls (h.pushed t ht).2

/-- The delivery that attends to the pull request records it. -/
theorem Consistent.recordable (h : s.Consistent) (hs : s.Attended) : s.Recordable := by
  refine ⟨h.atMostOne, fun hpulls hpending => ?_⟩
  obtain ⟨t, url, hphase⟩ := hs hpulls hpending
  have hstep : (s.markOpened url).finish t = s.step (.advance t .fine) := by
    simp [State.step, State.advance, hphase]
  refine ⟨_, Relation.ReflTransGen.single ⟨.advance t .fine, trivial, hstep⟩, ?_⟩
  refine ⟨?_, url, ?_, ?_⟩
  · simp [State.finish, State.markOpened, hpending]
  · simp [State.finish, State.markOpened, hpending, h.created t url hphase]
  · simp [State.finish, State.markOpened, hpending]

/-- When a delivery dies, or loses the answer of GitHub, once the pull request of a pending proposal
exists, the proposal is blocked. -/
theorem Consistent.blocked_of_not_survives (hs : s.Consistent) (hpending : s.row.status = .pending)
    {e : Event T} (he : ¬ s.Survives e) : (s.step e).Blocked := by
  apply (hs.step e).blocked
  -- the delivery that had the lock is the only one that could attend
  have hnobody : ∀ t phase, (s.phase t).HoldsLock → ¬ phase.HoldsLock → ∀ s' : State T,
      s'.phase = Function.update s.phase t phase → s'.pulls ≠ [] → s'.row.status = .pending →
      ¬ s'.Attended := by
    intro t phase hholds hfree s' hphase hpulls hstatus hattended
    obtain ⟨t', url, hcreated⟩ := hattended hpulls hstatus
    rw [hphase] at hcreated
    by_cases hne : t' = t
    · subst hne
      rw [Function.update_self] at hcreated
      exact hfree (by rw [hcreated]; trivial)
    · rw [Function.update_of_ne hne] at hcreated
      exact hs.alone hholds t' hne (by rw [hcreated]; trivial)
  cases e with
  | deliver t => exact absurd trivial he
  | crash t =>
    simp only [Survives, not_forall, not_not] at he
    obtain ⟨url, hphase⟩ := he
    have hpulls : s.pulls ≠ [] := List.ne_nil_of_mem (hs.created t url hphase)
    exact hnobody t .idle (by rw [hphase]; trivial) id _ rfl hpulls hpending
  | advance t outcome =>
    simp only [Survives, not_forall, not_not] at he
    obtain ⟨url, message, rfl, hphase⟩ := he
    have hstep : s.step (.advance t (.answerLost url message)) =
        (s.createPull url).goto t (.failed message) := by
      simp [State.step, State.advance, hphase]
    have hcreate : s.createPull url = { s with pulls := [url] } := by
      simp [createPull, (hs.pushed t hphase).2]
    rw [hstep, hcreate]
    exact hnobody t (.failed message) (by rw [hphase]; trivial) id _ rfl
      (List.cons_ne_nil url []) hpending

/-- There is at most one pull request. As long as no delivery dies, or loses the answer of GitHub,
between the creation of the pull request and its record, the pull request of a pending proposal can
be recorded; and once a delivery has done so, the proposal stays pending in every run. -/
theorem pull_is_recordable {s₀ : State T} (hstart : s₀.Start) :
    (∀ s, Run (fun _ _ => True) s₀ s → s.pulls.length ≤ 1) ∧
    (∀ s, Run Survives s₀ s → s.Recordable) ∧
    ∀ s e s', Run (fun _ _ => True) s₀ s → s.row.status = .pending → ¬ s.Survives e →
      Run (fun _ _ => True) (s.step e) s' → s'.pulls ≠ [] ∧ s'.row.status = .pending := by
  have hs : ∀ {cond : State T → Event T → Prop} {s}, Run cond s₀ s → s.Consistent := fun hrun =>
    hstart.consistent.run hrun
  refine ⟨fun s hrun => (hs hrun).atMostOne, fun s hrun => ?_, ?_⟩
  · have hfirst : s₀.Attended := fun hpulls => absurd hstart.pulls hpulls
    have hattended : s.Attended := EventRun.keeps (fun _ e hs he => hs.step he) hfirst hrun
    exact (hs hrun).recordable hattended
  · intro s e s' hrun hpending he hrest
    have hblocked := ((hs hrun).blocked_of_not_survives hpending he).run hrest
    exact ⟨hblocked.pulls, hblocked.pending⟩

/-- A pending proposal that nobody has opened. -/
def pendingProposal : State ℕ where
  proposalId := 1
  row := { studyId := some 7, configDiff := "boost", status := .pending }

theorem pendingProposal_start : pendingProposal.Start := ⟨rfl, rfl, fun _ => rfl⟩

/-- A delivery up to the answer of GitHub. -/
def untilCreated : List (Event ℕ) :=
  .deliver 0 :: List.replicate 5 (.advance 0 .fine) ++ [.advance 0 (.answered "pull/1")]

/-- Another delivery. -/
def redelivery : List (Event ℕ) := .deliver 1 :: List.replicate 5 (.advance 1 .fine)

theorem survives_untilCreated (s : State ℕ) : ∀ e ∈ untilCreated, s.Survives e := by
  simp [untilCreated, Survives]

/-- The pull request exists, the proposal is still pending, and it can be recorded. -/
theorem pull_is_recordable_untilCreated :
    ∃ s, Run Survives pendingProposal s ∧ s.pulls = ["pull/1"] ∧ s.row.status = .pending ∧
      s.Recordable := by
  have hrun := eventRun_foldl State.step untilCreated survives_untilCreated pendingProposal
  exact ⟨_, hrun, by decide +kernel, by decide +kernel,
    (pull_is_recordable pendingProposal_start).2.1 _ hrun⟩

/-- After the crash every delivery finds the branch, and the proposal stays pending. -/
theorem crash_blocks_proposal :
    ∃ s, Run (fun _ _ => True) pendingProposal s ∧ s.pulls = ["pull/1"] ∧
      s.row.status = .pending ∧
      s.row.prOpenError =
        some "BRANCH_EXISTS: branch 'relyloop/study-7' already exists on origin (no force-push)" ∧
      (∀ s', Run (fun _ _ => True) s s' → s'.row.status = .pending) ∧ ¬ s.Recordable := by
  have hcrash : ¬ (untilCreated.foldl State.step pendingProposal).Survives (.crash 0) := fun h =>
    h "pull/1" (by decide +kernel)
  have hfree : ∀ events : List (Event ℕ), ∀ s : State ℕ, ∀ e ∈ events, True := by simp
  have hcreated := eventRun_foldl State.step untilCreated (hfree untilCreated) pendingProposal
  have hblocked := (pendingProposal_start.consistent.run hcreated).blocked_of_not_survives
    (by decide +kernel) hcrash
  have hrest := eventRun_foldl State.step redelivery (hfree redelivery)
    ((untilCreated.foldl State.step pendingProposal).step (.crash 0))
  have hrun := Relation.ReflTransGen.trans
    (Relation.ReflTransGen.tail hcreated ⟨.crash 0, trivial, rfl⟩) hrest
  have hstays := hblocked.run hrest
  exact ⟨_, hrun, by decide +kernel, hstays.pending, by decide +kernel,
    fun s' h => (hstays.run h).pending, hstays.not_recordable⟩

end State

end RelyLoop.Proposals.PullRecording
