import RelyLoop.Concurrency.Program
import RelyLoop.Studies.Records
import Mathlib.Logic.Function.Basic

/-!
# Continuing a chain after the digest

`generate_digest` commits the digest of a study, and then puts the job on the queue that continues
the chain. Both ways back after a crash, the delivery of the same job and the sweep of a worker that
boots, take the digest for the mark that everything is done. So a delivery that dies between the
two leaves the chain where it is.
-/

namespace RelyLoop.Followups.Trigger

open Concurrency Studies

/-- `digests.generated_by`. -/
inductive Generator where
  | zeroTrials
  | openai
  deriving DecidableEq

/-- A `generate_digest` job of the study: one that `_stop` has put on the queue, under an id of its
own, or the one of the sweep, whose id is `generate_digest:` and the study. -/
inductive DigestJob where
  | stopped (n : ℕ)
  | swept
  deriving DecidableEq

/-- Where a task of a worker stands: what it does next. -/
inductive Phase where
  | idle
  /-- Load the study, and look for a digest. -/
  | started
  /-- Take the lock. -/
  | loaded
  /-- Look for a digest again, and check what the digest needs. -/
  | locked
  /-- Call the language model, and commit the digest. -/
  | generating
  /-- Put the follow-up on the queue. -/
  | committed
  /-- Select what the sweep puts on the queue. -/
  | booting
  | sweeping (selected : Bool)
  deriving DecidableEq

/-- The study with its digest and its pending proposal, the queue, and the tasks of the workers. -/
structure State (T : Type) where
  study : Study
  digest : Option Generator := none
  proposalPending : Bool := true
  lock : Option T := none
  queue : List DigestJob := []
  /-- Whether Arq keeps the result of the job of the sweep. -/
  resultKept : Bool := false
  /-- Whether `enqueue_followup_study` was put on the queue. -/
  followup : Bool := false
  /-- Whether a worker has completed its sweep. -/
  swept : Bool := false
  phase : T → Phase := fun _ => .idle
  job : T → Option DigestJob := fun _ => none

/-- What a step meets outside. -/
inductive Outcome where
  | fine
  /-- A check fails, or the language model. -/
  | stops
  | bestTrialMissing
  | allDropped
  deriving DecidableEq

/-- What happens next. A task may die at any point; the job of a delivery is then delivered again,
or given up. -/
inductive Event (T : Type) where
  | enqueue (n : ℕ)
  | deliver (t : T) (job : DigestJob)
  | advance (t : T) (outcome : Outcome)
  | crash (t : T)
  | giveUp (job : DigestJob)
  | forgetResult
  | settleProposal
  | boot (t : T)

namespace State

variable {T : Type} [DecidableEq T]

/-- The task `t` goes on with `phase`. -/
def goto (s : State T) (t : T) (phase : Phase) : State T :=
  { s with phase := Function.update s.phase t phase }

/-- The process of `t` is gone, and with it its session. -/
def vanish (s : State T) (t : T) : State T :=
  { s with
    lock := if s.lock = some t then none else s.lock
    job := Function.update s.job t none
    phase := Function.update s.phase t .idle }

/-- Arq takes a job from the queue for good. -/
def take (s : State T) (job : DigestJob) : State T :=
  { s with queue := s.queue.erase job, resultKept := s.resultKept || decide (job = .swept) }

/-- A delivery ends. -/
def finish (s : State T) (t : T) : State T :=
  match s.job t with
  | some job => (s.take job).vanish t
  | none => s.vanish t

/-- `enqueue_job` under the id of the sweep: nothing happens if the id is known. -/
def enqueueSwept (s : State T) : State T :=
  if .swept ∈ s.queue ∨ s.resultKept then s else { s with queue := s.queue ++ [.swept] }

/-- `_persist_zero_trials_digest`. -/
def persistZeroTrials (s : State T) : State T :=
  { s with digest := some .zeroTrials, proposalPending := false }

/-- The commit of a digest: a study has one. -/
def persist (s : State T) (t : T) (allDropped : Bool) : State T :=
  if s.digest.isSome then s.finish t
  else
    { s.goto t .committed with
      digest := some .openai
      proposalPending := s.proposalPending && !allDropped
      lock := if s.lock = some t then none else s.lock }

/-- The last step of a delivery. -/
def trigger (s : State T) : State T :=
  if s.study.config.autoFollowupDepth.isSome then { s with followup := true } else s

/-- One step of the task `t`. -/
def advance (s : State T) (t : T) (outcome : Outcome) : State T :=
  match s.phase t with
  | .idle => s
  | .started =>
    if s.study.status ≠ .completed then s.finish t
    else if s.digest.isSome then s.finish t
    else s.goto t .loaded
  | .loaded => if s.lock = none then { s.goto t .locked with lock := some t } else s.finish t
  | .locked =>
    if s.digest.isSome then s.finish t
    else if s.study.bestMetric = none then s.persistZeroTrials.finish t
    else
      match outcome with
      | .stops => s.finish t
      | .bestTrialMissing => s.persistZeroTrials.finish t
      | _ => s.goto t .generating
  | .generating => if outcome = .stops then s.finish t else s.persist t (outcome = .allDropped)
  | .committed => s.trigger.finish t
  | .booting => s.goto t (.sweeping (s.proposalPending && s.digest.isNone))
  | .sweeping selected =>
    { (if selected then s.enqueueSwept else s).vanish t with swept := true }

/-- One event. -/
def step (s : State T) : Event T → State T
  | .enqueue n => { s with queue := s.queue ++ [.stopped n] }
  | .deliver t job =>
    if s.phase t = .idle ∧ job ∈ s.queue then
      { s.goto t .started with job := Function.update s.job t (some job) }
    else s
  | .advance t outcome => s.advance t outcome
  | .crash t => s.vanish t
  | .giveUp job => s.take job
  | .forgetResult => { s with resultKept := false }
  | .settleProposal => { s with proposalPending := false }
  | .boot t => if s.phase t = .idle then s.goto t .booting else s

/-- A run whose events all meet `cond`. -/
def Run (cond : State T → Event T → Prop) : State T → State T → Prop :=
  Relation.ReflTransGen fun s s' => ∃ e, cond s e ∧ s' = s.step e

/-- When no job of the study is queued or executing after a sweep, the follow-up of a completed
study with a digest of the language model was put on the queue. -/
def Continued (s : State T) : Prop :=
  s.swept = true → s.queue = [] → (∀ t, s.phase t = .idle) → s.study.status = .completed →
    s.study.config.autoFollowupDepth ≠ none → s.digest = some .openai → s.followup = true

/-- No delivery dies between the commit of the digest and the follow-up. -/
def Survives (s : State T) (e : Event T) : Prop := ∀ t, e = .crash t → s.phase t ≠ .committed

/-- The start of a run: there is no digest, and nothing runs. -/
structure Start (s : State T) : Prop where
  digest : s.digest = none
  followup : s.followup = false
  phase : ∀ t, s.phase t = .idle

/-! ## What a step changes -/

variable {s s' : State T} {t : T} {phase : Phase}

@[simp] theorem digest_vanish : (s.vanish t).digest = s.digest := rfl

@[simp] theorem followup_vanish : (s.vanish t).followup = s.followup := rfl

@[simp] theorem study_vanish : (s.vanish t).study = s.study := rfl

@[simp] theorem phase_vanish : (s.vanish t).phase = Function.update s.phase t .idle := rfl

@[simp] theorem digest_finish : (s.finish t).digest = s.digest := by
  unfold finish
  split <;> rfl

@[simp] theorem followup_finish : (s.finish t).followup = s.followup := by
  unfold finish
  split <;> rfl

@[simp] theorem study_finish : (s.finish t).study = s.study := by
  unfold finish
  split <;> rfl

@[simp] theorem phase_finish : (s.finish t).phase = Function.update s.phase t .idle := by
  unfold finish
  split <;> rfl

omit [DecidableEq T] in
@[simp] theorem digest_enqueueSwept : s.enqueueSwept.digest = s.digest := by
  unfold enqueueSwept
  split <;> rfl

omit [DecidableEq T] in
@[simp] theorem followup_enqueueSwept : s.enqueueSwept.followup = s.followup := by
  unfold enqueueSwept
  split <;> rfl

omit [DecidableEq T] in
@[simp] theorem study_enqueueSwept : s.enqueueSwept.study = s.study := by
  unfold enqueueSwept
  split <;> rfl

omit [DecidableEq T] in
@[simp] theorem phase_enqueueSwept : s.enqueueSwept.phase = s.phase := by
  unfold enqueueSwept
  split <;> rfl

omit [DecidableEq T] in
@[simp] theorem digest_trigger : s.trigger.digest = s.digest := by
  unfold trigger
  split <;> rfl

omit [DecidableEq T] in
@[simp] theorem study_trigger : s.trigger.study = s.study := by
  unfold trigger
  split <;> rfl

omit [DecidableEq T] in
@[simp] theorem phase_trigger : s.trigger.phase = s.phase := by
  unfold trigger
  split <;> rfl

/-- A step that leaves the digest and the follow-up alone, and the deliveries between the two. -/
structure Idles (s s' : State T) : Prop where
  study : s'.study = s.study
  digest : s'.digest = s.digest
  followup : s'.followup = s.followup
  committed : ∀ t, s'.phase t = .committed ↔ s.phase t = .committed

omit [DecidableEq T] in
theorem Idles.refl (s : State T) : Idles s s := ⟨rfl, rfl, rfl, fun _ => Iff.rfl⟩

theorem Idles.of_update (t : T) (phase : Phase) (hstudy : s'.study = s.study)
    (hdigest : s'.digest = s.digest) (hfollowup : s'.followup = s.followup)
    (hphase : s'.phase = Function.update s.phase t phase) (hbefore : s.phase t ≠ .committed)
    (hafter : phase ≠ .committed) : Idles s s' := by
  refine ⟨hstudy, hdigest, hfollowup, fun t' => ?_⟩
  rw [hphase]
  by_cases hne : t' = t
  · subst hne
    rw [Function.update_self]
    exact iff_of_false hafter hbefore
  · rw [Function.update_of_ne hne]

theorem idles_finish (hbefore : s.phase t ≠ .committed) : Idles s (s.finish t) :=
  Idles.of_update t .idle (by simp) (by simp) (by simp) (by simp) hbefore (by simp)

theorem idles_goto (hbefore : s.phase t ≠ .committed) (hafter : phase ≠ .committed) :
    Idles s (s.goto t phase) :=
  Idles.of_update t phase rfl rfl rfl rfl hbefore hafter

/-- What an event does to the digest and the follow-up: nothing, or the digest of a study that has
none is written, or a delivery ends after its commit, by its last step or by its death. -/
inductive Changes (s s' : State T) (e : Event T) : Prop where
  | idles (h : Idles s s')
  | zeroTrials (hdigest : s.digest = none) (h : Idles s.persistZeroTrials s')
  | commits (t : T) (hdigest : s.digest = none) (hstudy : s'.study = s.study)
      (hopenai : s'.digest = some .openai) (hfollowup : s'.followup = s.followup)
      (hphase : s'.phase = Function.update s.phase t .committed)
  | triggers (t : T) (hphase : s.phase t = .committed) (heq : s' = s.trigger.finish t)
  | dies (t : T) (he : e = .crash t) (hphase : s.phase t = .committed) (heq : s' = s.vanish t)

theorem advance_changes (s : State T) (t : T) (outcome : Outcome) :
    Changes s (s.advance t outcome) (.advance t outcome) := by
  unfold State.advance
  cases hphase : s.phase t with
  | idle => exact .idles (Idles.refl s)
  | committed => exact .triggers t hphase rfl
  | started =>
    have hbefore : s.phase t ≠ .committed := by simp [hphase]
    dsimp only
    split
    · exact .idles (idles_finish hbefore)
    split
    · exact .idles (idles_finish hbefore)
    · exact .idles (idles_goto hbefore (by simp))
  | loaded =>
    have hbefore : s.phase t ≠ .committed := by simp [hphase]
    dsimp only
    split
    · exact .idles (Idles.of_update t .locked rfl rfl rfl rfl hbefore (by simp))
    · exact .idles (idles_finish hbefore)
  | locked =>
    have hbefore : s.phase t ≠ .committed := by simp [hphase]
    dsimp only
    split
    · exact .idles (idles_finish hbefore)
    rename_i hdigest
    have hnone : s.digest = none := by simpa using hdigest
    split
    · exact .zeroTrials hnone (idles_finish (s := s.persistZeroTrials) hbefore)
    split
    · exact .idles (idles_finish hbefore)
    · exact .zeroTrials hnone (idles_finish (s := s.persistZeroTrials) hbefore)
    · exact .idles (idles_goto hbefore (by simp))
  | generating =>
    have hbefore : s.phase t ≠ .committed := by simp [hphase]
    dsimp only [persist]
    split
    · exact .idles (idles_finish hbefore)
    split
    · exact .idles (idles_finish hbefore)
    · rename_i hdigest
      exact .commits t (by simpa using hdigest) rfl rfl rfl rfl
  | booting => exact .idles (idles_goto (by simp [hphase]) (by simp))
  | sweeping selected =>
    refine .idles (Idles.of_update t .idle ?_ ?_ ?_ ?_ (by simp [hphase])
      (by simp))
    all_goals
      cases selected <;> simp

theorem step_changes (s : State T) (e : Event T) : Changes s (s.step e) e := by
  cases e with
  | enqueue n => exact .idles ⟨rfl, rfl, rfl, fun _ => Iff.rfl⟩
  | giveUp job => exact .idles ⟨rfl, rfl, rfl, fun _ => Iff.rfl⟩
  | forgetResult => exact .idles ⟨rfl, rfl, rfl, fun _ => Iff.rfl⟩
  | settleProposal => exact .idles ⟨rfl, rfl, rfl, fun _ => Iff.rfl⟩
  | advance t outcome => exact advance_changes s t outcome
  | deliver t job =>
    simp only [State.step]
    split
    · rename_i hidle
      exact .idles (Idles.of_update t .started rfl rfl rfl rfl (by simp [hidle.1])
        (by simp))
    · exact .idles (Idles.refl s)
  | boot t =>
    simp only [State.step]
    split
    · rename_i hidle
      exact .idles (idles_goto (by simp [hidle]) (by simp))
    · exact .idles (Idles.refl s)
  | crash t =>
    by_cases hphase : s.phase t = .committed
    · exact .dies t rfl hphase rfl
    · have hvanish : Idles s (s.vanish t) :=
        Idles.of_update t .idle rfl rfl rfl rfl hphase (by simp)
      exact .idles hvanish

/-! ## All runs -/

/-- A delivery between the commit and the follow-up is the only one, and the follow-up is still to
come. -/
structure Consistent (s : State T) : Prop where
  openai : ∀ t, s.phase t = .committed → s.digest = some .openai
  alone : ∀ t t', s.phase t = .committed → s.phase t' = .committed → t' = t
  ahead : ∀ t, s.phase t = .committed → s.followup = false
  none : s.digest ≠ some .openai → s.followup = false

omit [DecidableEq T] in
theorem Start.consistent (h : s.Start) : s.Consistent where
  openai t ht := by simp [h.phase t] at ht
  alone t _ ht := by simp [h.phase t] at ht
  ahead t ht := by simp [h.phase t] at ht
  none _ := h.followup

omit [DecidableEq T] in
theorem Consistent.idles (h : s.Consistent) (hs : Idles s s') : s'.Consistent where
  openai t ht := hs.digest.trans (h.openai t ((hs.committed t).mp ht))
  alone t t' ht ht' := h.alone t t' ((hs.committed t).mp ht) ((hs.committed t').mp ht')
  ahead t ht := hs.followup.trans (h.ahead t ((hs.committed t).mp ht))
  none hdigest := hs.followup.trans (h.none (hs.digest ▸ hdigest))

omit [DecidableEq T] in
/-- Without a digest nobody is between the commit and the follow-up. -/
theorem Consistent.nobody (h : s.Consistent) (hdigest : s.digest = .none) (t : T) :
    s.phase t ≠ .committed := fun ht => by
  simpa [hdigest] using h.openai t ht

theorem nobody_left (h : s.Consistent) (ht : s.phase t = .committed)
    (hphase : s'.phase = Function.update s.phase t .idle) (t' : T) :
    s'.phase t' ≠ .committed := by
  rw [hphase]
  by_cases hne : t' = t
  · subst hne
    simp
  · rw [Function.update_of_ne hne]
    exact fun ht' => hne (h.alone t t' ht ht')

theorem Consistent.step (h : s.Consistent) (e : Event T) : (s.step e).Consistent := by
  rcases step_changes s e with hidles | ⟨hdigest, hidles⟩ |
    ⟨t, hdigest, -, hopenai, hfollowup, hphase⟩ | ⟨t, ht, heq⟩ | ⟨t, -, ht, heq⟩
  · exact h.idles hidles
  · have hnobody := h.nobody hdigest
    have hpersisted : s.persistZeroTrials.Consistent :=
      ⟨fun t ht => absurd ht (hnobody t), fun t _ ht => absurd ht (hnobody t),
        fun t ht => absurd ht (hnobody t), fun _ => h.none (by simp [hdigest])⟩
    exact hpersisted.idles hidles
  · have hcommitted : ∀ t', (s.step e).phase t' = .committed → t' = t := by
      intro t' ht'
      by_contra hne
      rw [hphase, Function.update_of_ne hne] at ht'
      exact h.nobody hdigest t' ht'
    have hahead : (s.step e).followup = false := hfollowup.trans (h.none (by simp [hdigest]))
    exact ⟨fun _ _ => hopenai, fun t₁ t₂ h₁ h₂ => (hcommitted t₂ h₂).trans (hcommitted t₁ h₁).symm,
      fun _ _ => hahead, fun _ => hahead⟩
  · have hnobody : ∀ t', (s.step e).phase t' ≠ .committed :=
      nobody_left h ht (by rw [heq]; simp)
    refine ⟨fun t ht => absurd ht (hnobody t), fun t _ ht => absurd ht (hnobody t),
      fun t ht => absurd ht (hnobody t), fun hdigest => ?_⟩
    rw [heq, digest_finish, digest_trigger] at hdigest
    exact absurd (h.openai t ht) hdigest
  · have hnobody : ∀ t', (s.step e).phase t' ≠ .committed :=
      nobody_left h ht (by rw [heq]; rfl)
    refine ⟨fun t ht => absurd ht (hnobody t), fun t _ ht => absurd ht (hnobody t),
      fun t ht => absurd ht (hnobody t), fun hdigest => ?_⟩
    rw [heq, digest_vanish] at hdigest
    exact absurd (h.openai t ht) hdigest

theorem Consistent.run {cond : State T → Event T → Prop} (h : s.Consistent)
    (hrun : Run cond s s') : s'.Consistent :=
  EventRun.keeps (fun _ e hs _ => hs.step e) h hrun

/-- A chain that is to go on was put on the queue, or is about to be. -/
def Attended (s : State T) : Prop :=
  s.study.config.autoFollowupDepth ≠ none → s.digest = some .openai →
    s.followup = true ∨ ∃ t, s.phase t = .committed

/-- The follow-up will not be put on the queue. -/
structure Lost (s : State T) : Prop where
  depth : s.study.config.autoFollowupDepth ≠ none
  digest : s.digest = some .openai
  followup : s.followup = false
  nobody : ∀ t, s.phase t ≠ .committed

theorem Attended.step (h : s.Attended) {e : Event T} (he : s.Survives e) :
    (s.step e).Attended := by
  intro hdepth hopenai
  rcases step_changes s e with hidles | ⟨hdigest, hidles⟩ | ⟨t, -, -, -, -, hphase⟩ |
    ⟨t, ht, heq⟩ | ⟨t, hcrash, ht, -⟩
  · rcases h (hidles.study ▸ hdepth) (hidles.digest ▸ hopenai) with hdone | ⟨t, ht⟩
    · exact Or.inl (hidles.followup.trans hdone)
    · exact Or.inr ⟨t, (hidles.committed t).mpr ht⟩
  · have hzero : some Generator.zeroTrials = some .openai := hidles.digest.symm.trans hopenai
    cases hzero
  · exact Or.inr ⟨t, by rw [hphase, Function.update_self]⟩
  · left
    rw [heq] at hdepth ⊢
    rw [study_finish, study_trigger] at hdepth
    rw [followup_finish, trigger, if_pos (Option.isSome_iff_ne_none.mpr hdepth)]
  · exact absurd ht (he t hcrash)

theorem Start.attended {s₀ : State T} (h : s₀.Start) (hrun : Run Survives s₀ s) : s.Attended := by
  have hattended : s₀.Attended := fun _ hopenai => by simp [h.digest] at hopenai
  exact EventRun.keeps (fun _ e hs he => hs.step he) hattended hrun

theorem Lost.step (h : s.Lost) (e : Event T) : (s.step e).Lost := by
  rcases step_changes s e with hidles | ⟨hdigest, -⟩ | ⟨t, hdigest, -, -, -, -⟩ |
    ⟨t, ht, -⟩ | ⟨t, -, ht, -⟩
  · exact ⟨hidles.study ▸ h.depth, hidles.digest.trans h.digest, hidles.followup.trans h.followup,
      fun t ht => h.nobody t ((hidles.committed t).mp ht)⟩
  · simp [h.digest] at hdigest
  · simp [h.digest] at hdigest
  · exact absurd ht (h.nobody t)
  · exact absurd ht (h.nobody t)

theorem Lost.run {cond : State T → Event T → Prop} (h : s.Lost) (hrun : Run cond s s') :
    s'.Lost :=
  EventRun.keeps (fun _ e hs _ => hs.step e) h hrun

/-- A delivery that dies after the commit of the digest loses the follow-up. -/
theorem Consistent.lost_of_crash (h : s.Consistent)
    (hdepth : s.study.config.autoFollowupDepth ≠ .none) {e : Event T} (he : ¬ s.Survives e) :
    (s.step e).Lost := by
  simp only [Survives, not_forall, not_not] at he
  obtain ⟨t, rfl, ht⟩ := he
  exact ⟨hdepth, h.openai t ht, h.ahead t ht, nobody_left h ht rfl⟩

/-- In every run in which no delivery dies between the commit of the digest and the follow-up, the
chain is continued; and once a delivery of a chain has died there, the follow-up is never put on
the queue. -/
theorem chain_is_continued {s₀ : State T} (hstart : s₀.Start) :
    (∀ s, Run Survives s₀ s → s.Continued) ∧
      ∀ s e s', Run (fun _ _ => True) s₀ s → s.study.config.autoFollowupDepth ≠ none →
        ¬ s.Survives e → Run (fun _ _ => True) (s.step e) s' →
        s'.digest = some .openai ∧ s'.followup = false := by
  refine ⟨fun s hrun _ _ hidle _ hdepth hopenai => ?_, fun s e s' hrun hdepth he hrest => ?_⟩
  · rcases hstart.attended hrun hdepth hopenai with hdone | ⟨t, ht⟩
    · exact hdone
    · simp [hidle t] at ht
  · have hlost := ((hstart.consistent.run hrun).lost_of_crash hdepth he).run hrest
    exact ⟨hlost.digest, hlost.followup⟩

/-- A completed study that asks for two follow-ups. -/
def completedParent : Study where
  objective := ⟨.ndcg, some .k10, .maximize⟩
  config := { autoFollowupDepth := some 2 }
  status := .completed
  bestMetric := some (1 / 2)
  bestTrialId := some 1

/-- The study after `_stop`, with its pending proposal. -/
def afterStop : State Bool := { study := completedParent }

theorem afterStop_start : afterStop.Start := ⟨rfl, rfl, fun _ => rfl⟩

/-- A delivery up to the commit of the digest. -/
def untilCommitted : List (Event Bool) :=
  .enqueue 0 :: .deliver false (.stopped 0) :: List.replicate 4 (.advance false .fine)

/-- The sweep of a worker. -/
def sweep : List (Event Bool) := .boot true :: List.replicate 2 (.advance true .fine)

/-- A delivery, its last step, and a sweep. -/
def deliverAndSweep : List (Event Bool) := untilCommitted ++ .advance false .fine :: sweep

theorem survives_deliverAndSweep (s : State Bool) : ∀ e ∈ deliverAndSweep, s.Survives e := by
  simp [deliverAndSweep, untilCommitted, sweep, Survives]

/-- The next delivery, and a sweep. -/
def recovery : List (Event Bool) := .deliver false (.stopped 0) :: .advance false .fine :: sweep

/-- The follow-up is on the queue, and nothing of the study is left to do. -/
theorem chain_is_continued_afterStop :
    ∃ s, Run Survives afterStop s ∧ s.swept = true ∧ s.queue = [] ∧ s.digest = some .openai ∧
      s.followup = true ∧ s.Continued := by
  have hrun := eventRun_foldl State.step deliverAndSweep survives_deliverAndSweep afterStop
  exact ⟨_, hrun, by decide +kernel, by decide +kernel, by decide +kernel, by decide +kernel,
    (chain_is_continued afterStop_start).1 _ hrun⟩

/-- The next delivery and the sweep find the digest, and the follow-up is lost. -/
theorem crash_loses_followup :
    ∃ s, Run (fun _ _ => True) afterStop s ∧ ¬ s.Continued ∧
      ∀ s', Run (fun _ _ => True) s s' → s'.followup = false := by
  have hfree : ∀ events : List (Event Bool), ∀ s : State Bool, ∀ e ∈ events, True := by simp
  have hcommitted := eventRun_foldl State.step untilCommitted (hfree untilCommitted) afterStop
  have hcrash : ¬ (untilCommitted.foldl State.step afterStop).Survives (.crash false) := fun h =>
    h false rfl (by decide +kernel)
  have hlost := (afterStop_start.consistent.run hcommitted).lost_of_crash (by decide +kernel) hcrash
  have hrest := eventRun_foldl State.step recovery (hfree recovery)
    ((untilCommitted.foldl State.step afterStop).step (.crash false))
  have hstays := hlost.run hrest
  refine ⟨_, Relation.ReflTransGen.trans (Relation.ReflTransGen.tail hcommitted
    ⟨.crash false, trivial, rfl⟩) hrest, fun h => ?_, fun s' hrun => (hstays.run hrun).followup⟩
  have hfollowup := h (by decide +kernel) (by decide +kernel) (by decide +kernel)
    (by decide +kernel) hstays.depth hstays.digest
  simp [hstays.followup] at hfollowup

end State

end RelyLoop.Followups.Trigger
