import RelyLoop.Studies.StudyState

/-!
# Committed status changes

Which changes of `studies.status` the sessions can commit, over whole runs: the
legal ones, as long as no session locks a study under a stale loaded status. A
tick that read the status before a cancellation commits is such a session.
-/

/-!
## The contract of the state machine

A locking read does not refresh an object that the session has loaded before,
so the check of `_ensure_legal` speaks about the row only when the loaded status
is the row's. Under that condition every transition is safe: what a session
writes changes the committed status by a legal transition or not at all.
-/

namespace RelyLoop.Studies

open Concurrency Store

variable {T : Type} [DecidableEq T]

/-- The changes of a row that the state machine allows. -/
def StatusChange (r r' : Study) : Prop :=
  r'.status = r.status ∨ r'.status ∈ legalTransitions r.status

/-- When a session locks a study it has loaded before, the loaded status is
still the status of the row. -/
def LockSeesStatus (t : T) (s : Store T ℕ Study) : RowOp ℕ Study → Prop
  | .selectForUpdate k => ∀ loaded row,
      s.identity t k = some loaded → s.visible t k = some row → loaded.status = row.status
  | _ => True

/-- The contract of the sessions on the `studies` table. -/
abbrev statusContract (T : Type) [DecidableEq T] :=
  tableContract (List Request) StatusChange (fun _ => True) (LockSeesStatus (T := T))

/-- Every uncommitted version of `t` keeps the committed status, or is in a
terminal status reached from it. -/
def Settled (t : T) (s : Store T ℕ Study) : Prop :=
  ∀ k r₀ r, s.held t k = some (some r) → s.committed k = some r₀ →
    r.status = r₀.status ∨ (r.status ∈ legalTransitions r₀.status ∧ legalTransitions r.status = [])

/-- The transaction of `t` has the lock on a study in the given status. -/
def Locked (t : T) (studyId : ℕ) (status : StudyStatus) (s : Store T ℕ Study) : Prop :=
  s.held t studyId ≠ none ∧ ∀ row, s.visible t studyId = some row → row.status = status

variable {t : T} {j : List Request} {s s' : Store T ℕ Study} {k : ℕ} {r r₀ : Study}

theorem Settled.frame (h : Settled t s) (hf : Frame t s s') : Settled t s' := by
  intro k r₀ r hheld hcomm
  rw [hf.held k] at hheld
  rw [hf.committed k (by simp [hheld])] at hcomm
  exact h k r₀ r hheld hcomm

theorem Locked.frame {status : StudyStatus} (h : Locked t k status s) (hf : Frame t s s') :
    Locked t k status s' :=
  ⟨by rw [hf.held k]; exact h.1, fun row hrow => h.2 row (by rwa [hf.visible h.1] at hrow)⟩

theorem Settled.of_clean (h : ∀ k, s.held t k = none) : Settled t s :=
  fun k _ _ hheld => by simp [h k] at hheld

/-- Reading does not unsettle a transaction. -/
theorem Settled.congr (h : Settled t s) (hc : s'.committed = s.committed)
    (hw : ∀ k r, s'.held t k = some (some r) → s.held t k = some (some r)) : Settled t s' :=
  fun k r₀ r hheld hcomm => h k r₀ r (hw k r hheld) (by rwa [hc] at hcomm)

/-- The visible row is as settled as the uncommitted versions. -/
theorem Settled.visible (h : Settled t s) (hcomm : s.committed k = some r₀)
    (hvis : s.visible t k = some r) : r.status = r₀.status ∨
      (r.status ∈ legalTransitions r₀.status ∧ legalTransitions r.status = []) := by
  unfold Store.visible at hvis
  split at hvis
  · rename_i r' hheld
    obtain rfl := Option.some.inj hvis
    exact h k r₀ r' hheld hcomm
  · left
    rw [hcomm] at hvis
    rw [Option.some.inj hvis]

/-- A legal transition of the visible row is a legal change of the committed one. -/
theorem Settled.legal (h : Settled t s) (hcomm : s.committed k = some r₀)
    (hvis : s.visible t k = some r) {target : StudyStatus}
    (hlegal : target ∈ legalTransitions r.status) : target ∈ legalTransitions r₀.status := by
  rcases h.visible hcomm hvis with hsame | ⟨-, hterminal⟩
  · rwa [hsame] at hlegal
  · simp [hterminal] at hlegal

/-- A write that settles its row keeps the transaction settled. -/
theorem Settled.write (h : Settled t s)
    (hr : ∀ r₀, s.committed k = some r₀ → r.status = r₀.status ∨
      (r.status ∈ legalTransitions r₀.status ∧ legalTransitions r.status = [])) :
    Settled t (s.write t k r) := by
  intro k' r₀ r' hheld hcomm
  by_cases hk : k' = k
  · subst hk
    obtain rfl : r = r' := by simpa using hheld
    exact hr r₀ hcomm
  · exact h k' r₀ r' (by rwa [held_write_of_key_ne hk] at hheld) hcomm

/-! ## The transitions are safe -/

variable {code : List Request → Db Unit} {α : Type}

/-- `p` is safe for the contract of the `studies` table. -/
abbrev StatusSafe (code : List Request → Db Unit) (t : T) (j : List Request)
    (Q : α → Store T ℕ Study → Prop) (E : StudyError → Store T ℕ Study → Prop) (p : Db α)
    (s : Store T ℕ Study) : Prop :=
  Safe (tableSystem code) (statusContract T) t j Q E p s

/-- A statement that writes nothing. -/
private theorem safe_read {o : RowOp ℕ Study} {next : o.Res → Db α}
    {Q : α → Store T ℕ Study → Prop} {E : StudyError → Store T ℕ Study → Prop}
    (hs : Settled t s) (hallowed : ∀ s, Allowed StatusChange (fun _ => True) s t o)
    (hnext : ∀ s s' a, Settled t s → LockSeesStatus t s o → Store.exec t s o = some (s', a) →
      StatusSafe code t j Q E (next a) s') : StatusSafe code t j Q E (.call o next) s :=
  Safe.statement (Settled t) hs (fun _ _ hf h => h.frame hf) (fun s _ _ _ => hallowed s) hnext

theorem safe_loadForUpdate (hs : Settled t s) (studyId : ℕ) :
    StatusSafe code t j (fun study s => Settled t s ∧ Locked t studyId study.status s)
      (fun _ => Settled t) (loadForUpdate studyId) s := by
  refine safe_read hs (fun _ => trivial) fun s s' a hs hsees hexec => ?_
  obtain ⟨-, rfl, rfl⟩ | ⟨v, hv, -, rfl, rfl⟩ := exec_selectForUpdate hexec
  · exact hs
  · refine ⟨hs.congr (by simp) fun k r h => held_acquire_written.mp (by simpa using h), ?_, ?_⟩
    · simp [held_acquire]
    · intro row hrow
      obtain rfl : v = row := by simpa [hv] using hrow
      cases hloaded : s.identity t studyId with
      | none => simp
      | some loaded => exact (hsees loaded v hloaded hv).symm

/-- The flush of a change that settles its row. -/
private theorem safe_flush {studyId : ℕ} {f : Study → Study} {status : StudyStatus}
    {next : Unit → Db α} {Q : α → Store T ℕ Study → Prop}
    {E : StudyError → Store T ℕ Study → Prop} (hs : Settled t s) (hlock : Locked t studyId status s)
    (hf : ∀ row, row.status = status → (f row).status = status ∨
      ((f row).status ∈ legalTransitions status ∧ legalTransitions (f row).status = []))
    (hnext : ∀ s, Settled t s → StatusSafe code t j Q E (next ()) s) :
    StatusSafe code t j Q E (.call (.update studyId f) next) s := by
  have hsettles : ∀ s, Settled t s → Locked t studyId status s → ∀ v r₀,
      s.visible t studyId = some v → s.committed studyId = some r₀ →
      (f v).status = r₀.status ∨
        ((f v).status ∈ legalTransitions r₀.status ∧ legalTransitions (f v).status = []) := by
    intro s hs hlock v r₀ hv hr₀
    have hstatus := hlock.2 v hv
    rcases hf v hstatus with hkeep | ⟨hlegal, hterminal⟩
    · rw [hkeep, ← hstatus]
      exact hs.visible hr₀ hv
    · exact Or.inr ⟨hs.legal hr₀ hv (by rwa [hstatus]), hterminal⟩
  refine Safe.statement (fun s => Settled t s ∧ Locked t studyId status s) ⟨hs, hlock⟩
    (fun _ _ hf h => ⟨h.1.frame hf, h.2.frame hf⟩) (fun s hs _ _ v hv => ?_) ?_
  · refine ⟨trivial, fun r₀ hr₀ => ?_⟩
    exact (hsettles s hs.1 hs.2 v r₀ hv hr₀).imp id And.left
  · intro s s' _ hs _ hexec
    obtain ⟨-, rfl⟩ | ⟨v, hv, -, rfl⟩ := exec_update hexec
    · exact hnext s' hs.1
    · refine hnext _ (Settled.congr (hs.1.write fun r₀ hr₀ => ?_) rfl fun _ _ => id)
      exact hsettles s hs.1 hs.2 v r₀ hv hr₀

/-- A transition to a terminal status keeps the transaction settled. -/
theorem safe_transition (hs : Settled t s) {studyId : ℕ} {target : StudyStatus}
    {stamp : Study → Study} (hterminal : legalTransitions target = [])
    (hstamp : ∀ row, (stamp row).status = row.status) :
    StatusSafe code t j (fun _ => Settled t) (fun _ => Settled t)
      (transition studyId target stamp) s := by
  refine Safe.seq (safe_loadForUpdate hs studyId) ?_
  rintro study s ⟨hs, hlock⟩
  unfold ensureLegal
  split
  · exact hs
  · rename_i hlegal
    refine safe_flush hs hlock (fun row _ => Or.inr ?_) fun s hs => hs
    rw [hstamp]
    exact ⟨not_not.mp hlegal, hterminal⟩

theorem safe_cancelStudy (hs : Settled t s) (now studyId : ℕ) :
    StatusSafe code t j (fun _ => Settled t) (fun _ => Settled t) (cancelStudy now studyId) s :=
  safe_transition hs rfl fun _ => rfl

theorem safe_completeStudy (hs : Settled t s) (now studyId : ℕ) (bestMetric : Option ℚ)
    (bestTrialId : Option ℕ) :
    StatusSafe code t j (fun _ => Settled t) (fun _ => Settled t)
      (completeStudy now studyId bestMetric bestTrialId) s :=
  safe_transition hs rfl fun _ => rfl

theorem safe_failStudy (hs : Settled t s) (now studyId : ℕ) (failedReason : String) :
    StatusSafe code t j (fun _ => Settled t) (fun _ => Settled t)
      (failStudy now studyId failedReason) s :=
  safe_transition hs rfl fun _ => rfl

/-- `start_study` leaves a version that may be committed. -/
theorem safe_startStudy (hs : Settled t s) (now studyId : ℕ) :
    StatusSafe code t j (fun _ _ => True) (fun _ _ => True) (startStudy now studyId) s := by
  refine Safe.bind ((safe_loadForUpdate hs studyId).mono ?_ fun _ _ _ => trivial)
  rintro study s ⟨hs, hlock⟩
  split
  · trivial
  · unfold ensureLegal
    split
    · trivial
    · rename_i hlegal
      refine Safe.statement (fun s => Settled t s ∧ Locked t studyId study.status s) ⟨hs, hlock⟩
        (fun _ _ hf h => ⟨h.1.frame hf, h.2.frame hf⟩) (fun s hs _ _ v hv => ?_)
        fun _ _ _ _ _ _ => trivial
      refine ⟨trivial, fun r₀ hr₀ => Or.inr (hs.1.legal hr₀ hv ?_)⟩
      rw [hs.2.2 v hv]
      exact not_not.mp hlegal

theorem safe_cancelUnlessTerminal (hs : Settled t s) (now studyId : ℕ) (study : Study) :
    StatusSafe code t j (fun _ => Settled t) (fun _ => Settled t)
      (cancelUnlessTerminal now studyId study) s := by
  refine Safe.handle ((safe_cancelStudy hs now studyId).mono (fun _ _ h => h) fun e s hs => ?_)
  cases e <;> exact hs

theorem safe_zeroFollowupDepth (hs : Settled t s) {studyId : ℕ} {parent : Study}
    (hlock : Locked t studyId parent.status s) :
    StatusSafe code t j (fun _ => Settled t) (fun _ => Settled t)
      (zeroFollowupDepth studyId parent) s := by
  unfold zeroFollowupDepth
  split
  · split
    · exact safe_flush hs hlock (fun row hrow => Or.inl hrow) fun s hs => hs
    · exact hs
  · exact hs

theorem safe_listChildrenOfStudy (hs : Settled t s) (studyId : ℕ) :
    StatusSafe code t j (fun _ => Settled t) (fun _ => Settled t)
      (listChildrenOfStudy studyId) s := by
  refine safe_read hs (fun _ => trivial) fun s s' a hs _ hexec => ?_
  obtain ⟨rfl, -⟩ := Prod.mk.inj (Option.some.inj hexec)
  exact hs.congr (by simp) fun _ _ => by simp

theorem safe_cascadeParent (hs : Settled t s) (now : ℕ) {studyId : ℕ} {parent : Study}
    (hlock : Locked t studyId parent.status s) :
    StatusSafe code t j (fun _ => Settled t) (fun _ => Settled t)
      (cascadeParent now studyId parent) s := by
  unfold cascadeParent
  split
  · exact safe_cancelUnlessTerminal hs now studyId parent
  · exact safe_zeroFollowupDepth hs hlock

theorem safe_cascadeChild (hs : Settled t s) (now : ℕ) (child : ℕ × Study) :
    StatusSafe code t j (fun _ => Settled t) (fun _ => Settled t) (cascadeChild now child) s := by
  unfold cascadeChild
  split
  · exact Safe.bind (safe_cancelUnlessTerminal hs now child.1 child.2)
  · exact hs

/-- The cascade keeps the transaction settled, at any depth of the chain. -/
theorem safe_cascadeCancel (now fuel : ℕ) {studyId : ℕ} (hs : Settled t s) :
    StatusSafe code t j (fun _ => Settled t) (fun _ => Settled t)
      (cascadeCancel now fuel studyId) s := by
  induction fuel generalizing studyId s with
  | zero => exact hs
  | succ fuel ih =>
    refine Safe.seq (safe_loadForUpdate hs studyId) ?_
    rintro loaded s ⟨hs, hlock⟩
    refine Safe.seq (safe_cascadeParent hs now hlock) ?_
    intro parent s hs
    refine Safe.seq (safe_listChildrenOfStudy hs studyId) ?_
    intro children s hs
    refine Safe.bind (Safe.each (fun child _ s hs => ?_) hs)
    refine Safe.seq (safe_cascadeChild hs now child) ?_
    exact fun _ s hs => Safe.bind (ih hs)

/-- `COMMIT` settles the transaction. -/
private theorem safe_commit :
    StatusSafe code t j (fun _ => Settled t) (fun _ => Settled t) Transaction.commit s := by
  refine Safe.statement (fun _ => True) trivial (fun _ _ _ _ => trivial)
    (fun _ _ _ _ => trivial) fun s s' _ _ _ hexec => ?_
  obtain ⟨rfl, -⟩ := Prod.mk.inj (Option.some.inj hexec)
  exact Settled.of_clean fun k => held_commit

/-- `ROLLBACK` settles the transaction. -/
private theorem safe_rollback :
    StatusSafe code t j (fun _ => Settled t) (fun _ => Settled t) Transaction.rollback s := by
  refine Safe.statement (fun _ => True) trivial (fun _ _ _ _ => trivial)
    (fun _ _ _ _ => trivial) fun s s' _ _ _ hexec => ?_
  obtain ⟨rfl, -⟩ := Prod.mk.inj (Option.some.inj hexec)
  exact Settled.of_clean fun k => held_rollback

theorem safe_transact {p : Db Study}
    (hp : StatusSafe code t j (fun _ _ => True) (fun _ _ => True) p s) :
    StatusSafe code t j (fun _ => Settled t) (fun _ => Settled t) (transact p) s :=
  Safe.handle (Safe.bind (hp.mono (fun _ _ _ => safe_commit) fun _ _ _ => safe_rollback))

theorem safe_transact_of_settled {p : Db Study}
    (hp : StatusSafe code t j (fun _ => Settled t) (fun _ => Settled t) p s) :
    StatusSafe code t j (fun _ => Settled t) (fun _ => Settled t) (transact p) s :=
  safe_transact (hp.mono (fun _ _ _ => trivial) fun _ _ _ => trivial)

theorem safe_stop (hs : Settled t s) (now studyId : ℕ) (summary : TrialsSummary) :
    StatusSafe code t j (fun _ => Settled t) (fun _ => Settled t) (stop now studyId summary) s :=
  safe_transact_of_settled (safe_completeStudy hs now studyId _ _)

theorem safe_tick (hs : Settled t s) (now studyId : ℕ) (decision : TickDecision) :
    StatusSafe code t j (fun _ => Settled t) (fun _ => Settled t)
      (tick now studyId decision) s := by
  refine safe_read hs (fun _ => trivial) fun s s' a hs _ hexec => ?_
  obtain ⟨rfl, -⟩ := Prod.mk.inj (Option.some.inj hexec)
  replace hs : Settled t (s.load t studyId) := hs.congr (by simp) fun _ _ => by simp
  cases a with
  | none => exact hs
  | some current =>
    by_cases hrunning : current.status = .running
    · cases decision with
      | goOn => simpa [hrunning] using hs
      | fail failedReason =>
        simpa [hrunning] using
          safe_transact_of_settled (safe_failStudy hs now studyId failedReason)
      | stop summary =>
        simpa [hrunning] using safe_stop hs now studyId summary
    · simpa [hrunning] using hs

/-- Every request keeps the session's transaction settled. -/
theorem safe_serve (hs : Settled t s) (limit : ℕ) (request : Request) :
    StatusSafe code t j (fun _ => Settled t) (fun _ => Settled t) (serve limit request) s := by
  cases request with
  | get studyId =>
    refine safe_read hs (fun _ => trivial) fun s s' a hs _ hexec => ?_
    obtain ⟨rfl, -⟩ := Prod.mk.inj (Option.some.inj hexec)
    exact hs.congr (by simp) fun _ _ => by simp
  | listChildren studyId => exact Safe.bind (safe_listChildrenOfStudy hs studyId)
  | release studyId =>
    refine safe_read hs (fun _ => trivial) fun s s' a hs _ hexec => ?_
    obtain ⟨rfl, -⟩ := Prod.mk.inj (Option.some.inj hexec)
    exact hs.congr rfl fun _ _ => id
  | start now studyId => exact safe_transact (safe_startStudy hs now studyId)
  | cancel now studyId cascade =>
    refine safe_transact_of_settled ?_
    cases cascade with
    | false => exact safe_cancelStudy hs now studyId
    | true => exact safe_cascadeCancel now limit hs
  | complete now studyId bestMetric bestTrialId =>
    exact safe_transact_of_settled (safe_completeStudy hs now studyId bestMetric bestTrialId)
  | fail now studyId failedReason =>
    exact safe_transact_of_settled (safe_failStudy hs now studyId failedReason)
  | tick now studyId decision => exact safe_tick hs now studyId decision

/-- The sessions meet the contract of the `studies` table. -/
theorem statusContract_met (limit : ℕ) : (statusContract T).Met (studySystem T limit) :=
  tableContract_met fun t _ _ hheld _ =>
    (Safe.each (I := Settled t) (fun request _ _ hs => safe_serve hs limit request)
      (Settled.of_clean hheld)).mono (fun _ _ _ => trivial) fun _ _ _ => trivial

end RelyLoop.Studies

/-! ## Runs of the machine -/

namespace RelyLoop.Studies

open Concurrency Store

variable {T : Type} [DecidableEq T]

/-- In every run from idle sessions on the table `w` whose statements meet
`cond`, each committed change of a status is a legal transition, and a
committed terminal status is never overwritten. -/
def StatusesFollowMachine (T : Type) [DecidableEq T] (limit : ℕ)
    (cond : T → Store T ℕ Study → RowOp ℕ Study → Prop) (w : Store T ℕ Study) : Prop :=
  (∀ c c', (studySystem T limit).Run cond (System.idle w) c → (studySystem T limit).Step cond c c' →
    ∀ k r, c.world.committed k = some r → ∃ r', c'.world.committed k = some r' ∧
      (r'.status = r.status ∨ r'.status ∈ legalTransitions r.status)) ∧
  (∀ c c', (studySystem T limit).Run cond (System.idle w) c → (studySystem T limit).Run cond c c' →
    ∀ k r, c.world.committed k = some r → legalTransitions r.status = [] →
      ∃ r', c'.world.committed k = some r' ∧ r'.status = r.status)

/-- Sessions whose locks see the status of the row follow the state machine. -/
theorem statuses_follow_machine (limit : ℕ) {w : Store T ℕ Study}
    (hunlocked : ∀ k, w.lock k = none) : StatusesFollowMachine T limit LockSeesStatus w := by
  have hmet := statusContract_met (T := T) limit
  have hinv : (statusContract T).inv w := Disciplined.of_unlocked hunlocked fun _ _ _ => trivial
  have hsound : ∀ c, (studySystem T limit).Run LockSeesStatus (System.idle w) c →
      (statusContract T).Sound (studySystem T limit) c := fun c hrun =>
    hmet.run (Contract.sound_idle hinv) hrun
  have hstatus : ∀ j w w', (statusContract T).change j w w' → ∀ k r, w.committed k = some r →
      ∃ r', w'.committed k = some r' ∧
        (r'.status = r.status ∨ r'.status ∈ legalTransitions r.status) := by
    intro j w w' hchange k r hr
    obtain ⟨r', hr', rfl | hrel⟩ := hchange k r hr
    · exact ⟨r', hr', Or.inl rfl⟩
    · exact ⟨r', hr', hrel⟩
  refine ⟨fun c c' hrun hstep => ?_, fun c c' hrun hrest k r hr hterminal => ?_⟩
  · obtain ⟨_, j, hchange, _⟩ := (hmet.step (hsound c hrun) hstep).2
    exact hstatus j _ _ hchange
  · refine hmet.run_keeps (fun j w w' hchange hkept => ?_) (hsound c hrun)
      (P := fun w => ∃ r', w.committed k = some r' ∧ r'.status = r.status) ⟨r, hr, rfl⟩ hrest
    obtain ⟨r₁, hr₁, hsame⟩ := hkept
    obtain ⟨r₂, hr₂, heq | hlegal⟩ := hstatus j w w' hchange k r₁ hr₁
    · exact ⟨r₂, hr₂, heq.trans hsame⟩
    · simp [hsame, hterminal] at hlegal

/-- `LockSeesStatus`, decided. -/
def lockSeesStatus (t : T) (s : Store T ℕ Study) : RowOp ℕ Study → Bool
  | .selectForUpdate k =>
    (s.identity t k).all fun loaded => (s.visible t k).all fun row => loaded.status == row.status
  | _ => true

theorem lockSeesStatus_spec (t : T) (s : Store T ℕ Study) (o : RowOp ℕ Study)
    (h : lockSeesStatus t s o = true) : LockSeesStatus t s o := by
  cases o with
  | selectForUpdate k =>
    intro loaded row hloaded hrow
    simpa [lockSeesStatus, hloaded, hrow] using h
  | _ => trivial

/-- A table with one running study. -/
def oneRunning : Store ℕ ℕ Study where
  keys := [0]
  committed k := if k = 0 then some
    { objective := ⟨.ndcg, some .k10, .maximize⟩, config := { maxTrials := some 10 },
      status := .running, startedAt := some 1 } else none
  lock _ := none
  identity _ _ := none

/-- The summary of a study without trials. -/
def noTrials : TrialsSummary := aggregateTrialsSummary [] 0

/-- The committed status of a study. -/
def statusOf (c : Config ℕ (List Request) (Store ℕ ℕ Study) (RowOp ℕ Study) RowOp.Res StudyError)
    (studyId : ℕ) : Option StudyStatus := (c.world.committed studyId).map Study.status

/-- A cancellation and a later tick, one after the other: the condition holds
throughout, and the study stays cancelled. -/
theorem statuses_follow_machine_oneRunning :
    StatusesFollowMachine ℕ 1000 LockSeesStatus oneRunning ∧
      ∃ c, (studySystem ℕ 1000).Run LockSeesStatus (System.idle oneRunning) c ∧
        statusOf c 0 = some .cancelled := by
  refine ⟨statuses_follow_machine 1000 fun _ => rfl, ?_⟩
  have hrun : ((((studySystem ℕ 1000).guard lockSeesStatus).schedule (System.idle oneRunning)
      [.start 1 [.cancel 7 0 false], .call 1, .call 1, .call 1, .stop 1,
        .start 0 [.tick 8 0 (.stop noTrials)], .call 0]).map fun c => statusOf c 0) =
      some (some .cancelled) := by decide
  obtain ⟨c, hc, hstatus⟩ := Option.map_eq_some_iff.mp hrun
  exact ⟨c, (studySystem ℕ 1000).run_of_guarded lockSeesStatus_spec hc, hstatus⟩

/-- Without the condition the state machine is broken: a tick reads `running`, a
cancellation commits, and the tick, whose locking read returns the loaded
object, completes the cancelled study. -/
theorem stale_tick_overwrites_cancelled :
    ¬ StatusesFollowMachine ℕ 1000 (fun _ _ _ => True) oneRunning := by
  have hrun : ((((studySystem ℕ 1000).guard fun _ _ _ => true).schedule (System.idle oneRunning)
      [.start 0 [.tick 8 0 (.stop noTrials)], .call 0,
        .start 1 [.cancel 7 0 false], .call 1, .call 1, .call 1, .stop 1,
        .call 0, .call 0]).bind fun c =>
      (((studySystem ℕ 1000).guard fun _ _ _ => true).step c (.call 0)).map fun c' =>
        (statusOf c 0, statusOf c' 0)) = some (some .cancelled, some .completed) := by decide
  obtain ⟨c, hc, hrest⟩ := Option.bind_eq_some_iff.mp hrun
  obtain ⟨c', hc', hstatuses⟩ := Option.map_eq_some_iff.mp hrest
  obtain ⟨hstatus, hstatus'⟩ := Prod.mk.inj hstatuses
  obtain ⟨r, hr, hcancelled⟩ := Option.map_eq_some_iff.mp hstatus
  obtain ⟨r', hr', hcompleted⟩ := Option.map_eq_some_iff.mp hstatus'
  rintro ⟨hlegal, -⟩
  obtain ⟨r'', hr'', hchange⟩ := hlegal c c'
    ((studySystem ℕ 1000).run_of_guarded (fun _ _ _ _ => trivial) hc)
    ((studySystem ℕ 1000).step_of_guarded (fun _ _ _ _ => trivial) hc') 0 r hr
  obtain rfl : r' = r'' := Option.some.inj (hr'.symm.trans hr'')
  rw [hcancelled, hcompleted] at hchange
  revert hchange
  decide

end RelyLoop.Studies
