import RelyLoop.Studies.FollowupSafety

/-!
# Follow-ups over whole runs

Deliveries of one follow-up job and a request that stops the chain, in any order.
As long as every insert happens on current reads, the parent gets one follow-up at
most and none appears after the stop. Without the condition both fail: the check
for children and the gate are plain reads.
-/

namespace RelyLoop.Studies

open Concurrency Store Followups

variable {T : Type} [DecidableEq T]

/-- In every run whose statements meet `cond`, at most one follow-up of `parent` is
created, and none when the parent had one at first. -/
def AtMostOneFollowup (T : Type) [DecidableEq T] (root parent : ℕ)
    (cond : T → Store T ℕ Study → RowOp ℕ Study → Prop) (w : Store T ℕ Study) : Prop :=
  ∀ c, (chainSystem T root parent).Run cond (System.idle w) c → ∀ k k',
    VersionChild c.world parent k → VersionChild c.world parent k' → k ∉ w.keys → k = k'

/-- In every run whose statements meet `cond`, after a request that stops the chain
has returned, no study at or below the root is queued or running. -/
def NoneAfterStop (T : Type) [DecidableEq T] (root parent : ℕ)
    (cond : T → Store T ℕ Study → RowOp ℕ Study → Prop) (w : Store T ℕ Study) : Prop :=
  ∀ c c' t limit now, (chainSystem T root parent).Run cond (System.idle w) c →
    c.task t = some (.stopChain limit now, .done ()) →
    (chainSystem T root parent).Run cond c c' →
    ∀ k, Below c'.world root k → ∀ r ∈ c'.world.versions k, inFlight r = false

/-- `ReadsCurrent`, decided. -/
def readsCurrent (parent : ℕ) (t : T) (s : Store T ℕ Study) : RowOp ℕ Study → Bool
  | .insert _ _ => s.identity t parent == s.committed parent &&
      s.keys.all fun c => (s.versions c).all fun r => r.parentStudyId != some parent
  | _ => true

omit [DecidableEq T] in
theorem readsCurrent_spec (parent : ℕ) (t : T) (s : Store T ℕ Study) (o : RowOp ℕ Study)
    (h : readsCurrent parent t s o = true) : ReadsCurrent parent t s o := by
  cases o with
  | insert k r =>
    obtain ⟨hparent, hchildren⟩ := Bool.and_eq_true_iff.mp h
    refine ⟨by simpa using hparent, fun c hc => ?_⟩
    rintro ⟨r, hr, hchild⟩
    have hother := List.all_eq_true.mp (List.all_eq_true.mp hchildren c hc) r hr
    simp [hchild] at hother
  | _ => trivial

/-- A table with one completed study, whose gate is open. -/
def openChain : Store ℕ ℕ Study where
  keys := [1]
  committed k := if k = 1 then some
    { objective := ⟨.ndcg, some .k10, .maximize⟩, config := { autoFollowupDepth := some 2 },
      status := .completed, baselineMetric := some 0, bestMetric := some 1, bestTrialId := some 7 }
    else none
  lock _ := none
  identity _ _ := none

/-- A delivery that gets past all other checks. -/
def delivery (childId : ℕ) : Delivery where
  childId := childId
  now := 5
  allTrials := []
  budget := 0
  modelKnown := true
  peekTotal := 0
  maxCallCost := 0
  bestTrialFound := true
  templateFound := true

/-- The committed status of a study in a run of `openChain`. -/
def chainStatus (c : Config ℕ ChainJob (Store ℕ ℕ Study) (RowOp ℕ Study) RowOp.Res StudyError)
    (studyId : ℕ) : Option StudyStatus := (c.world.committed studyId).map Study.status

/-- Whether a task is a request that has stopped the chain. -/
def stopReturned
    (c : Config ℕ ChainJob (Store ℕ ℕ Study) (RowOp ℕ Study) RowOp.Res StudyError) (t : ℕ) : Bool :=
  match c.task t with
  | some (.stopChain _ _, .done ()) => true
  | _ => false

theorem task_of_stopReturned
    {c : Config ℕ ChainJob (Store ℕ ℕ Study) (RowOp ℕ Study) RowOp.Res StudyError} {t : ℕ}
    (h : stopReturned c t = true) :
    ∃ limit now, c.task t = some (.stopChain limit now, .done ()) := by
  unfold stopReturned at h
  split at h
  · rename_i limit now htask
    exact ⟨limit, now, htask⟩
  · cases h

end RelyLoop.Studies
