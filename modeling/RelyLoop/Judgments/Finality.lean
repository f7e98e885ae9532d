import RelyLoop.Judgments.CallerSafety

/-!
# How a judgment list is finalized

The workers check the status of a list when they start, and write it when they
end. A list is finalized once in the runs in which no flush of a terminal status
meets a list that another delivery has finalized differently meanwhile.
-/

namespace RelyLoop.Judgments

open Concurrency Store

/-- A flush that changes the status of a list meets a list that is generating. -/
def FlushMeetsGenerating {T : Type} [DecidableEq T] (t : T)
    (w : Beside T ℕ JudgmentList Queue) : BesideOp ℕ JudgmentList QueueOp → Prop
  | .row (.update k f) => ∀ row, w.table.visible t k = some row →
      row.status = .generating ∨ (f row).status = row.status
  | _ => True

variable {T : Type} [DecidableEq T]

/-- The status leaves `generating` only, and only failed lists have a reason. -/
def finality (T : Type) [DecidableEq T] : JudgmentDiscipline T where
  Rel r r' := r'.generationParams = r.generationParams ∧
    (r'.status = r.status ∨ r.status = .generating)
  Good r := r.status ≠ .failed → r.failedReason = none
  touches j k := ∃ worker, j.delivery = some (worker, k)
  Link _ _ := True
  Grows _ _ := True
  cond := FlushMeetsGenerating
  rel_refl _ := ⟨rfl, Or.inl rfl⟩
  rel_trans r₁ r₂ r₃ h h' := by
    refine ⟨h'.1.trans h.1, ?_⟩
    rcases h.2 with hsame | hgenerating
    · exact hsame ▸ h'.2
    · exact Or.inr hgenerating
  grows_refl _ := trivial
  grows_trans _ _ _ _ _ := trivial
  link_rollback _ _ _ h := h

/-- What the assignment of a terminal status leaves of the reason. -/
theorem good_setStatus {status : JudgmentListStatus} {failedReason : Option String}
    {loaded v : JudgmentList} (hterminal : TerminalUpdate status failedReason)
    (hloaded : v.status = loaded.status ∨ loaded.status = .generating)
    (hflush : v.status = .generating ∨ (setStatus status failedReason loaded v).status = v.status)
    (hgood : v.status ≠ .failed → v.failedReason = none) :
    (setStatus status failedReason loaded v).status ≠ .failed →
      (setStatus status failedReason loaded v).failedReason = none := by
  intro hnotFailed
  obtain ⟨rfl, rfl⟩ | ⟨rfl, hreason⟩ := hterminal
  · have hkept : (setStatus .complete none loaded v).failedReason = v.failedReason := by
      simp [setStatus]
    rw [hkept]
    rcases hflush with hgenerating | hsame
    · exact hgood (by simp [hgenerating])
    · exact hgood (hsame ▸ hnotFailed)
  · -- a failing update ends in `failed`, also when the loaded object is failed already
    have hfailed : (setStatus .failed failedReason loaded v).status = .failed := by
      by_cases hsame : loaded.status = .failed
      · have hv : v.status = .failed := by
          rcases hloaded with heq | hgenerating
          · exact heq.trans hsame
          · simp [hsame] at hgenerating
        simp [setStatus, hsame, hv]
      · simp [setStatus, hsame]
    exact absurd hfailed hnotFailed

theorem finality_suits : Suits (finality T) where
  params _ _ h := h.1
  calibrated _ _ := ⟨⟨rfl, Or.inl rfl⟩, ⟨rfl, Or.inl rfl⟩, fun h => h⟩
  flushed t w k loaded status failedReason v hterminal hcond hv hloaded hgood := by
    have hflush := hcond v hv
    refine ⟨good_setStatus hterminal hloaded.2 hflush hgood, rfl, ?_⟩
    exact hflush.symm
  inserted _ _ := rfl
  touched _ worker _ h := ⟨worker, h⟩
  linked _ _ _ _ h := h
  enqueued _ _ _ _ _ _ _ _ := ⟨trivial, trivial⟩

/-! ## Runs -/

/-- In every run from idle processes on `w` whose operations meet `cond`, a
committed status changes from `generating` only, a committed terminal status is
never changed afterwards, and a complete list has no failure reason. -/
def ListsAreFinalizedOnce (T : Type) [DecidableEq T]
    (cond : T → Beside T ℕ JudgmentList Queue → BesideOp ℕ JudgmentList QueueOp → Prop)
    (w : Beside T ℕ JudgmentList Queue) : Prop :=
  (∀ c c', (judgmentSystem T).Run cond (System.idle w) c → (judgmentSystem T).Step cond c c' →
    ∀ k r, c.world.table.committed k = some r → ∃ r', c'.world.table.committed k = some r' ∧
      (r'.status = r.status ∨ r.status = .generating)) ∧
  (∀ c c', (judgmentSystem T).Run cond (System.idle w) c → (judgmentSystem T).Run cond c c' →
    ∀ k r, c.world.table.committed k = some r → r.status ≠ .generating →
      ∃ r', c'.world.table.committed k = some r' ∧ r'.status = r.status) ∧
  ∀ c, (judgmentSystem T).Run cond (System.idle w) c →
    ∀ k r, c.world.table.committed k = some r → r.status = .complete → r.failedReason = none

/-- `FlushMeetsGenerating`, decided. -/
def flushMeetsGenerating (t : T) (w : Beside T ℕ JudgmentList Queue) :
    BesideOp ℕ JudgmentList QueueOp → Bool
  | .row (.update k f) => (w.table.visible t k).all fun row =>
      row.status = .generating ∨ (f row).status = row.status
  | _ => true

theorem flushMeetsGenerating_spec (t : T) (w : Beside T ℕ JudgmentList Queue)
    (o : BesideOp ℕ JudgmentList QueueOp) (h : flushMeetsGenerating t w o = true) :
    FlushMeetsGenerating t w o := by
  cases o with
  | outside o => trivial
  | row o =>
    cases o with
    | update k f =>
      intro row hrow
      simpa [flushMeetsGenerating, hrow] using h
    | _ => trivial

/-- An LLM list that is generating, with its job in the queue. -/
def oneGenerating : Beside ℕ ℕ JudgmentList Queue where
  table :=
    { keys := [0]
      committed := fun k => if k = 0 then some { status := .generating } else none
      lock := fun _ => none
      identity := fun _ _ => none }
  outside := [(.generateJudgmentsLlm, 0)]

theorem oneGenerating_reasons (k : ℕ) (r : JudgmentList)
    (h : oneGenerating.table.committed k = some r) :
    r.status ≠ .failed → r.failedReason = none := by
  obtain ⟨-, hrow⟩ := Option.ite_none_right_eq_some.mp h
  obtain rfl := Option.some.inj hrow
  exact fun _ => rfl

/-- The committed status of a list, and whether it has a failure reason. -/
def outcomeOf (c : Config ℕ Job (Beside ℕ ℕ JudgmentList Queue)
    (BesideOp ℕ JudgmentList QueueOp) (BesideOp.Res fun _ => Unit) JudgmentError)
    (judgmentListId : ℕ) : Option (JudgmentListStatus × Bool) :=
  (c.world.table.committed judgmentListId).map fun row => (row.status, row.failedReason.isSome)

/-- A delivery in which every query of the list is rated. -/
def allRated : Job := .deliverLlm 0 { queries := [.rated] }

/-- A delivery in which a query of the list is skipped. -/
def oneSkipped : Job := .deliverLlm 0 { queries := [.skipped] }

end RelyLoop.Judgments
