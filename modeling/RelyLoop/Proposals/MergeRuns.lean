import RelyLoop.Proposals.MergeDeliveries

/-!
# The pointer over whole runs

Webhook and reconciler deliveries in any order and number. As long as every locking
read of the config repo sees the current pointer, the pointer is at the latest merge
in every state. The receiver breaks the condition: its session has loaded the config
repo before it takes the lock, and a loaded object is not refreshed.
-/

namespace RelyLoop.Proposals

open Concurrency

section Runs

variable (T : Type) [DecidableEq T] (env : MergeEnv) (configRepoId : ℕ)

/-- A state of the deliveries. -/
abbrev MergeConfig : Type :=
  Config T Delivery (MergeTables T) (TablesOp ℕ ConfigRepo ℕ Proposal) TablesOp.Res MergeError

variable {T} in
/-- Every delivery that has started has ended. -/
def Settled (c : MergeConfig T) : Prop := ∀ t j o next, c.task t ≠ some (j, .call o next)

variable {T} in
/-- The committed pointer of the config repo. -/
def pointerIn (c : MergeConfig T) : Option ℕ := pointerOf c.world.first.committed configRepoId

variable {T} in
/-- The committed time of the merge of a proposal. -/
def mergedIn (c : MergeConfig T) : ℕ → Option ℕ := mergedAt c.world.second.committed

/-- In every run whose statements meet `cond`, the pointer is at a latest merge once
all deliveries have ended, and no step moves it to an earlier merge. -/
def PointerFollowsMerges
    (cond : T → MergeTables T → TablesOp ℕ ConfigRepo ℕ Proposal → Prop) (w : MergeTables T) :
    Prop :=
  (∀ c, (mergeSystem T env).Run cond (System.idle w) c → Settled c →
    PointsToGreatest (env.OnRepo configRepoId) (pointerIn configRepoId c) (mergedIn c)) ∧
  ∀ c c', (mergeSystem T env).Run cond (System.idle w) c → (mergeSystem T env).Step cond c c' →
    ∀ q, pointerIn configRepoId c = some q → ∃ q', pointerIn configRepoId c' = some q' ∧
      ∀ m m', mergedIn c q = some m → mergedIn c' q' = some m' → m ≤ m'

/-- For every order, interleaving and repetition of the deliveries: if the locking
reads of the config repo see its current pointer, the pointer follows the merges. -/
theorem pointer_follows_merges {w : MergeTables T} (hright : PointerRight env configRepoId w) :
    PointerFollowsMerges T env configRepoId (LocksCurrentPointer configRepoId) w := by
  have hmet := mergeContract_met T env configRepoId
  have hsound : ∀ c,
      (mergeSystem T env).Run (LocksCurrentPointer configRepoId) (System.idle w) c →
      (mergeContract T env configRepoId).Sound (mergeSystem T env) c := fun c hrun =>
    hmet.run (Contract.sound_idle hright) hrun
  refine ⟨fun c hrun _ => (hsound c hrun).1.right, fun c c' hrun hstep q hq => ?_⟩
  obtain ⟨hsound', _, _, hkept, -⟩ := hmet.step (hsound c hrun) hstep
  have hbefore := (hsound c hrun).1.right
  have hafter := hsound'.1.right
  obtain ⟨hrepo, hmerged⟩ := hbefore.target q hq
  obtain ⟨m, hm⟩ := Option.isSome_iff_exists.mp hmerged
  obtain ⟨q', m', hq', hm', hle⟩ := hafter.greatest q m hrepo (hkept q m hm)
  refine ⟨q', hq', fun m₁ m₁' hm₁ hm₁' => ?_⟩
  have hsame : m₁ = m := Option.some.inj (hm₁.symm.trans hm)
  have hsame' : m₁' = m' := Option.some.inj (hm₁'.symm.trans hm')
  rwa [hsame, hsame']

end Runs

/-- `LocksCurrentPointer`, decided. -/
def locksCurrentPointer {T : Type} [DecidableEq T] (configRepoId : ℕ) (t : T) (w : MergeTables T) :
    TablesOp ℕ ConfigRepo ℕ Proposal → Bool
  | .first (.selectForUpdate k) => k != configRepoId || (w.first.identity t k).all fun loaded =>
      (w.first.visible t k).all fun row => loaded.lastMergedProposalId == row.lastMergedProposalId
  | _ => true

theorem locksCurrentPointer_spec {T : Type} [DecidableEq T] (configRepoId : ℕ) (t : T)
    (w : MergeTables T) (o : TablesOp ℕ ConfigRepo ℕ Proposal)
    (h : locksCurrentPointer configRepoId t w o = true) :
    LocksCurrentPointer configRepoId t w o := by
  cases o with
  | first o =>
    cases o with
    | selectForUpdate k =>
      intro hk loaded row hloaded hrow
      subst hk
      simpa [locksCurrentPointer, hloaded, hrow] using h
    | _ => trivial
  | _ => trivial

/-- One config repo. -/
def oneRepo : MergeEnv where
  ownerRepoOf _ := some ("acme", "search")
  configRepoOf proposalId := if proposalId = 1 ∨ proposalId = 2 then some 7 else none

/-- Two open pull requests on it, and no merge. -/
def twoOpened : MergeTables ℕ where
  first :=
    { keys := [7]
      committed := fun k => if k = 7 then some ⟨"https://github.com/acme/search", some "secret", none⟩
        else none
      lock := fun _ => none
      identity := fun _ _ => none }
  second :=
    { keys := [1, 2]
      committed := fun k =>
        if k = 1 then some { configDiff := "boost: 1 -> 2", status := .prOpened,
                             prUrl := some "pull/1", prState := some .opened }
        else if k = 2 then some { configDiff := "boost: 2 -> 3", status := .prOpened,
                                  prUrl := some "pull/2", prState := some .opened }
        else none
      lock := fun _ => none
      identity := fun _ _ => none }

theorem twoOpened_right : PointerRight oneRepo 7 twoOpened := by
  have hnone : ∀ p, mergedAt twoOpened.second.committed p = none := by
    intro p
    by_cases h₁ : p = 1
    · simp [mergedAt, twoOpened, h₁]
    · by_cases h₂ : p = 2
      · simp [mergedAt, twoOpened, h₂]
      · simp [mergedAt, twoOpened, h₁, h₂]
  have hpointer : pointerOf twoOpened.first.committed 7 = none := rfl
  refine ⟨rfl, ⟨fun q hq => ?_, fun p m _ hm => ?_⟩⟩
  · rw [hpointer] at hq
    cases hq
  · rw [hnone p] at hm
    cases hm

/-- The webhook of a merge. -/
def mergeEvent (prUrl : String) (mergedAt : ℕ) : Delivery :=
  .webhook { ownerRepo := ("acme", "search"), signatureValid := true,
             mutation := .merged (some mergedAt), prUrl := prUrl }

/-- The pointer and the two merges. -/
def mergeState (c : MergeConfig ℕ) : Option ℕ × Option ℕ × Option ℕ :=
  (pointerIn 7 c, mergedIn c 1, mergedIn c 2)

/-- A delivery that nothing interrupts. -/
def wholeDelivery (t : ℕ) (delivery : Delivery) (statements : ℕ) : List (Action ℕ Delivery) :=
  .start t delivery :: List.replicate statements (.call t)

/-- A later merge and then an earlier one, which the reconciler reports: the condition
holds throughout, and the pointer stays at the later merge. -/
theorem pointer_follows_merges_twoOpened :
    PointerFollowsMerges ℕ oneRepo 7 (LocksCurrentPointer 7) twoOpened ∧
      ∃ c, (mergeSystem ℕ oneRepo).Run (LocksCurrentPointer 7) (System.idle twoOpened) c ∧
        mergeState c = (some 1, some 10, some 5) := by
  refine ⟨pointer_follows_merges ℕ oneRepo 7 twoOpened_right, ?_⟩
  have hrun : ((((mergeSystem ℕ oneRepo).guard (locksCurrentPointer 7)).schedule
      (System.idle twoOpened)
      (wholeDelivery 0 (mergeEvent "pull/1" 10) 7 ++
        wholeDelivery 1 (.reconcile [⟨2, some .opened, .merged 5⟩]) 6)).map mergeState) =
      some (some 1, some 10, some 5) := by decide +kernel
  obtain ⟨c, hc, hstate⟩ := Option.map_eq_some_iff.mp hrun
  exact ⟨c, (mergeSystem ℕ oneRepo).run_of_guarded (locksCurrentPointer_spec 7) hc, hstate⟩

/-- Without the condition it fails: the webhook of the earlier merge has loaded the
config repo before the later merge is committed, and moves the pointer back. -/
theorem stale_pointer_overwrites_later_merge :
    ¬ PointerFollowsMerges ℕ oneRepo 7 (fun _ _ _ => True) twoOpened := by
  have hrun : ((((mergeSystem ℕ oneRepo).guard fun _ _ _ => true).schedule
      (System.idle twoOpened)
      ([.start 1 (mergeEvent "pull/2" 5), .call 1] ++
        wholeDelivery 0 (mergeEvent "pull/1" 10) 7 ++ [.stop 0] ++
          List.replicate 5 (.call 1))).bind fun c =>
        (((mergeSystem ℕ oneRepo).guard fun _ _ _ => true).step c (.call 1)).map fun c' =>
          (mergeState c, mergeState c')) =
      some ((some 1, some 10, none), (some 2, some 10, some 5)) := by decide +kernel
  obtain ⟨c, hc, hrest⟩ := Option.bind_eq_some_iff.mp hrun
  obtain ⟨c', hc', hstates⟩ := Option.map_eq_some_iff.mp hrest
  obtain ⟨hbefore, hafter⟩ := Prod.mk.inj hstates
  obtain ⟨hpointer, hmerges⟩ := Prod.mk.inj hbefore
  obtain ⟨hpointer', hmerges'⟩ := Prod.mk.inj hafter
  rintro ⟨-, hforward⟩
  obtain ⟨q', hq', hle⟩ := hforward c c'
    ((mergeSystem ℕ oneRepo).run_of_guarded (fun _ _ _ _ => trivial) hc)
    ((mergeSystem ℕ oneRepo).step_of_guarded (fun _ _ _ _ => trivial) hc') 1 hpointer
  obtain rfl : 2 = q' := Option.some.inj (hpointer'.symm.trans hq')
  have hback := hle 10 5 (Prod.mk.inj hmerges).1 (Prod.mk.inj hmerges').2
  omega

end RelyLoop.Proposals
