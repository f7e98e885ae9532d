import RelyLoop.Concurrency.RowVersions
import RelyLoop.Studies.Cascade
import RelyLoop.Studies.ChainGate
import RelyLoop.Studies.StudyState

/-!
# The follow-up worker

`enqueue_followup_study` inserts the next study of a chain when its gates pass.
It runs beside other deliveries for the same parent and beside the cascade that
stops the chain; the foreign key `studies.parent_study_id` makes an insert wait
for a lock on the parent, and a lock on a parent wait for the insert.
-/

namespace RelyLoop.Studies

open Concurrency

/-- What a delivery gets from outside the `studies` table: its uuid and clock, the
settings, the answers of Redis, and the rows of the other tables. -/
structure Delivery where
  childId : ℕ
  now : ℕ
  allTrials : List Trial
  budget : ℚ
  modelKnown : Bool
  peekTotal : ℚ
  maxCallCost : ℚ
  bestTrialFound : Bool
  templateFound : Bool

/-- `_BUDGET_THRESHOLD_PCT`. -/
def budgetThresholdPct : ℚ := 4 / 5

/-- The budget checks of the worker; a budget of zero turns them off. -/
def skipsForBudget (d : Delivery) : Bool :=
  decide (d.budget > 0) &&
    (!d.modelKnown || decide (d.peekTotal + d.maxCallCost > budgetThresholdPct * d.budget))

/-- The row that `repo.create_study` inserts for the follow-up. -/
def childStudy (d : Delivery) (parentStudyId : ℕ) (parent : Study) : Study :=
  let remaining := parent.config.autoFollowupDepth.getD 0 - 1
  { objective := parent.objective
    config := { parent.config with autoFollowupDepth := some remaining }
    status := .queued
    parentStudyId := some parentStudyId
    createdAt := d.now }

/-- `enqueue_followup_study`. -/
def enqueueFollowupStudy (parentStudyId : ℕ) (d : Delivery) : Db Unit := do
  match ← getStudy parentStudyId with
  | none => return
  | some parent =>
    let existingChildren ← listChildrenOfStudy parentStudyId
    if existingChildren ≠ [] then
      return
    if (evaluateChainGate parent (completeTrials d.allTrials)).decision ≠ .enqueue then
      return
    if skipsForBudget d then
      return
    if parent.bestTrialId.isNone || !d.bestTrialFound || !d.templateFound then
      return
    Transaction.insert d.childId (childStudy d parentStudyId parent)
    Transaction.commit

/-- The request that stops a chain: it commits, or is rolled back and raises. -/
def stopChain (recursionLimit now rootStudyId : ℕ) : Db Unit :=
  tryCatch (do
      discard (cancelStudyWithChainCascade recursionLimit now rootStudyId true)
      Transaction.commit)
    fun e => do
      Transaction.rollback
      throw e

/-- The jobs of one chain. -/
inductive ChainJob where
  | deliver (d : Delivery)
  | stopChain (recursionLimit now : ℕ)

/-- What the foreign key makes a statement wait for: the insert of a child takes a
key lock on the parent, which conflicts with `FOR UPDATE`. -/
def waitsForForeignKey {T : Type} [DecidableEq T] (t : T) (s : Store T ℕ Study) :
    RowOp ℕ Study → Bool
  | .insert _ row => row.parentStudyId.any fun parent => s.lockedByOther t parent
  | .selectForUpdate parent => s.keys.any fun k =>
      (s.committed k).isNone && s.lockedByOther t k &&
        ((s.lock k).bind Lock.written).any fun row => row.parentStudyId == some parent
  | _ => false

/-- A statement on the table with its foreign key. -/
def execWithForeignKey {T : Type} [DecidableEq T] (t : T) (s : Store T ℕ Study)
    (o : RowOp ℕ Study) : Option (Store T ℕ Study × o.Res) :=
  if waitsForForeignKey t s o then none else Store.exec t s o

/-- The follow-up deliveries for one parent, and the requests that stop a chain
from one root. -/
def chainSystem (T : Type) [DecidableEq T] (rootStudyId parentStudyId : ℕ) :
    System T ChainJob (Store T ℕ Study) (RowOp ℕ Study) RowOp.Res StudyError where
  code
    | .deliver d => enqueueFollowupStudy parentStudyId d
    | .stopChain recursionLimit now => stopChain recursionLimit now rootStudyId
  admits _ _ := true
  exec := execWithForeignKey
  reset t s := s.rollback t

end RelyLoop.Studies

/-!
## The contract of a chain

What the deliveries and the requests that stop a chain may rely on. A request
keeps the locks of the rows it has stopped, so nobody adds a child below them
before it commits; a delivery that inserts on current reads finds the chain not
stopped, and no other follow-up of its parent.
-/

namespace RelyLoop.Studies

open Concurrency Store

variable {T : Type} [DecidableEq T]

/-- Some version of the row `child`, committed or not, is a follow-up of `parent`. -/
def VersionChild (s : Store T ℕ Study) (parent child : ℕ) : Prop :=
  ∃ r ∈ s.versions child, r.parentStudyId = some parent

/-- The studies at and below a root, uncommitted ones included. -/
def Below (s : Store T ℕ Study) : ℕ → ℕ → Prop := Relation.ReflTransGen (VersionChild s)

/-- All versions at and below the root are stopped. -/
def ChainStopped (root : ℕ) (s : Store T ℕ Study) : Prop :=
  ∀ k, Below s root k → ∀ r ∈ s.versions k, Stopped r

/-- When a follow-up is inserted, what its delivery has read is still current: the
loaded parent is the committed row, and the list of its children is still empty,
uncommitted ones included. -/
def ReadsCurrent (parent : ℕ) (t : T) (s : Store T ℕ Study) : RowOp ℕ Study → Prop
  | .insert _ _ =>
    s.identity t parent = s.committed parent ∧ ∀ c ∈ s.keys, ¬ VersionChild s parent c
  | _ => True

/-- The invariant of the table: `old` are the keys in use at first. -/
structure ChainInv (old : List ℕ) (root parent : ℕ) (s : Store T ℕ Study) : Prop where
  disciplined : s.Disciplined Cascaded DepthOk
  known : s.KeysKnown
  fresh : ∀ k, s.committed k = none → ∀ r ∈ s.versions k, r.parentStudyId = some parent
  closed : ∀ t k, s.held t k ≠ none → ∀ c, VersionChild s k c → (s.visible t c).isSome
  reach : Subtree s.committed root parent
  single : ∀ c c', VersionChild s parent c → VersionChild s parent c' → c ∉ old → c = c'

/-- What a session relies on. -/
structure ChainRely (root : ℕ) (t : T) (s s' : Store T ℕ Study) : Prop where
  frame : Frame t s s'
  rows : ∀ k r, s.committed k = some r → ∃ r', s'.committed k = some r' ∧ Cascaded r r'
  children : ∀ k c, s.held t k ≠ none → VersionChild s' k c → VersionChild s k c
  stopped : ChainStopped root s → ChainStopped root s'

/-- The contract of the jobs of one chain. -/
def chainContract (T : Type) [DecidableEq T] (old : List ℕ) (root parent : ℕ) :
    Contract T ChainJob (Store T ℕ Study) (RowOp ℕ Study) where
  inv := ChainInv old root parent
  change _ s s' := ChainStopped root s → ChainStopped root s'
  rely := ChainRely root
  cond := ReadsCurrent parent
  rely_refl t s :=
    ⟨Frame.refl t s, fun _ r hr => ⟨r, hr, Cascaded.refl r⟩, fun _ _ _ h => h, fun h => h⟩
  rely_trans t s₁ s₂ s₃ h h' := by
    refine ⟨h.frame.trans h'.frame, fun k r hr => ?_, fun k c hk hc => ?_, h'.stopped ∘ h.stopped⟩
    · obtain ⟨r₂, hr₂, hcascaded⟩ := h.rows k r hr
      obtain ⟨r₃, hr₃, hcascaded'⟩ := h'.rows k r₂ hr₂
      exact ⟨r₃, hr₃, hcascaded.trans hcascaded'⟩
    · exact h.children k c hk (h'.children k c (by rwa [h.frame.held k]) hc)

variable {old : List ℕ} {root parent : ℕ} {s s' : Store T ℕ Study} {t t' : T} {k c : ℕ}
variable {r v : Study}

/-- The versions of a row have one parent. -/
theorem ChainInv.parent_eq {r' : Study} (h : ChainInv old root parent s) (hr : r ∈ s.versions k)
    (hr' : r' ∈ s.versions k) : r.parentStudyId = r'.parentStudyId := by
  cases hcomm : s.committed k with
  | none => rw [h.fresh k hcomm r hr, h.fresh k hcomm r' hr']
  | some r₀ =>
    have hsame : ∀ r ∈ s.versions k, r.parentStudyId = r₀.parentStudyId := by
      intro r hr
      rcases mem_versions.mp hr with hcommitted | hwritten
      · obtain rfl : r₀ = r := Option.some.inj (hcomm.symm.trans hcommitted)
        rfl
      · obtain ⟨l, hlock, hl⟩ := Option.bind_eq_some_iff.mp hwritten
        have hheld : s.held l.owner k = some (some r) := by simp [held_of_lock hlock, hl]
        exact (h.disciplined.replaces l.owner k r₀ r hheld hcomm).parent
    rw [hsame r hr, hsame r' hr']

/-! ## What a statement may do -/

/-- What the contract asks of a statement. -/
def Permitted (root parent : ℕ) (t : T) (s : Store T ℕ Study) : RowOp ℕ Study → Prop
  | .update k f => s.held t k ≠ none ∧ ∀ v, s.visible t k = some v → Cascaded v (f v)
  | .updateWhere _ _ _ => False
  | .insert _ r => r.parentStudyId = some parent ∧ DepthOk r ∧ (s.committed parent).isSome ∧
      ¬ ChainStopped root s ∧ ∀ c, ¬ VersionChild s parent c
  | _ => True

/-- A visible row is the committed one, or may replace it. -/
theorem cascaded_of_visible {r₀ : Study} (h : s.Disciplined Cascaded DepthOk)
    (hvis : s.visible t k = some v) (hcomm : s.committed k = some r₀) : Cascaded r₀ v := by
  unfold Store.visible at hvis
  split at hvis
  · rename_i r hheld
    obtain rfl := Option.some.inj hvis
    exact h.replaces t k r₀ r hheld hcomm
  · rw [hcomm] at hvis
    obtain rfl := Option.some.inj hvis
    exact Cascaded.refl r₀

theorem depthOk_of_visible (h : s.Disciplined Cascaded DepthOk)
    (hvis : s.visible t k = some v) : DepthOk v := by
  unfold Store.visible at hvis
  split at hvis
  · rename_i r hheld
    obtain rfl := Option.some.inj hvis
    exact h.written t k r hheld
  · exact h.committed k v hvis

/-- A permitted statement is allowed by the discipline. -/
theorem Permitted.allowed {o : RowOp ℕ Study} (h : Permitted root parent t s o)
    (hd : s.Disciplined Cascaded DepthOk) : s.Allowed Cascaded DepthOk t o := by
  cases o with
  | update k f =>
    intro v hv
    have hcascaded := h.2 v hv
    exact ⟨hcascaded.depth (depthOk_of_visible hd hv), fun r₀ hr₀ =>
      (cascaded_of_visible hd hv hr₀).trans hcascaded⟩
  | updateWhere k p f => exact h.elim
  | insert k r => exact h.2.1
  | _ => trivial

/-- A row that a statement writes continues a version, or is a new follow-up. -/
theorem version_exec {o : RowOp ℕ Study} {a : o.Res} (hpermitted : Permitted root parent t s o)
    (hexec : Store.exec t s o = some (s', a)) (hr : r ∈ s'.versions k) :
    (∃ v ∈ s.versions k, Cascaded v r) ∨ o = .insert k r := by
  rcases mem_versions_exec hexec hr with hold | hwrites
  · exact Or.inl ⟨r, hold, Cascaded.refl r⟩
  · cases o with
    | update k' f =>
      obtain ⟨rfl, v, hv, rfl⟩ := hwrites
      exact Or.inl ⟨v, mem_versions_of_visible hv, hpermitted.2 v hv⟩
    | updateWhere k' p f => exact hpermitted.elim
    | insert k' r' =>
      obtain ⟨rfl, rfl⟩ := hwrites
      exact Or.inr rfl
    | _ => exact hwrites.elim

/-- A statement adds no child but the follow-up that it inserts. -/
theorem versionChild_exec {o : RowOp ℕ Study} {a : o.Res}
    (hpermitted : Permitted root parent t s o) (hexec : Store.exec t s o = some (s', a))
    (h : VersionChild s' k c) :
    VersionChild s k c ∨ k = parent ∧ ∃ r, o = .insert c r := by
  obtain ⟨r, hr, hparent⟩ := h
  rcases version_exec hpermitted hexec hr with ⟨v, hv, hcascaded⟩ | rfl
  · exact Or.inl ⟨v, hv, hcascaded.parent.symm.trans hparent⟩
  · exact Or.inr ⟨Option.some.inj (hparent.symm.trans hpermitted.1), r, rfl⟩

/-- A statement that inserts nothing keeps a stopped chain stopped; an insert is
not permitted on a stopped chain. -/
theorem chainStopped_exec {o : RowOp ℕ Study} {a : o.Res}
    (hpermitted : Permitted root parent t s o) (hexec : Store.exec t s o = some (s', a))
    (h : ChainStopped root s) : ChainStopped root s' := by
  have hno : ∀ k r, o ≠ .insert k r := by
    rintro k r rfl
    exact hpermitted.2.2.2.1 h
  intro k hk r hr
  have hbelow : Below s root k := by
    refine Relation.ReflTransGen.mono (fun x y hxy => ?_) _ _ hk
    rcases versionChild_exec hpermitted hexec hxy with hold | ⟨-, r, hinsert⟩
    · exact hold
    · exact absurd hinsert (hno y r)
  rcases version_exec hpermitted hexec hr with ⟨v, hv, hcascaded⟩ | hinsert
  · exact hcascaded.stopped (h k hbelow v hv)
  · exact absurd hinsert (hno k r)

/-- A session that sees a row still sees it after the steps of others. -/
theorem visible_isSome_of_frame (hf : Frame t s s') (h : (s.visible t k).isSome) :
    (s'.visible t k).isSome := by
  cases hheld : s.held t k with
  | none =>
    rw [visible_of_not_held hheld] at h
    exact visible_isSome t (hf.kept k h)
  | some l => rwa [hf.visible (by simp [hheld])]

/-- Locking a study waits until the follow-ups of other sessions are committed. -/
theorem closed_selectForUpdate (hinv : ChainInv old root parent s)
    (hwait : waitsForForeignKey t s (.selectForUpdate k) = false) (h : VersionChild s k c) :
    (s.visible t c).isSome := by
  obtain ⟨r, hr, hparent⟩ := h
  by_cases hcomm : (s.committed c).isSome
  · exact visible_isSome t hcomm
  have hnone : s.committed c = none := by simpa using hcomm
  obtain ⟨l, hlock, hwritten⟩ : ∃ l, s.lock c = some l ∧ l.written = some r := by
    rcases mem_versions.mp hr with hcommitted | hwritten
    · simp [hnone] at hcommitted
    · exact Option.bind_eq_some_iff.mp hwritten
  by_cases howner : l.owner = t
  · have hheld : s.held t c = some (some r) := by simp [held_of_lock hlock, howner, hwritten]
    simp [visible_of_written hheld]
  · have hother : s.lockedByOther t c = true := by simp [lockedByOther, hlock, howner]
    have hwaits : waitsForForeignKey t s (.selectForUpdate k) = true := by
      refine List.any_eq_true.mpr ⟨c, hinv.known c r hr, ?_⟩
      simp [hnone, hother, hlock, hwritten, hparent]
    simp [hwait] at hwaits

/-- The follow-ups of a row that a session holds are visible to the session. -/
theorem closed_exec {o : RowOp ℕ Study} {a : o.Res} (hinv : ChainInv old root parent s)
    (hpermitted : Permitted root parent t s o) (hwait : waitsForForeignKey t s o = false)
    (hexec : Store.exec t s o = some (s', a)) (hheld : s'.held t k ≠ none)
    (hchild : VersionChild s' k c) : (s'.visible t c).isSome := by
  have hend : o ≠ .rollback := by
    rintro rfl
    obtain ⟨rfl, -⟩ := Prod.mk.inj (Option.some.inj hexec)
    exact hheld held_rollback
  rcases versionChild_exec hpermitted hexec hchild with hold | ⟨rfl, r, rfl⟩
  · apply visible_isSome_exec hend hexec
    rcases held_of_exec hexec hheld with hbefore | rfl | ⟨f, rfl⟩ | ⟨p, f, rfl⟩ | ⟨r, rfl⟩
    · exact hinv.closed t k hbefore c hold
    · exact closed_selectForUpdate hinv hwait hold
    · exact hinv.closed t k hpermitted.1 c hold
    · exact hpermitted.elim
    · obtain ⟨hnew, -, -⟩ := exec_insert hexec
      obtain ⟨r', hr', hparent⟩ := hold
      by_cases hcomm : (s.committed c).isSome
      · exact visible_isSome t hcomm
      · have hfresh := hinv.fresh c (by simpa using hcomm) r' hr'
        obtain rfl : k = parent := Option.some.inj (hparent.symm.trans hfresh)
        have hexists : (s.committed k).isSome := hpermitted.2.2.1
        simp [hnew] at hexists
  · obtain ⟨-, -, rfl⟩ := exec_insert hexec
    rw [visible_remember, visible_write]
    simp

/-- Nobody adds a follow-up of a row that another session holds. -/
theorem versionChild_other {o : RowOp ℕ Study} {a : o.Res}
    (hpermitted : Permitted root parent t s o) (hwait : waitsForForeignKey t s o = false)
    (hexec : Store.exec t s o = some (s', a)) (hne : t' ≠ t) (hheld : s.held t' k ≠ none)
    (hchild : VersionChild s' k c) : VersionChild s k c := by
  rcases versionChild_exec hpermitted hexec hchild with hold | ⟨rfl, r, rfl⟩
  · exact hold
  · have hfree : s.lockedByOther t k = false := by
      simpa [waitsForForeignKey, hpermitted.1] using hwait
    exact absurd (not_held_of_not_lockedByOther hfree hne) hheld

/-- A permitted statement keeps the invariant and what the others rely on. -/
theorem chainInv_exec {o : RowOp ℕ Study} {a : o.Res} (hinv : ChainInv old root parent s)
    (hpermitted : Permitted root parent t s o) (hwait : waitsForForeignKey t s o = false)
    (hexec : Store.exec t s o = some (s', a)) :
    ChainInv old root parent s' ∧ ∀ t', t' ≠ t → ChainRely root t' s s' := by
  obtain ⟨hdisciplined, hchanges⟩ :=
    hinv.disciplined.exec (hpermitted.allowed hinv.disciplined) hexec
  have hrows : ∀ k r, s.committed k = some r →
      ∃ r', s'.committed k = some r' ∧ Cascaded r r' := by
    intro k r hr
    obtain ⟨r', hr', rfl | hrel⟩ := hchanges k r hr
    · exact ⟨r', hr', Cascaded.refl r'⟩
    · exact ⟨r', hr', hrel⟩
  refine ⟨⟨hdisciplined, hinv.known.exec hexec, ?_, ?_, ?_, ?_⟩, fun t' hne =>
    ⟨exec_frame hexec hne, hrows, fun k c => versionChild_other hpermitted hwait hexec hne,
      chainStopped_exec hpermitted hexec⟩⟩
  · intro k hk r hr
    have hnone : s.committed k = none := by
      by_contra hsome
      obtain ⟨r₀, hr₀⟩ := Option.ne_none_iff_exists'.mp hsome
      obtain ⟨r₁, hr₁, -⟩ := hrows k r₀ hr₀
      simp [hk] at hr₁
    rcases version_exec hpermitted hexec hr with ⟨v, hv, hcascaded⟩ | rfl
    · exact hcascaded.parent.trans (hinv.fresh k hnone v hv)
    · exact hpermitted.1
  · intro t' k hheld c hchild
    by_cases hne : t' = t
    · subst hne
      exact closed_exec hinv hpermitted hwait hexec hheld hchild
    · have hframe := exec_frame hexec hne
      rw [hframe.held k] at hheld
      have hold := versionChild_other hpermitted hwait hexec hne hheld hchild
      exact visible_isSome_of_frame hframe (hinv.closed t' k hheld c hold)
  · refine Relation.ReflTransGen.mono (fun x y hxy => ?_) _ _ hinv.reach
    obtain ⟨row, hrow, hparent⟩ := hxy
    obtain ⟨row', hrow', hcascaded⟩ := hrows y row hrow
    exact ⟨row', hrow', hcascaded.parent.trans hparent⟩
  · intro c c' hc hc' hnew
    rcases versionChild_exec hpermitted hexec hc with hold | ⟨-, r, rfl⟩
    · rcases versionChild_exec hpermitted hexec hc' with hold' | ⟨-, r, rfl⟩
      · exact hinv.single c c' hold hold' hnew
      · exact absurd hold (hpermitted.2.2.2.2 c)
    · rcases versionChild_exec hpermitted hexec hc' with hold' | ⟨-, r', hsame⟩
      · exact absurd hold' (hpermitted.2.2.2.2 c')
      · exact (RowOp.insert.inj hsame).1

end RelyLoop.Studies
