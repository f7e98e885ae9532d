import RelyLoop.Studies.StudyState
import RelyLoop.Studies.ChainGate
import RelyLoop.Concurrency.RowAlone
import Mathlib.Data.Set.Card

/-!
# The cascade over a subtree

`cancel_study_with_chain_cascade` walks the follow-ups below a study: it cancels
what is in flight and takes the follow-up depth from completed studies. An
undisturbed request stops the whole subtree and touches nothing else, or raises
and is rolled back.
-/

namespace RelyLoop.Studies

open Concurrency

/-- `child` is a follow-up of `parent`. -/
def ChildOf (rows : ℕ → Option Study) (parent child : ℕ) : Prop :=
  ∃ row, rows child = some row ∧ row.parentStudyId = some parent

/-- The studies at and below a root. -/
def Subtree (rows : ℕ → Option Study) : ℕ → ℕ → Prop := Relation.ReflTransGen (ChildOf rows)

/-- The study has ended, and no follow-up can come from it: it failed, was
cancelled, or has no depth left. -/
structure Stopped (study : Study) : Prop where
  ended : inFlight study = false
  closed : study.status = .failed ∨ study.status = .cancelled ∨
    study.config.autoFollowupDepth.getD 0 = 0

/-- A follow-up depth is not negative. -/
def DepthOk (study : Study) : Prop :=
  ∀ depth, study.config.autoFollowupDepth = some depth → 0 ≤ depth

/-- What the cascade may do to a row. -/
structure Cascaded (old new : Study) : Prop where
  parent : new.parentStudyId = old.parentStudyId
  status : new.status = old.status ∨ inFlight old = true ∧ new.status = .cancelled
  stopped : Stopped old → Stopped new
  depth : DepthOk old → DepthOk new

/-- What the cascade from `root` may do to the rows. -/
structure CascadedRows (root : ℕ) (old new : ℕ → Option Study) : Prop where
  row : ∀ k r, old k = some r → ∃ r', new k = some r' ∧ Cascaded r r'
  absent : ∀ k, old k = none → new k = none
  outside : ∀ k, ¬ Subtree old root k → new k = old k

/-- All rows of a subtree are stopped. -/
def SubtreeStopped (rows : ℕ → Option Study) (root : ℕ) (later : ℕ → Option Study) : Prop :=
  ∀ k, Subtree rows root k → ∀ r, later k = some r → Stopped r

/-- The studies below a study. -/
def Descendants (rows : ℕ → Option Study) (studyId : ℕ) : Set ℕ :=
  {k | Relation.TransGen (ChildOf rows) studyId k}

/-- The studies with keys in a list form a forest, and have depths from zero up. -/
structure Forest (keys : List ℕ) (rows : ℕ → Option Study) : Prop where
  known : ∀ k r, rows k = some r → k ∈ keys
  acyclic : ∀ k, k ∉ Descendants rows k
  depth : ∀ k r, rows k = some r → DepthOk r

/-- What a committed cascade from `root` leaves of the rows: the subtree is
terminal and its gate closed, terminal studies keep their status, and the other
rows are as they were. -/
structure Defused (root : ℕ) (old new : ℕ → Option Study) : Prop where
  kept : ∀ k r, old k = some r → ∃ r', new k = some r' ∧
    (inFlight r = false → r'.status = r.status)
  terminal : ∀ k, Subtree old root k → ∀ r, new k = some r → legalTransitions r.status = []
  gate : ∀ k, Subtree old root k → ∀ r, new k = some r → ∀ trials epsilon direction,
    (evaluateChainGate r trials epsilon direction).decision ≠ .enqueue
  outside : ∀ k, ¬ Subtree old root k → new k = old k

variable {rows rows₁ rows₂ : ℕ → Option Study} {study old new : Study} {root child k : ℕ}

/-- No trials, epsilon and direction make the gate ask for a follow-up. -/
theorem Stopped.gate (h : Stopped study) (trials : List Trial) (epsilon : ℚ) (d : Direction) :
    (evaluateChainGate study trials epsilon d).decision ≠ .enqueue := by
  unfold evaluateChainGate
  by_cases hended : study.status = .failed ∨ study.status = .cancelled
  · simp [hended]
  · have hdepth : study.config.autoFollowupDepth.getD 0 = 0 := by
      rcases h.closed with hfailed | hcancelled | hzero
      · exact absurd (Or.inl hfailed) hended
      · exact absurd (Or.inr hcancelled) hended
      · exact hzero
    simp [hended, hdepth]

theorem Cascaded.refl (study : Study) : Cascaded study study :=
  ⟨rfl, Or.inl rfl, fun h => h, fun h => h⟩

theorem inFlight_of_status (h : new.status = old.status) : inFlight new = inFlight old := by
  simp [inFlight, h]

theorem not_inFlight_of_cancelled (h : study.status = .cancelled) : inFlight study = false := by
  simp [inFlight, h]

/-- A terminal study keeps its status. -/
theorem Cascaded.status_eq (h : Cascaded old new) (hended : inFlight old = false) :
    new.status = old.status := by
  rcases h.status with hsame | ⟨hflight, -⟩
  · exact hsame
  · simp [hended] at hflight

theorem Cascaded.trans {newer : Study} (h : Cascaded old new) (h' : Cascaded new newer) :
    Cascaded old newer where
  parent := h'.parent.trans h.parent
  status := by
    rcases h.status with hsame | ⟨hflight, hcancelled⟩
    · rw [← hsame, ← inFlight_of_status hsame]
      exact h'.status
    · have hkept := h'.status_eq (not_inFlight_of_cancelled hcancelled)
      exact Or.inr ⟨hflight, hkept.trans hcancelled⟩
  stopped := h'.stopped ∘ h.stopped
  depth := h'.depth ∘ h.depth

/-- A study that has ended and whose depth the cascade does not take is stopped. -/
theorem stopped_of_skipped {depth : ℤ} (hended : inFlight study = false) (hdepth : DepthOk study)
    (hsome : study.config.autoFollowupDepth = some depth)
    (hskip : ¬ (study.status = .completed ∧ depth > 0)) : Stopped study := by
  refine ⟨hended, ?_⟩
  have hnonneg := hdepth depth hsome
  cases hstatus : study.status with
  | queued => simp [inFlight, hstatus] at hended
  | running => simp [inFlight, hstatus] at hended
  | failed => exact Or.inl rfl
  | cancelled => exact Or.inr (Or.inl rfl)
  | completed =>
    have hle : ¬ depth > 0 := fun h => hskip ⟨hstatus, h⟩
    have hzero : depth = 0 := by omega
    exact Or.inr (Or.inr (by simp [hsome, hzero]))

/-- The cascade leaves the forest as it is. -/
theorem CascadedRows.childOf (h : CascadedRows root rows rows₁) :
    ChildOf rows₁ = ChildOf rows := by
  funext parent child
  apply propext
  constructor
  · rintro ⟨row₁, hrow₁, hparent⟩
    cases hrow : rows child with
    | none => simp [h.absent child hrow] at hrow₁
    | some row =>
      obtain ⟨row', hrow', hcascaded⟩ := h.row child row hrow
      obtain rfl : row' = row₁ := Option.some.inj (hrow'.symm.trans hrow₁)
      exact ⟨row, hrow, hcascaded.parent.symm.trans hparent⟩
  · rintro ⟨row, hrow, hparent⟩
    obtain ⟨row', hrow', hcascaded⟩ := h.row child row hrow
    exact ⟨row', hrow', hcascaded.parent.trans hparent⟩

theorem CascadedRows.subtree (h : CascadedRows root rows rows₁) : Subtree rows₁ = Subtree rows := by
  unfold Subtree
  rw [h.childOf]

theorem CascadedRows.refl (root : ℕ) (rows : ℕ → Option Study) : CascadedRows root rows rows :=
  ⟨fun _ r hr => ⟨r, hr, Cascaded.refl r⟩, fun _ h => h, fun _ _ => rfl⟩

/-- A cascade below a study of the subtree is part of the cascade. -/
theorem CascadedRows.trans (h : CascadedRows root rows rows₁) (hchild : Subtree rows root child)
    (h' : CascadedRows child rows₁ rows₂) : CascadedRows root rows rows₂ where
  row k r hr := by
    obtain ⟨r₁, hr₁, hcascaded⟩ := h.row k r hr
    obtain ⟨r₂, hr₂, hcascaded'⟩ := h'.row k r₁ hr₁
    exact ⟨r₂, hr₂, hcascaded.trans hcascaded'⟩
  absent k hk := h'.absent k (h.absent k hk)
  outside k hk := by
    have hout : ¬ Subtree rows₁ child k := by
      rw [h.subtree]
      exact fun hsub => hk (hchild.trans hsub)
    rw [h'.outside k hout, h.outside k hk]

/-- Stopped rows stay stopped. -/
theorem SubtreeStopped.cascaded (h : SubtreeStopped rows child rows₁)
    (h' : CascadedRows root rows₁ rows₂) : SubtreeStopped rows child rows₂ := by
  intro k hk r hr
  cases hrow : rows₁ k with
  | none => simp [h'.absent k hrow] at hr
  | some r₁ =>
    obtain ⟨r₂, hr₂, hcascaded⟩ := h'.row k r₁ hrow
    obtain rfl : r₂ = r := Option.some.inj (hr₂.symm.trans hr)
    exact hcascaded.stopped (h k hk r₁ hrow)

/-- A cascade that stops the subtree defuses it. -/
theorem CascadedRows.defused (h : CascadedRows root rows rows₁)
    (hstopped : SubtreeStopped rows root rows₁) : Defused root rows rows₁ where
  kept k r hr := by
    obtain ⟨r', hr', hcascaded⟩ := h.row k r hr
    exact ⟨r', hr', hcascaded.status_eq⟩
  terminal k hk r hr := by
    have hended := (hstopped k hk r hr).ended
    cases hstatus : r.status <;> simp_all [inFlight, legalTransitions]
  gate k hk r hr := (hstopped k hk r hr).gate
  outside := h.outside

/-- One row of the subtree changes. -/
theorem cascadedRows_update (hk : Subtree rows root k) (hold : rows k = some old)
    (h : Cascaded old new) : CascadedRows root rows (Function.update rows k (some new)) where
  row k' r hr := by
    by_cases hsame : k' = k
    · subst hsame
      obtain rfl : old = r := Option.some.inj (hold.symm.trans hr)
      exact ⟨new, by simp, h⟩
    · exact ⟨r, by simpa [hsame] using hr, Cascaded.refl r⟩
  absent k' hk' := by
    have hne : k' ≠ k := by
      rintro rfl
      simp [hold] at hk'
    simpa [hne] using hk'
  outside k' hk' := by
    have hne : k' ≠ k := by
      rintro rfl
      exact hk' hk
    simp [hne]

/-- The cascade leaves a forest. -/
theorem CascadedRows.forest {keys : List ℕ} (h : CascadedRows root rows rows₁)
    (hforest : Forest keys rows) : Forest keys rows₁ where
  known k r₁ hr₁ := by
    cases hrow : rows k with
    | none => simp [h.absent k hrow] at hr₁
    | some r => exact hforest.known k r hrow
  acyclic k := by
    have hsame : Descendants rows₁ k = Descendants rows k := by
      unfold Descendants
      rw [h.childOf]
    rw [hsame]
    exact hforest.acyclic k
  depth k r₁ hr₁ := by
    cases hrow : rows k with
    | none => simp [h.absent k hrow] at hr₁
    | some r =>
      obtain ⟨r', hr', hcascaded⟩ := h.row k r hrow
      obtain rfl : r' = r₁ := Option.some.inj (hr'.symm.trans hr₁)
      exact hcascaded.depth (hforest.depth k r hrow)

/-- Descendants are in use. -/
theorem Forest.descendants_subset {keys : List ℕ} (h : Forest keys rows) (k : ℕ) :
    Descendants rows k ⊆ {k' | k' ∈ keys} := by
  intro k' hk'
  obtain ⟨_, -, row, hrow, -⟩ := Relation.TransGen.tail'_iff.mp hk'
  exact h.known k' row hrow

/-- A child has fewer descendants than its parent. -/
theorem Forest.ncard_descendants_lt {keys : List ℕ} (h : Forest keys rows)
    (hchild : ChildOf rows k child) :
    (Descendants rows child).ncard < (Descendants rows k).ncard := by
  have hsubset : Descendants rows child ⊆ Descendants rows k :=
    fun _ hk' => Relation.TransGen.head hchild hk'
  have hmem : child ∈ Descendants rows k := Relation.TransGen.single hchild
  have hproper : Descendants rows child ⊂ Descendants rows k :=
    (Set.ssubset_iff_of_subset hsubset).mpr ⟨child, hmem, h.acyclic child⟩
  exact Set.ncard_lt_ncard hproper (keys.finite_toSet.subset (h.descendants_subset k))

theorem Forest.ncard_descendants_le {keys : List ℕ} (h : Forest keys rows) (k : ℕ) :
    (Descendants rows k).ncard ≤ keys.length := by
  have hle : (Descendants rows k).ncard ≤ (keys.toFinset : Set ℕ).ncard := by
    refine Set.ncard_le_ncard ?_ (Finset.finite_toSet _)
    simpa using h.descendants_subset k
  rw [Set.ncard_coe_finset] at hle
  exact hle.trans (List.toFinset_card_le keys)

/-- The row that `cancel_study` writes. -/
def cancelledRow (now : ℕ) (study : Study) : Study :=
  { study with status := .cancelled, completedAt := some now }

theorem stopped_cancelledRow (now : ℕ) (study : Study) : Stopped (cancelledRow now study) :=
  ⟨rfl, Or.inr (Or.inl rfl)⟩

theorem cascaded_cancelledRow (now : ℕ) (h : inFlight study = true) :
    Cascaded study (cancelledRow now study) :=
  ⟨rfl, Or.inr ⟨h, rfl⟩, fun _ => stopped_cancelledRow now study, fun hdepth => hdepth⟩

/-! ## The undisturbed cascade -/

section Run

variable {T : Type} [DecidableEq T] {t : T} {s : Store T ℕ Study} {now studyId : ℕ}
  {E : StudyError → Store T ℕ Study → Prop} {keys : List ℕ}

/-- The rows of the session after the change of one row. -/
def RowChanged (t : T) (studyId : ℕ) (s : Store T ℕ Study) (changed : Study → Prop)
    (s' : Store T ℕ Study) : Prop :=
  ∃ row, s'.visible t = Function.update (s.visible t) studyId (some row) ∧ changed row

theorem ends_loadForUpdate (hs : Solo t s) (hrow : s.visible t studyId = some study) :
    Ends t (fun loaded s' => loaded = study ∧ s'.visible t = s.visible t) E
      (loadForUpdate studyId) s := by
  refine ends_selectForUpdate hs fun s' hs' hvis => ?_
  rw [hrow]
  exact Ends.done hs' ⟨rfl, hvis⟩

/-- Cancelling a study that is in flight. -/
theorem ends_cancelStudy (hs : Solo t s) (hrow : s.visible t studyId = some study)
    (hflight : inFlight study = true) :
    Ends t (fun _ => RowChanged t studyId s (· = cancelledRow now study)) E
      (cancelStudy now studyId) s := by
  refine Ends.seq (ends_loadForUpdate hs hrow) ?_
  rintro loaded s₁ hs₁ ⟨rfl, hvis⟩
  have hlegal : StudyStatus.cancelled ∈ legalTransitions loaded.status := by
    cases hstatus : loaded.status <;> simp_all [inFlight, legalTransitions]
  have hcheck : ensureLegal loaded.status .cancelled = .done () := by simp [ensureLegal, hlegal]
  simp only [hcheck, Program.done_bind, Program.bind_eq]
  refine ends_update hs₁ (hvis ▸ hrow) fun s₂ hs₂ hvis₂ => Ends.done hs₂ ?_
  exact ⟨cancelledRow now loaded, by rw [hvis₂, hvis]; rfl, rfl⟩

/-- Cancelling a study that has ended raises, and is caught. -/
theorem ends_cancelUnlessTerminal (hs : Solo t s) (hrow : s.visible t studyId = some study)
    (fallback : Study) :
    Ends t (fun _ => RowChanged t studyId s fun row =>
        Cascaded study row ∧ (inFlight study = true → Stopped row)) E
      (cancelUnlessTerminal now studyId fallback) s := by
  refine Ends.handle ?_
  by_cases hflight : inFlight study = true
  · refine (ends_cancelStudy hs hrow hflight).mono ?_ fun _ _ h => h
    rintro - s' - ⟨row, hvis, rfl⟩
    exact ⟨_, hvis, cascaded_cancelledRow now hflight, fun _ => stopped_cancelledRow now study⟩
  · refine Ends.seq (ends_loadForUpdate hs hrow) ?_
    rintro loaded s₁ hs₁ ⟨rfl, hvis⟩
    have hillegal : StudyStatus.cancelled ∉ legalTransitions loaded.status := by
      cases hstatus : loaded.status <;> simp_all [inFlight, legalTransitions]
    have hcheck : ensureLegal loaded.status .cancelled =
        .raise (.invalidStateTransition loaded.status .cancelled) := by
      simp [ensureLegal, hillegal]
    simp only [hcheck, Program.raise_bind, Program.bind_eq]
    refine Ends.raise hs₁ (Ends.done hs₁ ⟨loaded, ?_, Cascaded.refl loaded, fun h => ?_⟩)
    · rw [hvis, Function.update_eq_self_iff.mpr hrow.symm]
    · exact absurd h hflight

/-- The cascade on a parent stops it. -/
theorem ends_cascadeParent (hs : Solo t s) (hrow : s.visible t studyId = some study)
    (hdepth : DepthOk study) :
    Ends t (fun _ => RowChanged t studyId s fun row => Cascaded study row ∧ Stopped row) E
      (cascadeParent now studyId study) s := by
  unfold cascadeParent
  by_cases hflight : inFlight study = true
  · rw [if_pos hflight]
    refine (ends_cancelUnlessTerminal hs hrow study).mono ?_ fun _ _ h => h
    rintro - s' - ⟨row, hvis, hcascaded, hstopped⟩
    exact ⟨row, hvis, hcascaded, hstopped hflight⟩
  · rw [if_neg hflight]
    have hended : inFlight study = false := by simpa using hflight
    have hkeep : Stopped study →
        RowChanged t studyId s (fun row => Cascaded study row ∧ Stopped row) s := fun h =>
      ⟨study, by rw [Function.update_eq_self_iff.mpr hrow.symm], Cascaded.refl study, h⟩
    unfold zeroFollowupDepth
    split
    · rename_i previousDepth hprevious
      split
      · refine ends_update hs hrow fun s' hs' hvis => Ends.done hs' ⟨_, hvis, ?_, ?_⟩
        · have hzero : ∀ depth, some (0 : ℤ) = some depth → 0 ≤ depth := by
            rintro depth ⟨⟩
            exact le_refl 0
          exact ⟨rfl, Or.inl rfl, fun h => ⟨hended, Or.inr (Or.inr rfl)⟩, fun _ => hzero⟩
        · exact ⟨hended, Or.inr (Or.inr rfl)⟩
      · rename_i hskip
        exact Ends.done hs (hkeep (stopped_of_skipped hended hdepth hprevious hskip))
    · rename_i hnone
      exact Ends.done hs (hkeep ⟨hended, Or.inr (Or.inr (by simp [hnone]))⟩)

/-- The cascade on a listed child, before its own children. -/
theorem ends_cascadeChild (hs : Solo t s) (hrow : s.visible t child = some study) (listed : Study) :
    Ends t (fun _ s' => CascadedRows child (s.visible t) (s'.visible t)) E
      (cascadeChild now (child, listed)) s := by
  unfold cascadeChild
  split
  · refine Ends.seq (ends_cancelUnlessTerminal hs hrow listed) ?_
    rintro - s' hs' ⟨row, hvis, hcascaded, -⟩
    refine Ends.done hs' ?_
    rw [hvis]
    exact cascadedRows_update Relation.ReflTransGen.refl hrow hcascaded
  · exact Ends.done hs (CascadedRows.refl child (s.visible t))

/-- The children that the cascade lists. -/
theorem ends_listChildrenOfStudy (hs : Solo t s) :
    Ends t (fun children s' => s'.visible t = s.visible t ∧
        ∀ x : ℕ × Study, x ∈ children ↔
          s.visible t x.1 = some x.2 ∧ x.2.parentStudyId = some studyId) E
      (listChildrenOfStudy studyId) s := by
  refine ends_selectWhere hs fun s' found hs' hvis hfound => Ends.done hs' ⟨hvis, fun x => ?_⟩
  rw [hfound x, beq_iff_eq]

/-- The walk below a study stops its subtree, and touches nothing else; it only
raises when the recursion limit is used up on the way down. -/
theorem ends_cascadeCancel (fuel : ℕ) (hs : Solo t s) (hrow : s.visible t studyId = some study)
    (hforest : Forest keys (s.visible t)) :
    Ends t (fun _ s' => CascadedRows studyId (s.visible t) (s'.visible t) ∧
        SubtreeStopped (s.visible t) studyId (s'.visible t))
      (fun e _ => e = .recursionError ∧ fuel ≤ (Descendants (s.visible t) studyId).ncard)
      (cascadeCancel now fuel studyId) s := by
  induction fuel generalizing studyId study s with
  | zero => exact Ends.raise hs ⟨rfl, Nat.zero_le _⟩
  | succ fuel ih =>
    generalize hrows : s.visible t = rows at hrow hforest ⊢
    have hdepth : DepthOk study := hforest.depth studyId study hrow
    refine Ends.seq (ends_loadForUpdate hs (hrows ▸ hrow)) ?_
    rintro loaded s₁ hs₁ ⟨rfl, hvis₁⟩
    have hrow₁ : s₁.visible t studyId = some loaded := by rw [hvis₁, hrows, hrow]
    refine Ends.seq (ends_cascadeParent hs₁ hrow₁ hdepth) ?_
    rintro parent s₂ hs₂ ⟨row, hvis₂, hcascaded, hstopped⟩
    rw [hvis₁, hrows] at hvis₂
    have hparent : CascadedRows studyId rows (s₂.visible t) := by
      rw [hvis₂]
      exact cascadedRows_update Relation.ReflTransGen.refl hrow hcascaded
    refine Ends.seq (ends_listChildrenOfStudy hs₂) ?_
    rintro children s₃ hs₃ ⟨hvis₃, hchildren⟩
    have hchild : ∀ x ∈ children, ChildOf (s₂.visible t) studyId x.1 := fun x hx =>
      ⟨x.2, ((hchildren x).mp hx).1, ((hchildren x).mp hx).2⟩
    have hround : ∀ x ∈ children, ∀ s', Solo t s' →
        CascadedRows studyId (s₂.visible t) (s'.visible t) →
        Ends t (fun _ s'' => CascadedRows studyId (s₂.visible t) (s''.visible t) ∧
            SubtreeStopped (s₂.visible t) x.1 (s''.visible t) ∧
            ∀ y : ℕ × Study, SubtreeStopped (s₂.visible t) y.1 (s'.visible t) →
              SubtreeStopped (s₂.visible t) y.1 (s''.visible t))
          (fun e _ => e = .recursionError ∧ fuel + 1 ≤ (Descendants rows studyId).ncard)
          (do cascadeChild now x; discard (cascadeCancel now fuel x.1)) s' := by
      intro x hx s' hs' hdone
      obtain ⟨r, hr, -⟩ := hchild x hx
      obtain ⟨r', hr', -⟩ := hdone.row x.1 r hr
      refine Ends.seq (ends_cascadeChild hs' hr' x.2) fun _ s₄ hs₄ hcancelled => ?_
      obtain ⟨r₄, hr₄, -⟩ := hcancelled.row x.1 r' hr'
      have hforest₄ := hcancelled.forest (hdone.forest (hparent.forest hforest))
      have hsubtree : Subtree (s₄.visible t) = Subtree (s₂.visible t) :=
        hcancelled.subtree.trans hdone.subtree
      refine Ends.seq ((ih hs₄ hr₄ hforest₄).mono (fun _ _ _ h => h) ?_) ?_
      · rintro e - ⟨rfl, hfuel⟩
        have hsame : Descendants (s₄.visible t) x.1 = Descendants rows x.1 := by
          unfold Descendants
          rw [hcancelled.childOf, hdone.childOf, hparent.childOf]
        have hless := hforest.ncard_descendants_lt (hparent.childOf ▸ hchild x hx)
        rw [hsame] at hfuel
        exact ⟨rfl, by omega⟩
      · rintro - s₅ hs₅ ⟨hbelow, hstop⟩
        have hwhole : CascadedRows x.1 (s'.visible t) (s₅.visible t) :=
          hcancelled.trans Relation.ReflTransGen.refl hbelow
        have hreach : Subtree (s₂.visible t) studyId x.1 :=
          Relation.ReflTransGen.single (hchild x hx)
        refine Ends.done hs₅ ⟨hdone.trans hreach hwhole, fun k hk => ?_, fun y hy => ?_⟩
        · exact hstop k (by rwa [hsubtree])
        · exact hy.cascaded hwhole
    refine Ends.seq (Ends.each hround hs₃ ?_) ?_
    · rw [hvis₃]
      exact CascadedRows.refl studyId (s₂.visible t)
    · rintro - s' hs' ⟨⟨hdone, -⟩, hall⟩
      refine Ends.done hs' ⟨hparent.trans Relation.ReflTransGen.refl hdone, fun k hk r hr => ?_⟩
      rw [← hparent.subtree] at hk
      rcases Relation.ReflTransGen.cases_head hk with rfl | ⟨c, ⟨rc, hrc, hrcParent⟩, hbelow⟩
      · have hrow₂ : s₂.visible t studyId = some row := by rw [hvis₂, Function.update_self]
        obtain ⟨r', hr', hkept⟩ := hdone.row studyId row hrow₂
        obtain rfl : r' = r := Option.some.inj (hr'.symm.trans hr)
        exact hkept.stopped hstopped
      · have hlisted : (c, rc) ∈ children := (hchildren (c, rc)).mpr ⟨hrc, hrcParent⟩
        exact hall (c, rc) hlisted k hbelow r hr

/-- For all forests of studies and roots, an undisturbed cascade ends. When it
returns, the caller commits, and the subtree is defused. When it raises, the root
does not exist or the chain is longer than the recursion limit; the caller rolls
back, and all rows are as they were. -/
theorem cascade_defuses_subtree (t : T) (limit now root : ℕ) (hlock : ∀ k, s.lock k = none)
    (hfresh : ∀ k, s.identity t k = none) (hforest : Forest s.keys s.committed) :
    ∃ inner result final,
      (cancelStudyWithChainCascade limit now root true).alone (Store.exec t) s =
        some (inner, result) ∧
      (transact (cancelStudyWithChainCascade limit now root true)).alone (Store.exec t) s =
        some (final, .ok ()) ∧
      match result with
      | .ok _ => Defused root s.committed final.committed
      | .error e => final.committed = s.committed ∧
          (e = .studyNotFound root ∧ s.committed root = none ∨
            e = .recursionError ∧ limit ≤ s.keys.length) := by
  have hs : Solo t s := Solo.of_unlocked hlock hfresh hforest.known
  have hvis : s.visible t = s.committed := by
    funext k
    exact Store.visible_of_not_held (Store.not_held_of_free (hlock k))
  have hends : Ends t (fun _ s' => Defused root s.committed (s'.visible t))
      (fun e _ => e = .studyNotFound root ∧ s.committed root = none ∨
        e = .recursionError ∧ limit ≤ s.keys.length)
      (cancelStudyWithChainCascade limit now root true) s := by
    show Ends t _ _ (cascadeCancel now limit root) s
    cases hrow : s.committed root with
    | none =>
      cases limit with
      | zero => exact Ends.raise hs (Or.inr ⟨rfl, Nat.zero_le _⟩)
      | succ fuel =>
        refine ends_selectForUpdate hs fun s' hs' _ => ?_
        rw [hvis, hrow]
        exact Ends.raise hs' (Or.inl ⟨rfl, rfl⟩)
    | some study =>
      rw [← hvis] at hrow hforest
      refine (ends_cascadeCancel limit hs hrow hforest).mono ?_ ?_
      · rintro _ s' - ⟨hrows, hstopped⟩
        rw [hvis] at hrows hstopped
        exact hrows.defused hstopped
      · rintro e - ⟨rfl, hlimit⟩
        exact Or.inr ⟨rfl, hlimit.trans (hforest.ncard_descendants_le root)⟩
  obtain ⟨inner, result, hrun, -, hcomm, -, hpost⟩ := hends
  cases result with
  | ok study =>
    refine ⟨inner, .ok study, inner.commit t, hrun, ?_, hpost⟩
    refine Program.alone_handle_ok _ ?_
    exact (Program.alone_bind_ok (fun _ => Transaction.commit) hrun).trans rfl
  | error e =>
    refine ⟨inner, .error e, inner.rollback t, hrun, ?_, hcomm, hpost⟩
    exact Program.alone_handle_error (fun _ => Transaction.rollback)
      (Program.alone_bind_error (fun _ => Transaction.commit) hrun)

end Run

/-- A completed root with follow-ups left, a running follow-up and a study of its own. -/
def cascadeRows (k : ℕ) : Option Study :=
  let study : Study :=
    { objective := { metric := .ndcg, k := none, direction := .maximize }
      config := { autoFollowupDepth := some 2 }
      status := .completed }
  match k with
  | 1 => some study
  | 2 => some { study with status := .running, parentStudyId := some 1 }
  | 3 => some study
  | _ => none

/-- The rows in a table that nobody uses. -/
def cascadeStore : Store ℕ ℕ Study :=
  { keys := [1, 2, 3], committed := cascadeRows, lock := fun _ => none, identity := fun _ _ => none }

/-- Parents come before their follow-ups here. -/
theorem forest_cascadeRows : Forest [1, 2, 3] cascadeRows := by
  have hcases : ∀ k r, cascadeRows k = some r → k ∈ [1, 2, 3] ∧ DepthOk r ∧
      ∀ parent, r.parentStudyId = some parent → parent < k := by
    intro k r hr
    unfold cascadeRows at hr
    split at hr <;> simp only [Option.some.injEq, reduceCtorEq] at hr <;> subst hr <;>
      simp [DepthOk]
  refine ⟨fun k r hr => (hcases k r hr).1, fun k hk => ?_, fun k r hr => (hcases k r hr).2.1⟩
  have hlt : ∀ parent child, ChildOf cascadeRows parent child → parent < child := by
    rintro parent child ⟨row, hrow, hparent⟩
    exact (hcases child row hrow).2.2 parent hparent
  exact lt_irrefl k (Relation.transGen_minimal hlt k k hk)

theorem cascade_defuses_subtree_of_completed_root :
    ∃ final, (transact (cancelStudyWithChainCascade 1000 9 1 true)).alone (Store.exec 0)
      cascadeStore = some (final, .ok ()) ∧ Defused 1 cascadeRows final.committed := by
  obtain ⟨inner, result, final, -, hrun, hpost⟩ :=
    cascade_defuses_subtree (s := cascadeStore) (0 : ℕ) 1000 9 1 (fun _ => rfl) (fun _ => rfl)
      forest_cascadeRows
  refine ⟨final, hrun, ?_⟩
  cases result with
  | ok study => exact hpost
  | error e =>
    rcases hpost.2 with ⟨-, habsent⟩ | ⟨-, hlimit⟩
    · cases habsent
    · simp [cascadeStore] at hlimit

end RelyLoop.Studies
