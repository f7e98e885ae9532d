import RelyLoop.Studies.Followup

/-!
# The jobs of a chain are safe

The request that stops a chain covers the subtree from below: what it has
stopped stays locked, so the part that is covered only grows until the commit.
The delivery inserts under the condition of the contract only.
-/

namespace RelyLoop.Studies.Followups

open Concurrency Store

variable {T : Type} [DecidableEq T] {old : List ℕ} {root parent : ℕ}
variable {s s' s₁ s₂ : Store T ℕ Study} {t : T} {j : ChainJob} {k c now : ℕ} {r v o : Study}
variable {α : Type}

/-! ## The progress of a session -/

/-- What happens to the rows that a session holds, by its own statements and
those of others: they stay held, continue, and get no new follow-up. -/
structure Progress (t : T) (s s' : Store T ℕ Study) : Prop where
  held : ∀ k, s.held t k ≠ none → s'.held t k ≠ none
  row : ∀ k v, s.held t k ≠ none → s.visible t k = some v →
    ∃ v', s'.visible t k = some v' ∧ Cascaded v v'
  child : ∀ k c, s.held t k ≠ none → VersionChild s' k c → VersionChild s k c

/-- The objects of a session are its rows, or what its rows were. -/
def Synced (t : T) (s : Store T ℕ Study) : Prop :=
  ∀ k o, s.identity t k = some o → ∃ v, s.visible t k = some v ∧ Cascaded o v ∧ DepthOk o

/-- The session has come from `s` to `s'`. -/
structure Working (t : T) (s s' : Store T ℕ Study) : Prop where
  progress : Progress t s s'
  synced : Synced t s'

/-- The session holds a row that its object `o` stands for. -/
def AtRow (t : T) (k : ℕ) (o : Study) (s : Store T ℕ Study) : Prop :=
  s.held t k ≠ none ∧ ∃ v, s.visible t k = some v ∧ Cascaded o v ∧ DepthOk o

/-- The session holds a row and has stopped it. -/
def StoppedRow (t : T) (k : ℕ) (s : Store T ℕ Study) : Prop :=
  s.held t k ≠ none ∧ ∃ v, s.visible t k = some v ∧ Stopped v

/-- The session has stopped everything at and below a study. -/
def Covered (t : T) (x : ℕ) (s : Store T ℕ Study) : Prop := ∀ k, Below s x k → StoppedRow t k s

theorem Progress.refl (t : T) (s : Store T ℕ Study) : Progress t s s :=
  ⟨fun _ h => h, fun _ v _ hv => ⟨v, hv, Cascaded.refl v⟩, fun _ _ _ h => h⟩

theorem Progress.trans (h : Progress t s s₁) (h' : Progress t s₁ s₂) : Progress t s s₂ where
  held k hk := h'.held k (h.held k hk)
  row k v hk hv := by
    obtain ⟨v₁, hv₁, hcascaded⟩ := h.row k v hk hv
    obtain ⟨v₂, hv₂, hcascaded'⟩ := h'.row k v₁ (h.held k hk) hv₁
    exact ⟨v₂, hv₂, hcascaded.trans hcascaded'⟩
  child k c hk hc := h.child k c hk (h'.child k c (h.held k hk) hc)

/-- The others leave a session's progress alone. -/
theorem Progress.of_rely (h : ChainRely root t s s') : Progress t s s' where
  held k hk := by rwa [h.frame.held k]
  row k v hk hv := ⟨v, by rw [h.frame.visible hk, hv], Cascaded.refl v⟩
  child := h.children

/-- A statement that only reads and locks. -/
theorem Progress.of_same (hheld : ∀ k, s.held t k ≠ none → s'.held t k ≠ none)
    (hvis : s'.visible t = s.visible t) (hversions : s'.versions = s.versions) :
    Progress t s s' where
  held := hheld
  row k v _ hv := ⟨v, by rw [hvis, hv], Cascaded.refl v⟩
  child k c _ hc := by
    obtain ⟨r, hr, hparent⟩ := hc
    exact ⟨r, by rwa [hversions] at hr, hparent⟩

theorem Synced.rely (h : Synced t s) (hrely : ChainRely root t s s') : Synced t s' := by
  intro k o hid
  rw [hrely.frame.identity] at hid
  obtain ⟨v, hv, hcascaded, hdepth⟩ := h k o hid
  by_cases hheld : s.held t k = none
  · rw [visible_of_not_held hheld] at hv
    obtain ⟨v', hv', hcascaded'⟩ := hrely.rows k v hv
    have hheld' : s'.held t k = none := by rw [hrely.frame.held k, hheld]
    exact ⟨v', by rw [visible_of_not_held hheld', hv'], hcascaded.trans hcascaded', hdepth⟩
  · exact ⟨v, by rw [hrely.frame.visible hheld, hv], hcascaded, hdepth⟩

theorem Synced.working (h : Synced t s) : Working t s s := ⟨Progress.refl t s, h⟩

theorem Working.trans (h : Working t s s₁) (h' : Working t s₁ s₂) : Working t s s₂ :=
  ⟨h.progress.trans h'.progress, h'.synced⟩

theorem Working.rely (h : Working t s s₁) (hrely : ChainRely root t s₁ s₂) : Working t s s₂ :=
  ⟨h.progress.trans (Progress.of_rely hrely), h.synced.rely hrely⟩

theorem AtRow.progress (h : AtRow t k o s) (hp : Progress t s s') : AtRow t k o s' := by
  obtain ⟨hheld, v, hv, hcascaded, hdepth⟩ := h
  obtain ⟨v', hv', hcascaded'⟩ := hp.row k v hheld hv
  exact ⟨hp.held k hheld, v', hv', hcascaded.trans hcascaded', hdepth⟩

theorem StoppedRow.progress (h : StoppedRow t k s) (hp : Progress t s s') : StoppedRow t k s' := by
  obtain ⟨hheld, v, hv, hstopped⟩ := h
  obtain ⟨v', hv', hcascaded⟩ := hp.row k v hheld hv
  exact ⟨hp.held k hheld, v', hv', hcascaded.stopped hstopped⟩

/-- What is covered stays covered. -/
theorem Covered.progress {x : ℕ} (h : Covered t x s) (hp : Progress t s s') : Covered t x s' := by
  intro k hk
  have hbelow : Below s x k := by
    induction hk with
    | refl => exact Relation.ReflTransGen.refl
    | tail _ hchild ih => exact ih.tail (hp.child _ _ (h _ ih).1 hchild)
  exact (h k hbelow).progress hp

/-- Loading a row keeps the session in step with its rows. -/
theorem Synced.load (h : Synced t s) (hdepth : ∀ k v, s.visible t k = some v → DepthOk v) (k : ℕ) :
    Synced t (s.load t k) := by
  intro k' o hid
  rw [visible_load]
  unfold Store.load at hid
  cases hobject : s.object t k with
  | none =>
    rw [hobject] at hid
    exact h k' o hid
  | some r =>
    rw [hobject] at hid
    by_cases hk : k' = k
    · subst hk
      simp only [identity_remember, Option.some.injEq] at hid
      subst hid
      obtain ⟨v, hv, hr⟩ := Option.map_eq_some_iff.mp hobject
      cases hbefore : s.identity t k' with
      | none =>
        obtain rfl : v = r := by simpa [hbefore] using hr
        exact ⟨v, hv, Cascaded.refl v, hdepth k' v hv⟩
      | some o =>
        obtain rfl : o = r := by simpa [hbefore] using hr
        exact h k' o hbefore
    · exact h k' o (by simpa [remember, hk] using hid)

theorem Synced.acquire (h : Synced t s) : Synced t (s.acquire t k) := by
  intro k' o hid
  rw [identity_acquire] at hid
  rw [visible_acquire]
  exact h k' o hid

theorem Synced.foldl_load (h : Synced t s) (hdepth : ∀ k v, s.visible t k = some v → DepthOk v)
    (found : List (ℕ × Study)) : Synced t (found.foldl (fun s' x => s'.load t x.1) s) := by
  induction found generalizing s with
  | nil => exact h
  | cons x found ih => exact ih (h.load hdepth x.1) fun k v hv => hdepth k v (by simpa using hv)

/-! ## The request that stops a chain -/

/-- `p` is safe for the contract of the chain. -/
abbrev ChainSafe (old : List ℕ) (root parent : ℕ) (t : T) (j : ChainJob)
    (Q : α → Store T ℕ Study → Prop) (E : StudyError → Store T ℕ Study → Prop) (p : Db α)
    (s : Store T ℕ Study) : Prop :=
  Safe (chainSystem T root parent) (chainContract T old root parent) t j Q E p s

section Statements

variable {Q : α → Store T ℕ Study → Prop} {E : StudyError → Store T ℕ Study → Prop}

/-- The rule of a statement. -/
theorem safe_call (P : Store T ℕ Study → Prop) {o : RowOp ℕ Study} {next : o.Res → Db α}
    (hs : P s) (hstable : ∀ s s', ChainRely root t s s' → P s → P s')
    (hpermitted : ∀ s, P s → ChainInv old root parent s → ReadsCurrent parent t s o →
      Permitted root parent t s o)
    (hnext : ∀ s s' a, P s → ChainInv old root parent s → Store.exec t s o = some (s', a) →
      ChainSafe old root parent t j Q E (next a) s') :
    ChainSafe old root parent t j Q E (.call o next) s := by
  intro s₁ hrely hinv hcond s₂ a hexec
  obtain ⟨hwait, hexec⟩ := Option.ite_none_left_eq_some.mp hexec
  have hs₁ := hstable s s₁ hrely hs
  have hp := hpermitted s₁ hs₁ hinv hcond
  obtain ⟨hinv₂, hrely₂⟩ := chainInv_exec hinv hp (by simpa using hwait) hexec
  exact ⟨⟨hinv₂, chainStopped_exec hp hexec, hrely₂⟩, hnext s₁ s₂ a hs₁ hinv hexec⟩

end Statements

/-- The lock on a study, with the object that is loaded for it. -/
theorem safe_loadForUpdate (hs : Synced t s) (k : ℕ) :
    ChainSafe old root parent t j (fun o s' => Working t s s' ∧ AtRow t k o s')
      (fun e _ => ∀ a b, e ≠ .invalidStateTransition a b) (loadForUpdate k) s := by
  refine safe_call (Working t s) hs.working (fun _ _ hr h => h.rely hr) (fun _ _ _ _ => trivial) ?_
  intro s₁ s₂ a hw hinv hexec
  obtain ⟨-, rfl, rfl⟩ | ⟨v, hv, hfree, rfl, rfl⟩ := exec_selectForUpdate hexec
  · intro a b
    simp
  · have hdepth : ∀ k' v, (s₁.acquire t k).visible t k' = some v → DepthOk v := by
      intro k' v hv
      rw [visible_acquire] at hv
      exact depthOk_of_visible hinv.disciplined hv
    have hprogress : Progress t s₁ ((s₁.acquire t k).load t k) := by
      refine Progress.of_same (fun k' hk' => ?_) (by simp) (by simp [versions_acquire hfree])
      rw [held_load]
      by_cases hk : k' = k
      · simp [hk, held_acquire]
      · rwa [held_acquire_of_key_ne hk]
    have hsynced : Synced t ((s₁.acquire t k).load t k) := hw.synced.acquire.load hdepth k
    refine ⟨⟨hw.progress.trans hprogress, hsynced⟩, by simp [held_acquire], v, by simpa using hv, ?_⟩
    cases hid : s₁.identity t k with
    | none => exact ⟨Cascaded.refl v, depthOk_of_visible hinv.disciplined hv⟩
    | some o =>
      obtain ⟨v', hv', hrow⟩ := hw.synced k o hid
      obtain rfl : v' = v := Option.some.inj (hv'.symm.trans hv)
      exact hrow

/-- Writing a row that the session holds. -/
theorem safe_flush {f : Study → Study} {next : Unit → Db α} {Q : α → Store T ℕ Study → Prop}
    {E : StudyError → Store T ℕ Study → Prop} (hs : Working t s s₁) (hrow : AtRow t k o s₁)
    (hf : ∀ v, Cascaded o v → Cascaded v (f v) ∧ Stopped (f v))
    (hobject : ∀ o' v, Cascaded o v → Cascaded o' v → DepthOk o' →
      Cascaded (f o') (f v) ∧ DepthOk (f o'))
    (hnext : ∀ s', Working t s s' → StoppedRow t k s' →
      ChainSafe old root parent t j Q E (next ()) s') :
    ChainSafe old root parent t j Q E (.call (.update k f) next) s₁ := by
  have hpermitted : ∀ s, AtRow t k o s → Permitted root parent t s (.update k f) := by
    rintro s ⟨hheld, v, hv, hcascaded, -⟩
    refine ⟨hheld, fun v' hv' => ?_⟩
    obtain rfl : v = v' := Option.some.inj (hv.symm.trans hv')
    exact (hf v hcascaded).1
  refine safe_call (fun s' => Working t s s' ∧ AtRow t k o s') ⟨hs, hrow⟩ (fun _ _ hr h =>
    ⟨h.1.rely hr, h.2.progress (Progress.of_rely hr)⟩) (fun s' h _ _ => hpermitted s' h.2) ?_
  rintro s' s₂ a ⟨hw, hrow⟩ hinv hexec
  have hchild : ∀ k c, VersionChild s₂ k c → VersionChild s' k c := by
    intro k c hc
    rcases versionChild_exec (hpermitted s' hrow) hexec hc with hold | ⟨-, r, hinsert⟩
    · exact hold
    · cases hinsert
  obtain ⟨hheld, v, hv, hcascaded, -⟩ := hrow
  obtain ⟨hnone, -⟩ | ⟨v', hv', -, rfl⟩ := exec_update hexec
  · simp [hv] at hnone
  obtain rfl : v = v' := Option.some.inj (hv.symm.trans hv')
  have hvis : ((s'.write t k (f v)).remember t k ((s'.identity t k).map f)).visible t =
      Function.update (s'.visible t) k (some (f v)) := by rw [visible_remember, visible_write]
  have hprogress : Progress t s' ((s'.write t k (f v)).remember t k ((s'.identity t k).map f)) := by
    refine ⟨fun k' hk' => ?_, fun k' u _ hu => ?_, fun k' c _ hc => hchild k' c hc⟩
    · by_cases hk : k' = k
      · simp [hk]
      · rwa [held_remember, held_write_of_key_ne hk]
    · rw [hvis]
      by_cases hk : k' = k
      · subst hk
        obtain rfl : v = u := Option.some.inj (hv.symm.trans hu)
        exact ⟨f v, by simp, (hf v hcascaded).1⟩
      · exact ⟨u, by simpa [hk] using hu, Cascaded.refl u⟩
  have hsynced : Synced t ((s'.write t k (f v)).remember t k ((s'.identity t k).map f)) := by
    intro k' o' hid
    rw [hvis]
    by_cases hk : k' = k
    · subst hk
      rw [identity_remember] at hid
      obtain ⟨o'', ho'', rfl⟩ := Option.map_eq_some_iff.mp hid
      obtain ⟨v', hv', hobj, hdepth⟩ := hw.synced k' o'' ho''
      obtain rfl : v = v' := Option.some.inj (hv.symm.trans hv')
      exact ⟨f v, by simp, hobject o'' v hcascaded hobj hdepth⟩
    · obtain ⟨v', hv', hrest⟩ := hw.synced k' o' (by simpa [remember, hk] using hid)
      exact ⟨v', by simpa [hk] using hv', hrest⟩
  refine hnext _ ⟨hw.progress.trans hprogress, hsynced⟩ ⟨by simp, f v, ?_, (hf v hcascaded).2⟩
  simp [hvis]

/-- A row whose object is in flight is in flight, or was cancelled meanwhile. -/
theorem cascaded_cancelledRow_of_object (now : ℕ) (hflight : inFlight o = true)
    (h : Cascaded o v) : Cascaded v (cancelledRow now v) := by
  rcases h.status with hsame | ⟨-, hcancelled⟩
  · exact cascaded_cancelledRow now (by rw [inFlight_of_status hsame, hflight])
  · exact ⟨rfl, Or.inl hcancelled.symm, fun _ => stopped_cancelledRow now v, fun hdepth => hdepth⟩

theorem safe_cancelStudy (hs : Synced t s) (now k : ℕ) :
    ChainSafe old root parent t j (fun _ s' => Working t s s' ∧ StoppedRow t k s')
      (fun e s' => (∀ a b, e ≠ .invalidStateTransition a b) ∨
        Working t s s' ∧ ∃ o, AtRow t k o s' ∧ inFlight o = false)
      (cancelStudy now k) s := by
  refine Safe.seq ((safe_loadForUpdate hs k).mono (fun _ _ h => h) fun _ _ h => Or.inl h) ?_
  rintro o s₁ ⟨hw, hrow⟩
  unfold ensureLegal
  split
  · rename_i hillegal
    refine Or.inr ⟨hw, o, hrow, ?_⟩
    cases hstatus : o.status <;> simp_all [inFlight, legalTransitions]
  · rename_i hlegal
    have hflight : inFlight o = true := by
      cases hstatus : o.status <;> simp_all [inFlight, legalTransitions]
    refine safe_flush hw hrow (fun v hv => ?_) (fun o' v _ hv hdepth => ?_) fun s' hw' hstopped =>
      ⟨hw', hstopped⟩
    · exact ⟨cascaded_cancelledRow_of_object now hflight hv, stopped_cancelledRow now v⟩
    · exact ⟨⟨hv.parent, Or.inl rfl, fun _ => stopped_cancelledRow now v, hv.depth⟩, hdepth⟩

/-- A cancellation that is caught leaves the row stopped, when the row was held and
its object in flight. -/
theorem safe_cancelUnlessTerminal (hs : Synced t s) (now k : ℕ) (fallback : Study) :
    ChainSafe old root parent t j
      (fun _ s' => Working t s s' ∧ ∀ o, AtRow t k o s → inFlight o = true → StoppedRow t k s')
      (fun _ _ => True) (cancelUnlessTerminal now k fallback) s := by
  refine Safe.handle ((safe_cancelStudy hs now k).mono ?_ fun e s' he => ?_)
  · exact fun _ s' h => ⟨h.1, fun _ _ _ => h.2⟩
  · cases e with
    | invalidStateTransition a b =>
      rcases he with hne | ⟨hw, o', ⟨hheld, v, hv, hended', -⟩, hended⟩
      · exact absurd rfl (hne a b)
      · refine ⟨hw, fun o ho hflight => ⟨hheld, v, hv, ?_⟩⟩
        obtain ⟨-, v', hv', hcascaded, -⟩ := ho.progress hw.progress
        obtain rfl : v' = v := Option.some.inj (hv'.symm.trans hv)
        have hrow : inFlight v' = false := by
          rw [inFlight_of_status (hended'.status_eq hended), hended]
        rcases hcascaded.status with hsame | ⟨-, hcancelled⟩
        · rw [inFlight_of_status hsame, hflight] at hrow
          cases hrow
        · exact ⟨hrow, Or.inr (Or.inl hcancelled)⟩
    | studyNotFound => trivial
    | recursionError => trivial

/-- The cascade on a parent stops it. -/
theorem safe_cascadeParent (hs : Synced t s) (now : ℕ) (hrow : AtRow t k o s) :
    ChainSafe old root parent t j (fun _ s' => Working t s s' ∧ StoppedRow t k s')
      (fun _ _ => True) (cascadeParent now k o) s := by
  unfold cascadeParent
  by_cases hflight : inFlight o = true
  · rw [if_pos hflight]
    exact (safe_cancelUnlessTerminal hs now k o).post fun _ s' h => ⟨h.1, h.2 o hrow hflight⟩
  · rw [if_neg hflight]
    have hended : inFlight o = false := by simpa using hflight
    have hkeep : Stopped o → Working t s s ∧ StoppedRow t k s := by
      intro hstopped
      obtain ⟨hheld, v, hv, hcascaded, -⟩ := hrow
      exact ⟨hs.working, hheld, v, hv, hcascaded.stopped hstopped⟩
    unfold zeroFollowupDepth
    split
    · rename_i previousDepth hprevious
      split
      · have hzero : ∀ depth, some (0 : ℤ) = some depth → 0 ≤ depth := by
          rintro depth ⟨⟩
          exact le_refl 0
        refine safe_flush hs.working hrow (fun v hv => ?_) (fun o' v ho hv _ => ?_)
          fun s' hw hstopped => ⟨hw, hstopped⟩
        · have hrowEnded : inFlight v = false := by
            rw [inFlight_of_status (hv.status_eq hended), hended]
          have hstopped : Stopped { v with
              config := { o.config with autoFollowupDepth := some 0 } } :=
            ⟨hrowEnded, Or.inr (Or.inr rfl)⟩
          exact ⟨⟨rfl, Or.inl rfl, fun _ => hstopped, fun _ => hzero⟩, hstopped⟩
        · have hrowEnded : inFlight v = false := by
            rw [inFlight_of_status (ho.status_eq hended), hended]
          exact ⟨⟨hv.parent, hv.status, fun _ => ⟨hrowEnded, Or.inr (Or.inr rfl)⟩,
            fun _ => hzero⟩, hzero⟩
      · rename_i hskip
        obtain ⟨-, -, -, -, hdepth⟩ := hrow
        exact hkeep (stopped_of_skipped hended hdepth hprevious hskip)
    · rename_i hnone
      exact hkeep ⟨hended, Or.inr (Or.inr (by simp [hnone]))⟩

theorem safe_cascadeChild (hs : Synced t s) (now : ℕ) (child : ℕ × Study) :
    ChainSafe old root parent t j (fun _ => Working t s) (fun _ _ => True)
      (cascadeChild now child) s := by
  unfold cascadeChild
  split
  · exact Safe.seq (safe_cancelUnlessTerminal hs now child.1 child.2) fun _ s' h => h.1
  · exact hs.working

/-- Below a row that the session holds, the query lists all follow-ups. -/
theorem safe_listChildrenOfStudy (hs : Synced t s) (hheld : s.held t k ≠ none) :
    ChainSafe old root parent t j
      (fun children s' => Working t s s' ∧
        ∀ c, VersionChild s' k c → ∃ listed, (c, listed) ∈ children)
      (fun _ _ => True) (listChildrenOfStudy k) s := by
  refine safe_call (Working t s) hs.working (fun _ _ hr h => h.rely hr) (fun _ _ _ _ => trivial) ?_
  intro s₁ s₂ a hw hinv hexec
  have hheld₁ := hw.progress.held k hheld
  have hdepth : ∀ k v, s₁.visible t k = some v → DepthOk v := fun k v hv =>
    depthOk_of_visible hinv.disciplined hv
  obtain ⟨rfl, rfl⟩ := Prod.mk.inj (Option.some.inj hexec)
  have hprogress : ∀ found : List (ℕ × Study),
      Progress t s₁ (found.foldl (fun s' x => s'.load t x.1) s₁) := fun found =>
    Progress.of_same (by simp) (by funext k'; simp [Store.visible]) (versions_foldl_load found)
  refine ⟨⟨hw.progress.trans (hprogress _), hw.synced.foldl_load hdepth _⟩, fun c hc => ?_⟩
  obtain ⟨r, hr, hparent⟩ := hc
  rw [versions_foldl_load] at hr
  obtain ⟨v, hv⟩ := Option.isSome_iff_exists.mp (hinv.closed t k hheld₁ c ⟨r, hr, hparent⟩)
  have hsame : v.parentStudyId = some k :=
    (hinv.parent_eq (mem_versions_of_visible hv) hr).trans hparent
  refine ⟨(s₁.identity t c).getD v, List.mem_map.mpr ⟨(c, v), mem_hits_iff.mpr ?_, rfl⟩⟩
  exact ⟨hinv.known c r hr, hv, by simp [hsame]⟩

/-- A study that is stopped, and below which all listed follow-ups are covered. -/
theorem Covered.of_children {children : List (ℕ × Study)} (hrow : StoppedRow t k s)
    (hlisted : ∀ c, VersionChild s k c → ∃ listed, (c, listed) ∈ children)
    (hall : ∀ child ∈ children, Covered t child.1 s) : Covered t k s := by
  intro k' hk'
  rcases Relation.ReflTransGen.cases_head hk' with rfl | ⟨c, hchild, hbelow⟩
  · exact hrow
  · obtain ⟨listed, hmem⟩ := hlisted c hchild
    exact hall (c, listed) hmem k' hbelow

/-- The walk below a study covers it, when it does not raise. -/
theorem safe_cascadeCancel (fuel now : ℕ) (hs : Synced t s) (k : ℕ) :
    ChainSafe old root parent t j (fun _ s' => Working t s s' ∧ Covered t k s')
      (fun _ _ => True) (cascadeCancel now fuel k) s := by
  induction fuel generalizing k s with
  | zero => trivial
  | succ fuel ih =>
    refine Safe.seq ((safe_loadForUpdate hs k).mono (fun _ _ h => h) fun _ _ _ => trivial) ?_
    rintro o s₁ ⟨hw₁, hrow⟩
    refine Safe.seq (safe_cascadeParent hw₁.synced now hrow) ?_
    rintro - s₂ ⟨hw₂, hstopped⟩
    refine Safe.seq (safe_listChildrenOfStudy hw₂.synced hstopped.1) ?_
    rintro children s₃ ⟨hw₃, hlisted⟩
    have hround : ∀ child ∈ children, ∀ s', Working t s₃ s' →
        ChainSafe old root parent t j
          (fun _ s'' => Working t s₃ s'' ∧ Covered t child.1 s'' ∧
            ∀ x : ℕ × Study, Covered t x.1 s' → Covered t x.1 s'')
          (fun _ _ => True)
          (do cascadeChild now child; discard (cascadeCancel now fuel child.1)) s' := by
      intro child _ s' hw
      refine Safe.seq (safe_cascadeChild hw.synced now child) fun _ s₄ hw₄ => ?_
      refine Safe.seq (ih hw₄.synced child.1) ?_
      rintro - s₅ ⟨hw₅, hcovered⟩
      have hwhole := hw₄.trans hw₅
      exact ⟨hw.trans hwhole, hcovered, fun x hx => hx.progress hwhole.progress⟩
    refine Safe.seq (Safe.each_all hround hw₃.synced.working) ?_
    rintro - s' ⟨⟨hw, -⟩, hall⟩
    have hheld : s₃.held t k ≠ none := hw₃.progress.held k hstopped.1
    have hrow' : StoppedRow t k s' := (hstopped.progress hw₃.progress).progress hw.progress
    have hlisted' : ∀ c, VersionChild s' k c → ∃ listed, (c, listed) ∈ children :=
      fun c hc => hlisted c (hw.progress.child k c hheld hc)
    refine ⟨((hw₁.trans hw₂).trans hw₃).trans hw, ?_⟩
    exact Covered.of_children hrow' hlisted' hall

/-- The commit of a session that has covered the root. -/
theorem chainStopped_commit (h : Covered t root s) : ChainStopped root (s.commit t) := by
  intro k hk r hr
  have hbelow : Below s root k := by
    refine Relation.ReflTransGen.mono (fun x y hxy => ?_) _ _ hk
    obtain ⟨r, hr, hparent⟩ := hxy
    exact ⟨r, mem_versions_of_commit hr, hparent⟩
  obtain ⟨hheld, v, hv, hstopped⟩ := h k hbelow
  obtain rfl : r = v := by simpa [versions_commit_of_held hheld, hv, eq_comm] using hr
  exact hstopped

/-- A request that returns has stopped the chain. -/
theorem safe_stopChain (hs : Synced t s) (limit now : ℕ) :
    ChainSafe old root parent t j (fun _ => ChainStopped root) (fun _ _ => True)
      (stopChain limit now root) s := by
  have hraise : ∀ (e : StudyError) s,
      ChainSafe old root parent t j (fun (_ : Unit) => ChainStopped root)
      (fun _ _ => True) (do Transaction.rollback; throw e) s := fun e s =>
    safe_call (fun _ => True) trivial (fun _ _ _ h => h) (fun _ _ _ _ => trivial)
      fun _ _ _ _ _ _ => trivial
  refine Safe.handle ?_
  have hcover : ChainSafe old root parent t j (fun _ => Covered t root)
      (fun e => ChainSafe old root parent t j (fun (_ : Unit) => ChainStopped root)
        (fun _ _ => True) (do Transaction.rollback; throw e))
      (discard (cancelStudyWithChainCascade limit now root true)) s :=
    Safe.bind ((safe_cascadeCancel limit now hs root).mono (fun _ _ h => h.2)
      fun e s' _ => hraise e s')
  refine Safe.seq hcover fun _ s' hcovered => ?_
  refine safe_call (Covered t root) hcovered (fun _ _ hr h => h.progress (Progress.of_rely hr))
    (fun _ _ _ _ => trivial) fun s₁ s₂ a hcovered _ hexec => ?_
  obtain ⟨rfl, -⟩ := Prod.mk.inj (Option.some.inj hexec)
  exact chainStopped_commit hcovered

/-! ## The deliveries -/

/-- A follow-up of a study whose gate is open has a depth from zero up. -/
theorem depthOk_childStudy (d : Delivery) (hdepth : DepthOk o)
    (hgate : (evaluateChainGate o (completeTrials d.allTrials)).decision = .enqueue) :
    DepthOk (childStudy d parent o) := by
  have hnonzero : o.config.autoFollowupDepth.getD 0 ≠ 0 := by
    intro hzero
    unfold evaluateChainGate at hgate
    by_cases hended : o.status = .failed ∨ o.status = .cancelled
    · simp [hended] at hgate
    · simp [hended, hzero] at hgate
  rintro depth ⟨⟩
  cases hsome : o.config.autoFollowupDepth with
  | none => simp [hsome] at hnonzero
  | some previous =>
    have hnonneg := hdepth previous hsome
    simp only [hsome, Option.getD_some] at hnonzero ⊢
    omega

/-- On current reads, the insert of a follow-up whose gate is open is permitted. -/
theorem permitted_insert (d : Delivery) (hinv : ChainInv old root parent s)
    (hobject : s.identity t parent = some o)
    (hcurrent : ReadsCurrent parent t s (.insert d.childId (childStudy d parent o)))
    (hgate : (evaluateChainGate o (completeTrials d.allTrials)).decision = .enqueue) :
    Permitted root parent t s (.insert d.childId (childStudy d parent o)) := by
  obtain ⟨hparent, hchildren⟩ := hcurrent
  have hcomm : s.committed parent = some o := hparent.symm.trans hobject
  have hdepth : DepthOk o := hinv.disciplined.committed parent o hcomm
  have hnone : ∀ c, ¬ VersionChild s parent c := by
    rintro c ⟨r, hr, hchild⟩
    exact hchildren c (hinv.known c r hr) ⟨r, hr, hchild⟩
  refine ⟨rfl, depthOk_childStudy d hdepth hgate, by simp [hcomm], fun hstopped => ?_, hnone⟩
  have hbelow : Below s root parent := by
    refine Relation.ReflTransGen.mono (fun x y hxy => ?_) _ _ hinv.reach
    obtain ⟨row, hrow, hchild⟩ := hxy
    exact ⟨row, mem_versions.mpr (Or.inl hrow), hchild⟩
  have hended : Stopped o := hstopped parent hbelow o (mem_versions.mpr (Or.inl hcomm))
  exact hended.gate _ _ _ hgate

/-- A delivery inserts a follow-up only on a chain that is not stopped. -/
theorem safe_enqueueFollowupStudy (d : Delivery) (s : Store T ℕ Study) :
    ChainSafe old root parent t j (fun _ _ => True) (fun _ _ => True)
      (enqueueFollowupStudy parent d) s := by
  have hkeep : ∀ (o : Study) s s', ChainRely root t s s' → s.identity t parent = some o →
      s'.identity t parent = some o := by
    intro o s s' hrely hobject
    rwa [hrely.frame.identity]
  refine safe_call (fun _ => True) trivial (fun _ _ _ h => h) (fun _ _ _ _ => trivial) ?_
  intro s₁ s₂ a _ _ hexec
  obtain ⟨rfl, rfl⟩ := Prod.mk.inj (Option.some.inj hexec)
  cases hobject : s₁.object t parent with
  | none => trivial
  | some o =>
    have hlist : ChainSafe old root parent t j (fun _ s => s.identity t parent = some o)
        (fun _ _ => True) (listChildrenOfStudy parent) (s₁.load t parent) := by
      refine safe_call (fun s => s.identity t parent = some o) (identity_load hobject) (hkeep o)
        (fun _ _ _ _ => trivial) fun s s' a hloaded _ hexec => ?_
      obtain ⟨rfl, -⟩ := Prod.mk.inj (Option.some.inj hexec)
      exact identity_foldl_load_of_some hloaded _
    refine Safe.bind (Safe.done_iff.mpr (Safe.seq hlist fun children s hloaded => ?_))
    split
    · trivial
    split
    · trivial
    rename_i hgate
    split
    · trivial
    split
    · trivial
    refine safe_call (fun s => s.identity t parent = some o) hloaded (hkeep o)
      (fun s hloaded hinv hcurrent => ?_) fun _ _ _ _ _ _ => ?_
    · exact permitted_insert d hinv hloaded hcurrent (not_not.mp hgate)
    · exact safe_call (fun _ => True) trivial (fun _ _ _ h => h) (fun _ _ _ _ => trivial)
        fun _ _ _ _ _ _ => trivial

/-- What a job has achieved when it returns. -/
def Achieved (root : ℕ) (_ : T) : ChainJob → Store T ℕ Study → Prop
  | .deliver _ => fun _ => True
  | .stopChain _ _ => ChainStopped root

/-- Discarding a process keeps the invariant and what the others rely on. -/
theorem chainInv_rollback (hinv : ChainInv old root parent s) (t : T) :
    ChainInv old root parent (s.rollback t) ∧
      (ChainStopped root s → ChainStopped root (s.rollback t)) ∧
      ∀ t', t' ≠ t → ChainRely root t' s (s.rollback t) := by
  have hexec : Store.exec t s .rollback = some (s.rollback t, ()) := rfl
  obtain ⟨hinv', hrely⟩ := chainInv_exec (o := .rollback) hinv trivial rfl hexec
  have hpermitted : Permitted root parent t s .rollback := trivial
  exact ⟨hinv', chainStopped_exec hpermitted hexec, hrely⟩

/-- The jobs of a chain meet its contract. -/
theorem chainContract_achieves (T : Type) [DecidableEq T] (old : List ℕ) (root parent : ℕ) :
    (chainContract T old root parent).Achieves (chainSystem T root parent) (Achieved root) where
  code t j s _ _ := by
    have hfresh : Synced t (s.rollback t) := fun k o hid => by simp at hid
    cases j with
    | deliver d => exact safe_enqueueFollowupStudy d (s.rollback t)
    | stopChain limit now => exact safe_stopChain hfresh limit now
  reset t j s hinv := by
    obtain ⟨hinv', hstopped, hrely⟩ := chainInv_rollback hinv t
    exact ⟨hinv', hstopped, hrely⟩
  stable t j s s' hrely hachieved := by
    cases j with
    | deliver d => trivial
    | stopChain limit now => exact hrely.stopped hachieved

end RelyLoop.Studies.Followups
