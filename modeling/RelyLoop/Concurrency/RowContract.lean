import RelyLoop.Concurrency.RowFrame

/-!
# The contract of a table

When every version that a transaction writes stands in a relation to the
committed row it will replace, all committed changes stand in it. `Disciplined`
is that invariant, together with a property of single rows; a program keeps it
when each of its writes is `Allowed`.
-/

namespace RelyLoop.Concurrency

namespace Store

variable {T K R : Type}

/-- What a step may change in the committed rows. -/
def Changes (Rel : R → R → Prop) (s s' : Store T K R) : Prop :=
  ∀ k r, s.committed k = some r → ∃ r', s'.committed k = some r' ∧ (r' = r ∨ Rel r r')

theorem Changes.refl {Rel : R → R → Prop} {s s' : Store T K R} (h : s'.committed = s.committed) :
    Changes Rel s s' :=
  fun k r hr => ⟨r, by rw [h, hr], Or.inl rfl⟩

variable [DecidableEq T]

/-- Rows and uncommitted versions are `Good`, and an uncommitted version
replaces the committed row by `Rel`. -/
structure Disciplined (Rel : R → R → Prop) (Good : R → Prop) (s : Store T K R) : Prop where
  committed : ∀ k r, s.committed k = some r → Good r
  written : ∀ t k r, s.held t k = some (some r) → Good r
  replaces : ∀ t k r₀ r, s.held t k = some (some r) → s.committed k = some r₀ → Rel r₀ r

/-- A table no transaction has written to is disciplined when its rows are good. -/
theorem Disciplined.of_unlocked {Rel : R → R → Prop} {Good : R → Prop} {s : Store T K R}
    (hlock : ∀ k, s.lock k = none) (hgood : ∀ k r, s.committed k = some r → Good r) :
    Disciplined Rel Good s :=
  ⟨hgood, fun _ k _ h => by simp [held, hlock k] at h,
    fun _ k _ _ h => by simp [held, hlock k] at h⟩

/-- The session of `t` has no open transaction. -/
def Clean (t : T) (s : Store T K R) : Prop := ∀ k, s.held t k = none

theorem Clean.frame {s s' : Store T K R} {t : T} (h : Clean t s) (hf : Frame t s s') :
    Clean t s' := fun k => (hf.held k).trans (h k)

/-- Without a transaction a session sees the committed rows. -/
theorem Clean.visible {s : Store T K R} {t : T} (h : Clean t s) (k : K) :
    s.visible t k = s.committed k := visible_of_not_held (h k)

/-- What the discipline asks of a write, on the row that the statement sees. -/
def Allowed (Rel : R → R → Prop) (Good : R → Prop) (s : Store T K R) (t : T) : RowOp K R → Prop
  | .update k f => ∀ v, s.visible t k = some v →
      Good (f v) ∧ ∀ r₀, s.committed k = some r₀ → Rel r₀ (f v)
  | .updateWhere k p f => ∀ v, s.visible t k = some v → p v = true →
      Good (f v) ∧ ∀ r₀, s.committed k = some r₀ → Rel r₀ (f v)
  | .insert _ r => Good r
  | _ => True

section Preservation

variable {Rel : R → R → Prop} {Good : R → Prop} {s s' : Store T K R} {t : T} {k : K}

/-- The discipline only looks at the committed rows and the uncommitted versions. -/
private theorem Disciplined.congr (h : Disciplined Rel Good s) (hc : s'.committed = s.committed)
    (hw : ∀ t k r, s'.held t k = some (some r) → s.held t k = some (some r)) :
    Disciplined Rel Good s' where
  committed k r hr := h.committed k r (by rwa [hc] at hr)
  written t k r hr := h.written t k r (hw t k r hr)
  replaces t k r₀ r hr hr₀ := h.replaces t k r₀ r (hw t k r hr) (by rwa [hc] at hr₀)

/-- Ending a transaction without its writes. -/
theorem Disciplined.rollback (h : Disciplined Rel Good s) :
    Disciplined Rel Good (s.rollback t) := by
  refine h.congr rfl fun t' k' r hr => ?_
  by_cases ht : t' = t
  · subst ht
    simp at hr
  · rwa [show (s.rollback t).held t' k' = s.held t' k' from held_unlock_of_ne ht k'] at hr

/-- A commit publishes the versions of its transaction. -/
private theorem Disciplined.commit (h : Disciplined Rel Good s) :
    Disciplined Rel Good (s.commit t) ∧ Changes Rel s (s.commit t) := by
  have hother : ∀ t' k' r, (s.commit t).held t' k' = some (some r) →
      s.held t' k' = some (some r) ∧ s.visible t k' = s.committed k' := by
    intro t' k' r hr
    by_cases ht : t' = t
    · subst ht
      simp at hr
    · rw [show (s.commit t).held t' k' = s.held t' k' from held_unlock_of_ne ht k'] at hr
      refine ⟨hr, visible_of_not_held ?_⟩
      by_contra hmine
      exact ht (held_unique (by simp [hr]) hmine)
  refine ⟨⟨fun k r hr => ?_, fun t' k r hr => h.written t' k r (hother t' k r hr).1,
    fun t' k r₀ r hr hr₀ => ?_⟩, fun k r hr => ?_⟩
  · rw [committed_commit, visible] at hr
    split at hr
    · rename_i r' hheld
      exact Option.some.inj hr ▸ h.written t k r' hheld
    · exact h.committed k r hr
  · obtain ⟨hold, hvis⟩ := hother t' k r hr
    exact h.replaces t' k r₀ r hold (by rwa [committed_commit, hvis] at hr₀)
  · rw [committed_commit, visible]
    split
    · rename_i r' hheld
      exact ⟨r', rfl, Or.inr (h.replaces t k r r' hheld hr)⟩
    · exact ⟨r, hr, Or.inl rfl⟩

variable [DecidableEq K]

private theorem Disciplined.load (h : Disciplined Rel Good s) : Disciplined Rel Good (s.load t k) :=
  h.congr (by simp) fun _ _ _ => by simp

/-- Taking a free lock writes no version. -/
private theorem held_of_acquire {t' : T} {k' : K} {r : R} (hfree : s.lockedByOther t k = false)
    (h : (s.acquire t k).held t' k' = some (some r)) : s.held t' k' = some (some r) := by
  by_cases ht : t' = t
  · subst ht
    exact held_acquire_written.mp h
  · rwa [held_acquire_of_ne hfree ht] at h

/-- A write adds one version. -/
private theorem held_of_write {t' : T} {k' : K} {r r' : R} (hfree : s.lockedByOther t k = false)
    (h : (s.write t k r).held t' k' = some (some r')) :
    (k' = k ∧ r' = r) ∨ s.held t' k' = some (some r') := by
  by_cases hk : k' = k
  · subst hk
    by_cases ht : t' = t
    · subst ht
      exact Or.inl ⟨rfl, by simpa using h.symm⟩
    · exact Or.inr (by rwa [held_write_of_ne hfree ht] at h)
  · exact Or.inr (by rwa [held_write_of_key_ne hk] at h)

private theorem Disciplined.acquire (h : Disciplined Rel Good s)
    (hfree : s.lockedByOther t k = false) : Disciplined Rel Good (s.acquire t k) :=
  h.congr (by simp) fun _ _ _ hr => held_of_acquire hfree hr

/-- A write of a good version that may replace the committed row. -/
private theorem Disciplined.write (h : Disciplined Rel Good s)
    (hfree : s.lockedByOther t k = false) {r : R} (hgood : Good r)
    (hrel : ∀ r₀, s.committed k = some r₀ → Rel r₀ r) : Disciplined Rel Good (s.write t k r) := by
  refine ⟨h.committed, fun t' k' r' hr' => ?_, fun t' k' r₀ r' hr' hr₀ => ?_⟩
  · rcases held_of_write hfree hr' with ⟨-, rfl⟩ | hold
    · exact hgood
    · exact h.written t' k' r' hold
  · rcases held_of_write hfree hr' with ⟨rfl, rfl⟩ | hold
    · exact hrel r₀ hr₀
    · exact h.replaces t' k' r₀ r' hold hr₀

/-- A statement whose write is allowed keeps the discipline and changes the
committed rows by the relation only. -/
theorem Disciplined.exec {o : RowOp K R} {a : o.Res} (h : Disciplined Rel Good s)
    (hallowed : Allowed Rel Good s t o) (hexec : exec t s o = some (s', a)) :
    Disciplined Rel Good s' ∧ Changes Rel s s' := by
  cases o with
  | select k =>
    obtain ⟨rfl, -⟩ := Prod.mk.inj (Option.some.inj hexec)
    exact ⟨h.load, Changes.refl (by simp)⟩
  | selectWhere p before =>
    obtain ⟨rfl, -⟩ := Prod.mk.inj (Option.some.inj hexec)
    exact ⟨h.congr (by simp) fun _ _ _ => by simp, Changes.refl (by simp)⟩
  | selectForUpdate k =>
    obtain ⟨-, rfl, -⟩ | ⟨v, -, hfree, rfl, -⟩ := exec_selectForUpdate hexec
    · exact ⟨h, Changes.refl rfl⟩
    · exact ⟨(h.acquire hfree).load, Changes.refl (by simp)⟩
  | update k f =>
    obtain ⟨-, rfl⟩ | ⟨v, hv, hfree, rfl⟩ := exec_update hexec
    · exact ⟨h, Changes.refl rfl⟩
    · obtain ⟨hgood, hrel⟩ := hallowed v hv
      exact ⟨(h.write hfree hgood hrel).congr rfl fun _ _ _ => id, Changes.refl rfl⟩
  | updateWhere k p f =>
    obtain ⟨-, rfl, -⟩ | ⟨v, hv, hp, hfree, rfl, -⟩ := exec_updateWhere hexec
    · exact ⟨h, Changes.refl rfl⟩
    · obtain ⟨hgood, hrel⟩ := hallowed v hv hp
      exact ⟨(h.write hfree hgood hrel).congr rfl fun _ _ _ => id, Changes.refl rfl⟩
  | insert k r =>
    obtain ⟨hnew, hlock, rfl⟩ := exec_insert hexec
    have hkeys : Disciplined Rel Good { s with keys := s.keys ++ [k] } :=
      h.congr rfl fun _ _ _ => id
    have hfree : lockedByOther { s with keys := s.keys ++ [k] } t k = false := by
      simp [lockedByOther, hlock]
    refine ⟨(hkeys.write hfree hallowed fun r₀ hr₀ => ?_).congr rfl fun _ _ _ => id,
      Changes.refl rfl⟩
    simp [hnew] at hr₀
  | release k =>
    obtain ⟨rfl, -⟩ := Prod.mk.inj (Option.some.inj hexec)
    exact ⟨h.congr rfl fun _ _ _ => id, Changes.refl rfl⟩
  | commit =>
    obtain ⟨rfl, -⟩ := Prod.mk.inj (Option.some.inj hexec)
    exact h.commit
  | rollback =>
    obtain ⟨rfl, -⟩ := Prod.mk.inj (Option.some.inj hexec)
    exact ⟨h.rollback, Changes.refl rfl⟩

end Preservation

end Store

/-! ## Programs on a table -/

section Tables

variable {T J K R ε α : Type} [DecidableEq T] [DecidableEq K]

/-- The system whose jobs run on one table, each in a session of its own. -/
def tableSystem (code : J → Program (RowOp K R) RowOp.Res ε Unit) :
    System T J (Store T K R) (RowOp K R) RowOp.Res ε where
  code := code
  admits _ _ := true
  exec := Store.exec
  reset t s := s.rollback t

/-- The contract of disciplined sessions, for runs whose statements meet `cond`. -/
def tableContract (J : Type) (Rel : R → R → Prop) (Good : R → Prop)
    (cond : T → Store T K R → RowOp K R → Prop) : Contract T J (Store T K R) (RowOp K R) where
  inv := Store.Disciplined Rel Good
  change _ := Store.Changes Rel
  rely := Store.Frame
  cond := cond
  rely_refl := Store.Frame.refl
  rely_trans _ _ _ _ h h' := h.trans h'

variable {Rel : R → R → Prop} {Good : R → Prop} {cond : T → Store T K R → RowOp K R → Prop}
variable {code : J → Program (RowOp K R) RowOp.Res ε Unit}
variable {t : T} {j : J} {Q : α → Store T K R → Prop} {E : ε → Store T K R → Prop}

/-- The rule of a statement: from a precondition that other sessions do not
disturb, the write is allowed and the rest of the program is safe. -/
theorem Safe.statement (P : Store T K R → Prop) {o : RowOp K R}
    {next : o.Res → Program (RowOp K R) RowOp.Res ε α} {s : Store T K R} (hs : P s)
    (hstable : ∀ s s', Store.Frame t s s' → P s → P s')
    (hallowed : ∀ s, P s → s.Disciplined Rel Good → cond t s o → s.Allowed Rel Good t o)
    (hnext : ∀ s s' a, P s → cond t s o → Store.exec t s o = some (s', a) →
      Safe (tableSystem code) (tableContract J Rel Good cond) t j Q E (next a) s') :
    Safe (tableSystem code) (tableContract J Rel Good cond) t j Q E (.call o next) s := by
  intro s₁ hframe hinv hcond s₂ a hexec
  have hs₁ := hstable s s₁ hframe hs
  obtain ⟨hinv₂, hchange⟩ := hinv.exec (hallowed s₁ hs₁ hinv hcond) hexec
  exact ⟨⟨hinv₂, hchange, fun t' hne => Store.exec_frame hexec hne⟩,
    hnext s₁ s₂ a hs₁ hcond hexec⟩

/-- Reading, and forgetting an object, do not open a transaction. -/
theorem Safe.read {o : RowOp K R} {next : o.Res → Program (RowOp K R) RowOp.Res ε α}
    {s : Store T K R} (hs : s.Clean t)
    (hread : (∃ k, o = .select k) ∨ (∃ p before, o = .selectWhere p before) ∨ ∃ k, o = .release k)
    (hnext : ∀ s s' a, s.Clean t → s'.Clean t → Store.exec t s o = some (s', a) →
      Safe (tableSystem code) (tableContract J Rel Good cond) t j Q E (next a) s') :
    Safe (tableSystem code) (tableContract J Rel Good cond) t j Q E (.call o next) s := by
  refine Safe.statement (Store.Clean t) hs (fun _ _ hf h => h.frame hf) (fun s _ _ _ => ?_)
    fun s s' a hs _ hexec => hnext s s' a hs (fun k => ?_) hexec
  · obtain ⟨k, rfl⟩ | ⟨p, before, rfl⟩ | ⟨k, rfl⟩ := hread <;> trivial
  · obtain ⟨k, rfl⟩ | ⟨p, before, rfl⟩ | ⟨k, rfl⟩ := hread
    all_goals
      obtain ⟨rfl, -⟩ := Prod.mk.inj (Option.some.inj hexec)
      simpa using hs _

/-- `COMMIT` and `ROLLBACK` end the transaction. -/
theorem Safe.finish {o : RowOp K R} {next : o.Res → Program (RowOp K R) RowOp.Res ε α}
    {s : Store T K R} (hfinish : o = .commit ∨ o = .rollback)
    (hnext : ∀ s a, s.Clean t →
      Safe (tableSystem code) (tableContract J Rel Good cond) t j Q E (next a) s) :
    Safe (tableSystem code) (tableContract J Rel Good cond) t j Q E (.call o next) s := by
  refine Safe.statement (fun _ => True) trivial (fun _ _ _ _ => trivial) (fun s _ _ _ => ?_)
    fun s s' a _ _ hexec => hnext s' a fun k => ?_
  · obtain rfl | rfl := hfinish <;> trivial
  · obtain rfl | rfl := hfinish
    all_goals
      obtain ⟨rfl, -⟩ := Prod.mk.inj (Option.some.inj hexec)
      simp

/-- Jobs that are safe from a fresh session on meet the contract. -/
theorem tableContract_met
    (hcode : ∀ t j (s : Store T K R), (∀ k, s.held t k = none) → (∀ k, s.identity t k = none) →
      Safe (tableSystem code) (tableContract J Rel Good cond) t j (fun _ _ => True)
        (fun _ _ => True) (code j) s) :
    (tableContract J Rel Good cond).Met (tableSystem code) where
  code t j s _ _ := hcode t j (s.rollback t) (fun _ => by simp) (fun _ => by simp)
  reset t _ _ hinv := ⟨hinv.rollback, Store.Changes.refl rfl, fun _ hne => Store.frame_rollback hne⟩

end Tables

end RelyLoop.Concurrency
