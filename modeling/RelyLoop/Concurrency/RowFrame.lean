import RelyLoop.Concurrency.RowStore

/-!
# What sessions leave alone

The rely and the guarantee of a session on a table. Every statement keeps what
the other sessions rely on; and a transaction whose uncommitted versions stand
in some relation to the rows they replace commits changes in that relation.
-/

namespace RelyLoop.Concurrency.Store

section Frames

variable {T K R : Type} [DecidableEq T] {s s' : Store T K R} {t t' : T} {k : K}

/-- What a session relies on: the others leave alone its objects, its locks and
writes, and the committed versions of the rows it has locked; and rows are not
deleted. -/
structure Frame (t : T) (s s' : Store T K R) : Prop where
  identity : s'.identity t = s.identity t
  held : ∀ k, s'.held t k = s.held t k
  committed : ∀ k, s.held t k ≠ none → s'.committed k = s.committed k
  kept : ∀ k, (s.committed k).isSome → (s'.committed k).isSome

namespace Frame

theorem refl (t : T) (s : Store T K R) : Frame t s s :=
  ⟨rfl, fun _ => rfl, fun _ _ => rfl, fun _ h => h⟩

theorem trans {s₁ s₂ s₃ : Store T K R} (h : Frame t s₁ s₂) (h' : Frame t s₂ s₃) :
    Frame t s₁ s₃ where
  identity := h'.identity.trans h.identity
  held k := (h'.held k).trans (h.held k)
  committed k hk := (h'.committed k (by rwa [h.held k])).trans (h.committed k hk)
  kept k hk := h'.kept k (h.kept k hk)

/-- A held row looks the same after the steps of others. -/
theorem visible (h : Frame t s s') (hheld : s.held t k ≠ none) :
    s'.visible t k = s.visible t k := by
  simp only [Store.visible, h.held k, h.committed k hheld]

end Frame

/-- A commit changes only rows that its transaction has locked. -/
theorem frame_commit (hne : t' ≠ t) : Frame t' s (s.commit t) where
  identity := rfl
  held := held_unlock_of_ne hne
  committed k hk := by
    refine (visible_of_not_held ?_ : s.visible t k = s.committed k)
    by_contra hmine
    exact hne (held_unique hk hmine)
  kept k hk := visible_isSome t hk

theorem frame_rollback (hne : t' ≠ t) : Frame t' s (s.rollback t) :=
  ⟨by simp [rollback, hne], held_unlock_of_ne hne, fun _ _ => rfl, fun _ h => h⟩

end Frames

variable {T K R : Type} [DecidableEq T] [DecidableEq K]
variable {s s' : Store T K R} {t t' : T} {k : K} {r : R}

omit [DecidableEq K] in
/-- A query selects the rows that its session sees. -/
theorem mem_hits_iff {p : K → R → Bool} {before : K × R → K × R → Bool} {x : K × R} :
    x ∈ s.hits t p before ↔ x.1 ∈ s.keys ∧ s.visible t x.1 = some x.2 ∧ p x.1 x.2 = true := by
  rw [hits, List.mem_insertionSort, List.mem_filterMap]
  constructor
  · rintro ⟨k, hk, hx⟩
    obtain ⟨r, hr, rfl⟩ := Option.map_eq_some_iff.mp hx
    exact ⟨hk, Option.filter_eq_some_iff.mp hr⟩
  · rintro ⟨hk, hx⟩
    exact ⟨x.1, hk, Option.map_eq_some_iff.mpr ⟨x.2, Option.filter_eq_some_iff.mpr hx, rfl⟩⟩

omit [DecidableEq K] in
theorem mem_hits {p : K → R → Bool} {before : K × R → K × R → Bool} {x : K × R}
    (h : x ∈ s.hits t p before) : s.visible t x.1 = some x.2 ∧ p x.1 x.2 = true :=
  (mem_hits_iff.mp h).2

/-! ## Statements that were executed -/

/-- A locking read that was not blocked returns no row, or has the lock and
returns the loaded object, which is the visible row only when it was not loaded
before. -/
theorem exec_selectForUpdate {a : Option R} (h : exec t s (.selectForUpdate k) = some (s', a)) :
    (s.visible t k = none ∧ s' = s ∧ a = none) ∨
      ∃ v, s.visible t k = some v ∧ s.lockedByOther t k = false ∧
        s' = (s.acquire t k).load t k ∧ a = some ((s.identity t k).getD v) := by
  simp only [exec] at h
  split at h
  · obtain ⟨rfl, rfl⟩ := Prod.mk.inj (Option.some.inj h)
    exact Or.inl ⟨‹_›, rfl, rfl⟩
  · rename_i v hv
    split at h
    · cases h
    · rename_i hfree
      obtain ⟨rfl, rfl⟩ := Prod.mk.inj (Option.some.inj h)
      exact Or.inr ⟨v, hv, by simpa using hfree, rfl, by simp [object, hv]⟩

/-- A flush that was not blocked writes the visible row. -/
theorem exec_update {f : R → R} {a : Unit} (h : exec t s (.update k f) = some (s', a)) :
    (s.visible t k = none ∧ s' = s) ∨
      ∃ v, s.visible t k = some v ∧ s.lockedByOther t k = false ∧
        s' = (s.write t k (f v)).remember t k ((s.identity t k).map f) := by
  simp only [exec] at h
  split at h
  · obtain ⟨rfl, -⟩ := Prod.mk.inj (Option.some.inj h)
    exact Or.inl ⟨‹_›, rfl⟩
  · rename_i v hv
    split at h
    · cases h
    · rename_i hfree
      obtain ⟨rfl, -⟩ := Prod.mk.inj (Option.some.inj h)
      exact Or.inr ⟨v, hv, by simpa using hfree, rfl⟩

/-- A conditional `UPDATE` that was not blocked writes the visible row when it matches. -/
theorem exec_updateWhere {p : R → Bool} {f : R → R} {a : Bool}
    (h : exec t s (.updateWhere k p f) = some (s', a)) :
    ((∀ v, s.visible t k = some v → p v = false) ∧ s' = s ∧ a = false) ∨
      ∃ v, s.visible t k = some v ∧ p v = true ∧ s.lockedByOther t k = false ∧
        s' = (s.write t k (f v)).synchronize t k p f ∧ a = true := by
  simp only [exec] at h
  split at h
  · rename_i hnone
    obtain ⟨rfl, rfl⟩ := Prod.mk.inj (Option.some.inj h)
    refine Or.inl ⟨fun v hv => ?_, rfl, rfl⟩
    simpa [hv, Option.filter] using hnone
  · rename_i v hv
    split at h
    · cases h
    · rename_i hfree
      obtain ⟨rfl, rfl⟩ := Prod.mk.inj (Option.some.inj h)
      obtain ⟨hvis, hp⟩ := Option.filter_eq_some_iff.mp hv
      exact Or.inr ⟨v, hvis, hp, by simpa using hfree, rfl, rfl⟩

/-- The insertion of a row under a fresh key. -/
theorem exec_insert {a : Unit} (h : exec t s (.insert k r) = some (s', a)) :
    s.committed k = none ∧ s.lock k = none ∧
      s' = ({ s with keys := s.keys ++ [k] }.write t k r).remember t k (some r) := by
  simp only [exec] at h
  split at h
  · cases h
  · rename_i hused
    obtain ⟨rfl, -⟩ := Prod.mk.inj (Option.some.inj h)
    simp only [not_or, Bool.not_eq_true, Option.isSome_eq_false_iff, Option.isNone_iff_eq_none]
      at hused
    exact ⟨hused.2.1, hused.2.2, rfl⟩

/-- The objects of a session after it has loaded an answer. -/
private theorem identity_foldl_load {v : R} (hv : s.visible t k = some v) {found : List (K × R)}
    (hfound : ∃ x ∈ found, x.1 = k) :
    (found.foldl (fun s' x => s'.load t x.1) s).identity t k = some ((s.identity t k).getD v) := by
  induction found generalizing s with
  | nil =>
    obtain ⟨x, hx, -⟩ := hfound
    cases hx
  | cons x found ih =>
    by_cases hk : x.1 = k
    · have hobject : s.object t x.1 = some ((s.identity t k).getD v) := by
        simp [object, hk, hv]
      have hloaded : (s.load t x.1).identity t k = some ((s.identity t k).getD v) :=
        hk ▸ identity_load (hk ▸ hobject)
      exact identity_foldl_load_of_some hloaded found
    · have hrest : ∃ y ∈ found, y.1 = k := by
        obtain ⟨y, hy, hyk⟩ := hfound
        rcases List.mem_cons.mp hy with rfl | hy
        · exact absurd hyk hk
        · exact ⟨y, hy, hyk⟩
      have hsame : (s.load t x.1).identity t k = s.identity t k := by
        unfold load
        split
        · simp [remember, Ne.symm hk]
        · rfl
      have hvisible : (s.load t x.1).visible t k = some v := by rw [visible_load, hv]
      rw [List.foldl_cons, ih hvisible hrest, hsame]

/-- A query answers with the objects that the session has afterwards; an object that it had is
not refreshed. -/
theorem exec_selectWhere {p : K → R → Bool} {before : K × R → K × R → Bool} {a : List (K × R)}
    (h : exec t s (.selectWhere p before) = some (s', a)) {x : K × R} (hx : x ∈ a) :
    s'.identity t x.1 = some x.2 ∧
      ∃ v, s.visible t x.1 = some v ∧ p x.1 v = true ∧ x.2 = (s.identity t x.1).getD v := by
  obtain ⟨rfl, rfl⟩ := Prod.mk.inj (Option.some.inj h)
  obtain ⟨y, hy, rfl⟩ := List.mem_map.mp hx
  obtain ⟨hvisible, hp⟩ := mem_hits hy
  exact ⟨identity_foldl_load hvisible ⟨y, hy, rfl⟩, y.2, hvisible, hp, rfl⟩

/-- Only a commit changes the committed rows. -/
theorem committed_exec {o : RowOp K R} {a : o.Res} (ho : o ≠ .commit)
    (h : exec t s o = some (s', a)) : s'.committed = s.committed := by
  cases o with
  | commit => exact absurd rfl ho
  | selectForUpdate k =>
    obtain ⟨-, rfl, -⟩ | ⟨v, -, -, rfl, -⟩ := exec_selectForUpdate h
    · rfl
    · simp
  | update k f =>
    obtain ⟨-, rfl⟩ | ⟨v, -, -, rfl⟩ := exec_update h
    · rfl
    · rfl
  | updateWhere k p f =>
    obtain ⟨-, rfl, -⟩ | ⟨v, -, -, -, rfl, -⟩ := exec_updateWhere h
    · rfl
    · rfl
  | insert k r =>
    obtain ⟨-, -, rfl⟩ := exec_insert h
    rfl
  | _ =>
    obtain ⟨rfl, -⟩ := Prod.mk.inj (Option.some.inj h)
    simp

/-- A session sees its rows after its statements, unless it rolls back. -/
theorem visible_isSome_exec {o : RowOp K R} {a : o.Res} (ho : o ≠ .rollback)
    (h : exec t s o = some (s', a)) (hvis : (s.visible t k).isSome) :
    (s'.visible t k).isSome := by
  have hwrite : ∀ (s : Store T K R) k' r, (s.visible t k).isSome →
      ((s.write t k' r).visible t k).isSome := by
    intro s k' r hsome
    rw [visible_write]
    by_cases hk : k = k'
    · simp [hk]
    · simpa [hk] using hsome
  cases o with
  | select k' =>
    obtain ⟨rfl, -⟩ := Prod.mk.inj (Option.some.inj h)
    simpa using hvis
  | selectWhere p before =>
    obtain ⟨rfl, -⟩ := Prod.mk.inj (Option.some.inj h)
    simpa [visible] using hvis
  | selectForUpdate k' =>
    obtain ⟨-, rfl, -⟩ | ⟨v, -, -, rfl, -⟩ := exec_selectForUpdate h
    · exact hvis
    · simpa using hvis
  | update k' f =>
    obtain ⟨-, rfl⟩ | ⟨v, -, -, rfl⟩ := exec_update h
    · exact hvis
    · exact hwrite s k' (f v) hvis
  | updateWhere k' p f =>
    obtain ⟨-, rfl, -⟩ | ⟨v, -, -, -, rfl, -⟩ := exec_updateWhere h
    · exact hvis
    · exact hwrite s k' (f v) hvis
  | insert k' r =>
    obtain ⟨-, -, rfl⟩ := exec_insert h
    exact hwrite { s with keys := s.keys ++ [k'] } k' r hvis
  | release k' =>
    obtain ⟨rfl, -⟩ := Prod.mk.inj (Option.some.inj h)
    exact hvis
  | commit =>
    obtain ⟨rfl, -⟩ := Prod.mk.inj (Option.some.inj h)
    rwa [visible_of_not_held held_commit]
  | rollback => exact absurd rfl ho

/-- A session holds what it held before a statement, and the row that the
statement locks or writes. -/
theorem held_of_exec {o : RowOp K R} {a : o.Res} (h : exec t s o = some (s', a))
    (hheld : s'.held t k ≠ none) : s.held t k ≠ none ∨ o = .selectForUpdate k ∨
      (∃ f, o = .update k f) ∨ (∃ p f, o = .updateWhere k p f) ∨ ∃ r, o = .insert k r := by
  have hwrite : ∀ (s : Store T K R) k' r, (s.write t k' r).held t k ≠ none →
      s.held t k ≠ none ∨ k = k' := by
    intro s k' r hw
    by_cases hk : k = k'
    · exact Or.inr hk
    · exact Or.inl (by rwa [held_write_of_key_ne hk] at hw)
  cases o with
  | select k' =>
    obtain ⟨rfl, -⟩ := Prod.mk.inj (Option.some.inj h)
    exact Or.inl (by simpa using hheld)
  | selectWhere p before =>
    obtain ⟨rfl, -⟩ := Prod.mk.inj (Option.some.inj h)
    exact Or.inl (by simpa using hheld)
  | selectForUpdate k' =>
    obtain ⟨-, rfl, -⟩ | ⟨v, -, -, rfl, -⟩ := exec_selectForUpdate h
    · exact Or.inl hheld
    · by_cases hk : k = k'
      · exact Or.inr (Or.inl (by rw [hk]))
      · rw [held_load, held_acquire_of_key_ne hk] at hheld
        exact Or.inl hheld
  | update k' f =>
    obtain ⟨-, rfl⟩ | ⟨v, -, -, rfl⟩ := exec_update h
    · exact Or.inl hheld
    · rcases hwrite s k' (f v) hheld with hold | rfl
      · exact Or.inl hold
      · exact Or.inr (Or.inr (Or.inl ⟨f, rfl⟩))
  | updateWhere k' p f =>
    obtain ⟨-, rfl, -⟩ | ⟨v, -, -, -, rfl, -⟩ := exec_updateWhere h
    · exact Or.inl hheld
    · rcases hwrite s k' (f v) hheld with hold | rfl
      · exact Or.inl hold
      · exact Or.inr (Or.inr (Or.inr (Or.inl ⟨p, f, rfl⟩)))
  | insert k' r =>
    obtain ⟨-, -, rfl⟩ := exec_insert h
    rcases hwrite { s with keys := s.keys ++ [k'] } k' r hheld with hold | rfl
    · exact Or.inl hold
    · exact Or.inr (Or.inr (Or.inr (Or.inr ⟨r, rfl⟩)))
  | release k' =>
    obtain ⟨rfl, -⟩ := Prod.mk.inj (Option.some.inj h)
    exact Or.inl hheld
  | commit =>
    obtain ⟨rfl, -⟩ := Prod.mk.inj (Option.some.inj h)
    exact absurd held_commit hheld
  | rollback =>
    obtain ⟨rfl, -⟩ := Prod.mk.inj (Option.some.inj h)
    exact absurd held_rollback hheld

/-! ## The frame of a statement -/

/-- A loading step of `t` is invisible to the other sessions. -/
private theorem frame_load (hne : t' ≠ t) : Frame t' s (s.load t k) :=
  ⟨identity_load_of_ne hne, fun _ => by simp, fun _ _ => by simp, fun _ h => by simpa using h⟩

private theorem frame_foldl_load (hne : t' ≠ t) (found : List (K × R)) (s : Store T K R) :
    Frame t' s (found.foldl (fun s' x => s'.load t x.1) s) := by
  induction found generalizing s with
  | nil => exact Frame.refl t' s
  | cons x found ih => exact (frame_load hne).trans (ih (s.load t x.1))

private theorem frame_remember (hne : t' ≠ t) {o : Option R} : Frame t' s (s.remember t k o) :=
  ⟨identity_remember_of_ne hne, fun _ => rfl, fun _ _ => rfl, fun _ h => h⟩

private theorem frame_write (hfree : s.lockedByOther t k = false) (hne : t' ≠ t) :
    Frame t' s (s.write t k r) :=
  ⟨rfl, held_write_of_ne hfree hne, fun _ _ => rfl, fun _ h => h⟩

private theorem frame_acquire (hfree : s.lockedByOther t k = false) (hne : t' ≠ t) :
    Frame t' s (s.acquire t k) :=
  ⟨by simp, held_acquire_of_ne hfree hne, fun _ _ => by simp, fun _ h => by simpa using h⟩

/-- Every statement keeps what the other sessions rely on. -/
theorem exec_frame {o : RowOp K R} {a : o.Res} (h : exec t s o = some (s', a)) (hne : t' ≠ t) :
    Frame t' s s' := by
  cases o with
  | select k =>
    obtain ⟨rfl, -⟩ := Prod.mk.inj (Option.some.inj h)
    exact frame_load hne
  | selectWhere p before =>
    obtain ⟨rfl, -⟩ := Prod.mk.inj (Option.some.inj h)
    exact frame_foldl_load hne _ s
  | selectForUpdate k =>
    obtain ⟨-, rfl, -⟩ | ⟨v, -, hfree, rfl, -⟩ := exec_selectForUpdate h
    · exact Frame.refl t' _
    · exact (frame_acquire hfree hne).trans (frame_load hne)
  | update k f =>
    obtain ⟨-, rfl⟩ | ⟨v, -, hfree, rfl⟩ := exec_update h
    · exact Frame.refl t' _
    · exact (frame_write hfree hne).trans (frame_remember hne)
  | updateWhere k p f =>
    obtain ⟨-, rfl, -⟩ | ⟨v, -, -, hfree, rfl, -⟩ := exec_updateWhere h
    · exact Frame.refl t' _
    · exact (frame_write hfree hne).trans (frame_remember hne)
  | insert k r =>
    obtain ⟨-, hlock, rfl⟩ := exec_insert h
    have hfree : lockedByOther { s with keys := s.keys ++ [k] } t k = false := by
      simp [lockedByOther, hlock]
    have hkeys : Frame t' s { s with keys := s.keys ++ [k] } :=
      ⟨rfl, fun _ => rfl, fun _ _ => rfl, fun _ h => h⟩
    exact hkeys.trans ((frame_write hfree hne).trans (frame_remember hne))
  | release k =>
    obtain ⟨rfl, -⟩ := Prod.mk.inj (Option.some.inj h)
    exact frame_remember hne
  | commit =>
    obtain ⟨rfl, -⟩ := Prod.mk.inj (Option.some.inj h)
    exact frame_commit hne
  | rollback =>
    obtain ⟨rfl, -⟩ := Prod.mk.inj (Option.some.inj h)
    exact frame_rollback hne

end RelyLoop.Concurrency.Store
