import RelyLoop.Concurrency.RowFrame

/-!
# The versions of a row

Under READ COMMITTED a row has a committed version, and at most one that an open
transaction has written. A statement leaves the versions that were there, adds the
one that it writes, and uses no key but the one that it inserts.
-/

namespace RelyLoop.Concurrency.Store

variable {T K R : Type} [DecidableEq T]

/-- The versions of a row: the committed one, and the one that a transaction has
written. -/
def versions (s : Store T K R) (k : K) : List R :=
  (s.committed k).toList ++ ((s.lock k).bind Lock.written).toList

omit [DecidableEq T] in
theorem mem_versions {s : Store T K R} {k : K} {r : R} :
    r ∈ s.versions k ↔ s.committed k = some r ∨ (s.lock k).bind Lock.written = some r := by
  simp [versions]

/-- Every version belongs to a key in use. -/
def KeysKnown (s : Store T K R) : Prop := ∀ k, ∀ r ∈ s.versions k, k ∈ s.keys

variable {s s' : Store T K R} {t : T} {k : K} {r : R}

omit [DecidableEq T] in
/-- In a table without locks the versions are the committed rows. -/
theorem mem_versions_of_unlocked (hlock : ∀ k, s.lock k = none) :
    r ∈ s.versions k ↔ s.committed k = some r := by
  simp [mem_versions, hlock k]

/-- A lock that another transaction keeps has its version. -/
private theorem written_unlock (h : (s.unlock t k).bind Lock.written = some r) :
    (s.lock k).bind Lock.written = some r := by
  obtain ⟨l, hl, hwritten⟩ := Option.bind_eq_some_iff.mp h
  obtain ⟨hlock, -⟩ := Option.filter_eq_some_iff.mp hl
  exact Option.bind_eq_some_iff.mpr ⟨l, hlock, hwritten⟩

/-- The end of a transaction gives up its versions. -/
theorem mem_versions_of_rollback (h : r ∈ (s.rollback t).versions k) : r ∈ s.versions k :=
  mem_versions.mpr ((mem_versions.mp h).imp_right written_unlock)

/-- A commit publishes versions, and writes none. -/
theorem mem_versions_of_commit (h : r ∈ (s.commit t).versions k) : r ∈ s.versions k := by
  apply mem_versions.mpr
  rcases mem_versions.mp h with hcommitted | hwritten
  · rw [committed_commit, visible] at hcommitted
    split at hcommitted
    · rename_i r' hheld
      obtain ⟨l, hl, howner⟩ := Option.bind_eq_some_iff.mp hheld
      obtain ⟨-, hl'⟩ := Option.ite_none_right_eq_some.mp howner
      exact Or.inr (by rw [hl, Option.bind_some, Option.some.inj hl', hcommitted])
    · exact Or.inl hcommitted
  · exact Or.inr (written_unlock hwritten)

/-- After a commit a row that the session held has the committed version only. -/
theorem versions_commit_of_held (h : s.held t k ≠ none) :
    (s.commit t).versions k = (s.visible t k).toList := by
  obtain ⟨l, hl⟩ := Option.ne_none_iff_exists'.mp h
  obtain ⟨l', hlock, howner⟩ := Option.bind_eq_some_iff.mp hl
  obtain ⟨hmine, -⟩ := Option.ite_none_right_eq_some.mp howner
  have hunlock : s.unlock t k = none := by simp [unlock, hlock, Option.filter, hmine]
  have hfree : (s.commit t).lock k = none := hunlock
  simp [versions, hfree]

/-- The version that a session sees. -/
theorem mem_versions_of_visible (h : s.visible t k = some r) : r ∈ s.versions k := by
  apply mem_versions.mpr
  unfold visible at h
  split at h
  · rename_i r' hheld
    obtain ⟨l, hl, howner⟩ := Option.bind_eq_some_iff.mp hheld
    obtain ⟨-, hl'⟩ := Option.ite_none_right_eq_some.mp howner
    exact Or.inr (by rw [hl, Option.bind_some, Option.some.inj hl', h])
  · exact Or.inl h

variable [DecidableEq K]

/-- An insertion adds one version. -/
theorem mem_versions_of_insert {k' : K} {r' : R} {a : Unit}
    (hexec : exec t s (.insert k r) = some (s', a)) (h : r' ∈ s'.versions k') :
    (k' = k ∧ r' = r) ∨ r' ∈ s.versions k' := by
  obtain ⟨-, -, rfl⟩ := exec_insert hexec
  rcases mem_versions.mp h with hcommitted | hwritten
  · exact Or.inr (mem_versions.mpr (Or.inl hcommitted))
  · by_cases hk : k' = k
    · subst hk
      exact Or.inl ⟨rfl, by simpa [write, remember] using hwritten.symm⟩
    · refine Or.inr (mem_versions.mpr (Or.inr ?_))
      simpa [write, remember, hk] using hwritten

/-- Loading a row writes no version. -/
@[simp] theorem versions_load : (s.load t k).versions = s.versions := by
  unfold load
  split <;> rfl

@[simp] theorem keys_load : (s.load t k).keys = s.keys := by
  unfold load
  split <;> rfl

/-- A query writes no version. -/
theorem versions_foldl_load (found : List (K × R)) :
    (found.foldl (fun s' x => s'.load t x.1) s).versions = s.versions := by
  induction found generalizing s with
  | nil => rfl
  | cons x found ih => rw [List.foldl_cons, ih, versions_load]

theorem keys_foldl_load (found : List (K × R)) :
    (found.foldl (fun s' x => s'.load t x.1) s).keys = s.keys := by
  induction found generalizing s with
  | nil => rfl
  | cons x found ih => rw [List.foldl_cons, ih, keys_load]

/-- The version that a statement writes. -/
def Writes (s : Store T K R) (t : T) : RowOp K R → K → R → Prop
  | .update k f, k', r => k' = k ∧ ∃ v, s.visible t k = some v ∧ r = f v
  | .updateWhere k p f, k', r => k' = k ∧ ∃ v, s.visible t k = some v ∧ p v = true ∧ r = f v
  | .insert k r', k', r => k' = k ∧ r = r'
  | _, _, _ => False

omit [DecidableEq T] in
/-- A write adds one version. -/
theorem mem_versions_of_write {k' : K} {r' : R} (h : r' ∈ (s.write t k r).versions k') :
    (k' = k ∧ r' = r) ∨ r' ∈ s.versions k' := by
  rcases mem_versions.mp h with hcommitted | hwritten
  · exact Or.inr (mem_versions.mpr (Or.inl hcommitted))
  · by_cases hk : k' = k
    · subst hk
      exact Or.inl ⟨rfl, by simpa [write] using hwritten.symm⟩
    · exact Or.inr (mem_versions.mpr (Or.inr (by simpa [write, hk] using hwritten)))

theorem versions_acquire (hfree : s.lockedByOther t k = false) :
    (s.acquire t k).versions = s.versions := by
  funext k'
  unfold acquire
  split
  · rfl
  · rename_i hnone
    by_cases hk : k' = k
    · subst hk
      have hlock : s.lock k' = none := (held_or_free hfree).resolve_left fun h => h hnone
      simp [versions, hlock]
    · simp [versions, hk]

/-- A statement leaves versions that were there, and the one that it writes. -/
theorem mem_versions_exec {o : RowOp K R} {a : o.Res} {k' : K} {r' : R}
    (hexec : exec t s o = some (s', a)) (h : r' ∈ s'.versions k') :
    r' ∈ s.versions k' ∨ s.Writes t o k' r' := by
  cases o with
  | select k =>
    obtain ⟨rfl, -⟩ := Prod.mk.inj (Option.some.inj hexec)
    exact Or.inl (by rwa [versions_load] at h)
  | selectWhere p before =>
    obtain ⟨rfl, -⟩ := Prod.mk.inj (Option.some.inj hexec)
    exact Or.inl (by rwa [versions_foldl_load] at h)
  | selectForUpdate k =>
    obtain ⟨-, rfl, -⟩ | ⟨v, -, hfree, rfl, -⟩ := exec_selectForUpdate hexec
    · exact Or.inl h
    · exact Or.inl (by rwa [versions_load, versions_acquire hfree] at h)
  | update k f =>
    obtain ⟨-, rfl⟩ | ⟨v, hv, -, rfl⟩ := exec_update hexec
    · exact Or.inl h
    · have h : r' ∈ (s.write t k (f v)).versions k' := h
      rcases mem_versions_of_write h with ⟨hk, hr⟩ | hold
      · exact Or.inr ⟨hk, v, hv, hr⟩
      · exact Or.inl hold
  | updateWhere k p f =>
    obtain ⟨-, rfl, -⟩ | ⟨v, hv, hp, -, rfl, -⟩ := exec_updateWhere hexec
    · exact Or.inl h
    · have h : r' ∈ (s.write t k (f v)).versions k' := h
      rcases mem_versions_of_write h with ⟨hk, hr⟩ | hold
      · exact Or.inr ⟨hk, v, hv, hp, hr⟩
      · exact Or.inl hold
  | insert k r =>
    exact (mem_versions_of_insert hexec h).symm.imp_right id
  | release k =>
    obtain ⟨rfl, -⟩ := Prod.mk.inj (Option.some.inj hexec)
    exact Or.inl h
  | commit =>
    obtain ⟨rfl, -⟩ := Prod.mk.inj (Option.some.inj hexec)
    exact Or.inl (mem_versions_of_commit h)
  | rollback =>
    obtain ⟨rfl, -⟩ := Prod.mk.inj (Option.some.inj hexec)
    exact Or.inl (mem_versions_of_rollback h)

/-- A statement adds no key but the one that it inserts. -/
theorem mem_keys_exec {o : RowOp K R} {a : o.Res} {k' : K}
    (hexec : exec t s o = some (s', a)) (h : k' ∈ s.keys) : k' ∈ s'.keys := by
  cases o with
  | select k =>
    obtain ⟨rfl, -⟩ := Prod.mk.inj (Option.some.inj hexec)
    rwa [keys_load]
  | selectWhere p before =>
    obtain ⟨rfl, -⟩ := Prod.mk.inj (Option.some.inj hexec)
    rwa [keys_foldl_load]
  | selectForUpdate k =>
    obtain ⟨-, rfl, -⟩ | ⟨v, -, -, rfl, -⟩ := exec_selectForUpdate hexec
    · exact h
    · rw [keys_load]
      unfold acquire
      split <;> exact h
  | update k f =>
    obtain ⟨-, rfl⟩ | ⟨v, -, -, rfl⟩ := exec_update hexec <;> exact h
  | updateWhere k p f =>
    obtain ⟨-, rfl, -⟩ | ⟨v, -, -, -, rfl, -⟩ := exec_updateWhere hexec <;> exact h
  | insert k r =>
    obtain ⟨-, -, rfl⟩ := exec_insert hexec
    exact List.mem_append_left [k] h
  | release k =>
    obtain ⟨rfl, -⟩ := Prod.mk.inj (Option.some.inj hexec)
    exact h
  | commit =>
    obtain ⟨rfl, -⟩ := Prod.mk.inj (Option.some.inj hexec)
    exact h
  | rollback =>
    obtain ⟨rfl, -⟩ := Prod.mk.inj (Option.some.inj hexec)
    exact h

/-- The keys in use stay known. -/
theorem KeysKnown.exec {o : RowOp K R} {a : o.Res} (h : s.KeysKnown)
    (hexec : exec t s o = some (s', a)) : s'.KeysKnown := by
  intro k' r' hr'
  rcases mem_versions_exec hexec hr' with hold | hwrite
  · exact mem_keys_exec hexec (h k' r' hold)
  · cases o with
    | update k f =>
      obtain ⟨rfl, v, hv, -⟩ := hwrite
      exact mem_keys_exec hexec (h k' v (mem_versions_of_visible hv))
    | updateWhere k p f =>
      obtain ⟨rfl, v, hv, -, -⟩ := hwrite
      exact mem_keys_exec hexec (h k' v (mem_versions_of_visible hv))
    | insert k r =>
      obtain ⟨rfl, -⟩ := hwrite
      obtain ⟨-, -, rfl⟩ := exec_insert hexec
      exact List.mem_append_right s.keys List.mem_cons_self
    | _ => exact hwrite.elim

end RelyLoop.Concurrency.Store
