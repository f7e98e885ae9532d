import RelyLoop.Concurrency.RelyGuarantee
import Mathlib.Data.List.Sort

/-!
# A table under READ COMMITTED

One table of a relational store, read and written by the sessions of concurrent
tasks through an object-relational mapper. A statement sees the committed rows
and the writes of its own transaction. A write locks its row until the
transaction ends. A session keeps the objects it has loaded, and a later query
answers with the kept object: its attributes are not refreshed, not even by a
locking read.
-/

namespace RelyLoop.Concurrency

/-- A row lock: its owner, and the version of the row its owner has written. -/
structure Lock (T R : Type) where
  owner : T
  written : Option R

/-- The table and the sessions on it. A row is written only under its lock, so
two transactions never hold versions of one row. -/
structure Store (T K R : Type) where
  /-- The keys in use. -/
  keys : List K
  /-- The committed version of a row. -/
  committed : K → Option R
  /-- The lock on a row. -/
  lock : K → Option (Lock T R)
  /-- The objects a session has loaded. -/
  identity : T → K → Option R

/-- The statements of a session. -/
inductive RowOp (K R : Type) where
  /-- `SELECT … WHERE id = k`. -/
  | select (k : K)
  /-- `SELECT … WHERE p ORDER BY …`; `before` is the order of the answer. -/
  | selectWhere (p : K → R → Bool) (before : K × R → K × R → Bool)
  /-- `SELECT … WHERE id = k FOR UPDATE`. -/
  | selectForUpdate (k : K)
  /-- The flush of a loaded object whose attributes were changed by `f`. -/
  | update (k : K) (f : R → R)
  /-- `UPDATE … SET f WHERE id = k AND p`, answered by whether the row matched. The
  session applies the statement to its loaded object as well. -/
  | updateWhere (k : K) (p : R → Bool) (f : R → R)
  /-- The flush of a new object under a fresh key. -/
  | insert (k : K) (r : R)
  /-- The program drops its last reference to an object: the session forgets it. -/
  | release (k : K)
  | commit
  /-- `ROLLBACK`, and the end of a session: both expire every loaded object. -/
  | rollback

namespace RowOp

variable {K R : Type}

/-- The answer to a statement. -/
abbrev Res : RowOp K R → Type
  | select _ => Option R
  | selectWhere _ _ => List (K × R)
  | selectForUpdate _ => Option R
  | updateWhere _ _ _ => Bool
  | _ => Unit

end RowOp

/-- A program of a session. -/
abbrev Transaction (K R ε α : Type) := Program (RowOp K R) RowOp.Res ε α

namespace Transaction

variable {K R ε : Type}

/-- The statement `select`. -/
def select (k : K) : Transaction K R ε (Option R) := .perform (RowOp.select k)

/-- The statement `selectWhere`. -/
def selectWhere (p : K → R → Bool) (before : K × R → K × R → Bool) :
    Transaction K R ε (List (K × R)) := .perform (RowOp.selectWhere p before)

/-- The statement `selectForUpdate`. -/
def selectForUpdate (k : K) : Transaction K R ε (Option R) := .perform (RowOp.selectForUpdate k)

/-- The statement `update`. -/
def update (k : K) (f : R → R) : Transaction K R ε Unit := .perform (RowOp.update k f)

/-- The statement `updateWhere`. -/
def updateWhere (k : K) (p : R → Bool) (f : R → R) : Transaction K R ε Bool :=
  .perform (RowOp.updateWhere k p f)

/-- The statement `insert`. -/
def insert (k : K) (r : R) : Transaction K R ε Unit := .perform (RowOp.insert k r)

/-- The statement `release`. -/
def release (k : K) : Transaction K R ε Unit := .perform (RowOp.release k)

/-- The statement `commit`. -/
def commit : Transaction K R ε Unit := .perform RowOp.commit

/-- The statement `rollback`. -/
def rollback : Transaction K R ε Unit := .perform RowOp.rollback

end Transaction

namespace Store

variable {T K R : Type}

section Transactions

variable [DecidableEq T]

/-- What the transaction of `t` holds of a row: nothing, its lock alone, or its
lock and a version it has written. -/
def held (s : Store T K R) (t : T) (k : K) : Option (Option R) :=
  (s.lock k).bind fun l => if l.owner = t then some l.written else none

/-- The version of a row that the statements of `t` see. -/
def visible (s : Store T K R) (t : T) (k : K) : Option R :=
  match s.held t k with
  | some (some r) => some r
  | _ => s.committed k

/-- Whether another transaction holds the lock on a row. -/
def lockedByOther (s : Store T K R) (t : T) (k : K) : Bool :=
  (s.lock k).any fun l => decide (l.owner ≠ t)

/-- The object that a query of `t` returns for a row it sees: the loaded one, if any. -/
def object (s : Store T K R) (t : T) (k : K) : Option R :=
  (s.visible t k).map fun r => (s.identity t k).getD r

/-- Giving up the locks of `t`. -/
def unlock (s : Store T K R) (t : T) : K → Option (Lock T R) :=
  fun k => (s.lock k).filter fun l => decide (l.owner ≠ t)

/-- The end of the transaction of `t` by `COMMIT`: loaded objects are not expired. -/
def commit (s : Store T K R) (t : T) : Store T K R :=
  { s with committed := s.visible t, lock := s.unlock t }

/-- The end of the transaction of `t` by `ROLLBACK`, or of its session. -/
def rollback (s : Store T K R) (t : T) : Store T K R :=
  { s with lock := s.unlock t, identity := Function.update s.identity t fun _ => none }

variable {s : Store T K R} {t t' : T} {k : K} {r : R}

theorem held_of_lock {l : Lock T R} (h : s.lock k = some l) :
    s.held t k = if l.owner = t then some l.written else none := by
  simp [held, h]

/-- Two transactions do not hold the same row. -/
theorem held_unique (h : s.held t k ≠ none) (h' : s.held t' k ≠ none) : t = t' := by
  cases hlock : s.lock k with
  | none => simp [held, hlock] at h
  | some l =>
    rw [held_of_lock hlock] at h h'
    by_cases ht : l.owner = t <;> by_cases ht' : l.owner = t' <;> simp_all

theorem visible_of_not_held (h : s.held t k = none) : s.visible t k = s.committed k := by
  simp [visible, h]

theorem visible_of_written (h : s.held t k = some (some r)) : s.visible t k = some r := by
  simp [visible, h]

/-- A committed row is seen by every transaction. -/
theorem visible_isSome (t : T) (h : (s.committed k).isSome) : (s.visible t k).isSome := by
  unfold visible
  split <;> simp [h]

/-- A lock that another transaction does not hold is free or already held. -/
theorem held_or_free (h : s.lockedByOther t k = false) : s.held t k ≠ none ∨ s.lock k = none := by
  cases hlock : s.lock k with
  | none => exact Or.inr rfl
  | some l =>
    have howner : l.owner = t := by simpa [lockedByOther, hlock] using h
    exact Or.inl (by simp [held_of_lock hlock, howner])

/-- A held row is not locked by another transaction. -/
theorem not_lockedByOther_of_held (h : s.held t k ≠ none) : s.lockedByOther t k = false := by
  cases hlock : s.lock k with
  | none => simp [lockedByOther, hlock]
  | some l =>
    rw [held_of_lock hlock] at h
    by_cases ht : l.owner = t
    · simp [lockedByOther, hlock, ht]
    · simp [ht] at h

theorem not_lockedByOther_of_free (h : s.lock k = none) : s.lockedByOther t k = false := by
  simp [lockedByOther, h]

theorem not_held_of_free (h : s.lock k = none) : s.held t k = none := by simp [held, h]

/-- A row that nobody else holds is not held by a given other transaction. -/
theorem not_held_of_not_lockedByOther (h : s.lockedByOther t k = false) (hne : t' ≠ t) :
    s.held t' k = none := by
  by_contra hheld
  rcases held_or_free h with hmine | hfree
  · exact hne (held_unique hheld hmine)
  · simp [held, hfree] at hheld

theorem held_unlock (s : Store T K R) (t : T) (k : K) :
    ({ s with lock := s.unlock t } : Store T K R).held t k = none := by
  cases hlock : s.lock k with
  | none => simp [held, unlock, hlock]
  | some l => by_cases ht : l.owner = t <;> simp [held, unlock, hlock, Option.filter, ht]

theorem held_unlock_of_ne (hne : t' ≠ t) (k : K) :
    ({ s with lock := s.unlock t } : Store T K R).held t' k = s.held t' k := by
  cases hlock : s.lock k with
  | none => simp [held, unlock, hlock]
  | some l =>
    by_cases ht : l.owner = t
    · simp [held, unlock, hlock, Option.filter, ht, hne.symm]
    · simp [held, unlock, hlock, Option.filter, ht]

/-- A transaction holds nothing after its commit. -/
@[simp] theorem held_commit : (s.commit t).held t k = none := held_unlock s t k

@[simp] theorem held_rollback : (s.rollback t).held t k = none := held_unlock s t k

@[simp] theorem committed_commit : (s.commit t).committed = s.visible t := rfl

@[simp] theorem committed_rollback : (s.rollback t).committed = s.committed := rfl

@[simp] theorem identity_commit : (s.commit t).identity = s.identity := rfl

@[simp] theorem identity_rollback : (s.rollback t).identity t k = none := by simp [rollback]

end Transactions

/-! ## Statements -/

variable [DecidableEq K]

/-- Writing a version of a row in the transaction of `t`. -/
def write (s : Store T K R) (t : T) (k : K) (r : R) : Store T K R :=
  { s with lock := Function.update s.lock k (some ⟨t, some r⟩) }

@[simp] theorem committed_write {s : Store T K R} {t : T} {k : K} {r : R} :
    (s.write t k r).committed = s.committed := rfl

@[simp] theorem identity_write {s : Store T K R} {t : T} {k : K} {r : R} :
    (s.write t k r).identity = s.identity := rfl

variable [DecidableEq T]

/-- Keeping an object in the session of `t`, or forgetting it. -/
def remember (s : Store T K R) (t : T) (k : K) (o : Option R) : Store T K R :=
  { s with identity := Function.update s.identity t (Function.update (s.identity t) k o) }

/-- Loading a row that a query of `t` returns. -/
def load (s : Store T K R) (t : T) (k : K) : Store T K R :=
  match s.object t k with
  | some r => s.remember t k (some r)
  | none => s

/-- Taking the lock on a row for the transaction of `t`. -/
def acquire (s : Store T K R) (t : T) (k : K) : Store T K R :=
  match s.held t k with
  | some _ => s
  | none => { s with lock := Function.update s.lock k (some ⟨t, none⟩) }

/-- Applying a conditional `UPDATE` to the loaded object of `t`, when it satisfies
the condition as it was loaded. -/
def synchronize (s : Store T K R) (t : T) (k : K) (p : R → Bool) (f : R → R) : Store T K R :=
  s.remember t k ((s.identity t k).map fun o => if p o then f o else o)

/-- The rows that a query of `t` selects, in the order of the query. -/
def hits (s : Store T K R) (t : T) (p : K → R → Bool) (before : K × R → K × R → Bool) :
    List (K × R) :=
  (s.keys.filterMap fun k => ((s.visible t k).filter (p k)).map fun r => (k, r)).insertionSort
    fun x y => before x y = true

/-- The effect and the answer of a statement of `t`; `none` while it waits for a
lock. An `UPDATE` waits only for rows that match as it sees them. -/
def exec (t : T) (s : Store T K R) : (o : RowOp K R) → Option (Store T K R × o.Res)
  | .select k => some (s.load t k, s.object t k)
  | .selectWhere p before =>
    let found := s.hits t p before
    some (found.foldl (fun s' x => s'.load t x.1) s,
      found.map fun x => (x.1, (s.identity t x.1).getD x.2))
  | .selectForUpdate k =>
    match s.visible t k with
    | none => some (s, none)
    | some _ =>
      if s.lockedByOther t k then none else some ((s.acquire t k).load t k, s.object t k)
  | .update k f =>
    match s.visible t k with
    | none => some (s, ())
    | some r =>
      if s.lockedByOther t k then none
      else some ((s.write t k (f r)).remember t k ((s.identity t k).map f), ())
  | .updateWhere k p f =>
    match (s.visible t k).filter p with
    | none => some (s, false)
    | some r =>
      if s.lockedByOther t k then none else some ((s.write t k (f r)).synchronize t k p f, true)
  | .insert k r =>
    if k ∈ s.keys ∨ (s.committed k).isSome ∨ (s.lock k).isSome then none
    else some (({ s with keys := s.keys ++ [k] }.write t k r).remember t k (some r), ())
  | .release k => some (s.remember t k none, ())
  | .commit => some (s.commit t, ())
  | .rollback => some (s.rollback t, ())

variable {s : Store T K R} {t t' : T} {k k' : K} {r : R} {o : Option R}

@[simp] theorem held_remember : (s.remember t k o).held t' = s.held t' := rfl

@[simp] theorem committed_remember : (s.remember t k o).committed = s.committed := rfl

@[simp] theorem visible_remember : (s.remember t k o).visible t' = s.visible t' := rfl

@[simp] theorem identity_remember : (s.remember t k o).identity t k = o := by
  simp [remember]

@[simp] theorem held_synchronize {p : R → Bool} {f : R → R} :
    (s.synchronize t k p f).held t' = s.held t' := rfl

@[simp] theorem committed_synchronize {p : R → Bool} {f : R → R} :
    (s.synchronize t k p f).committed = s.committed := rfl

theorem identity_remember_of_ne (h : t' ≠ t) :
    (s.remember t k o).identity t' = s.identity t' := by
  simp [remember, h]

@[simp] theorem held_load : (s.load t k).held t' = s.held t' := by
  unfold load
  split <;> simp

@[simp] theorem committed_load : (s.load t k).committed = s.committed := by
  unfold load
  split <;> simp

@[simp] theorem visible_load : (s.load t k).visible t' = s.visible t' := by
  unfold load
  split <;> simp

/-- Loading the rows of an answer writes nothing. -/
@[simp] theorem held_foldl_load (found : List (K × R)) :
    (found.foldl (fun s' x => s'.load t x.1) s).held t' = s.held t' := by
  induction found generalizing s with
  | nil => rfl
  | cons x found ih => simp [ih]

@[simp] theorem committed_foldl_load (found : List (K × R)) :
    (found.foldl (fun s' x => s'.load t x.1) s).committed = s.committed := by
  induction found generalizing s with
  | nil => rfl
  | cons x found ih => simp [ih]

theorem identity_load (h : s.object t k = some r) : (s.load t k).identity t k = some r := by
  simp [load, h]

/-- Loading does not refresh an object. -/
theorem identity_load_of_some (h : s.identity t k = some r) (k' : K) :
    (s.load t k').identity t k = some r := by
  unfold load object
  cases hvis : s.visible t k' with
  | none => exact h
  | some v =>
    by_cases hk : k = k'
    · subst hk
      simp [h]
    · simpa [remember, hk] using h

theorem identity_foldl_load_of_some (h : s.identity t k = some r) (found : List (K × R)) :
    (found.foldl (fun s' x => s'.load t x.1) s).identity t k = some r := by
  induction found generalizing s with
  | nil => exact h
  | cons x found ih => exact ih (identity_load_of_some h x.1)

theorem identity_load_of_ne (h : t' ≠ t) : (s.load t k).identity t' = s.identity t' := by
  unfold load
  split
  · exact identity_remember_of_ne h
  · rfl

@[simp] theorem held_write : (s.write t k r).held t k = some (some r) := by
  simp [held, write]

theorem held_write_of_key_ne (h : k' ≠ k) : (s.write t k r).held t' k' = s.held t' k' := by
  simp [held, write, h]

/-- A write to a row that nobody else holds takes nothing from another transaction. -/
theorem held_write_of_ne (hfree : s.lockedByOther t k = false) (hne : t' ≠ t) (k' : K) :
    (s.write t k r).held t' k' = s.held t' k' := by
  by_cases hk : k' = k
  · subst hk
    rw [not_held_of_not_lockedByOther hfree hne]
    simp [held, write, hne.symm]
  · exact held_write_of_key_ne hk

@[simp] theorem committed_acquire : (s.acquire t k).committed = s.committed := by
  unfold acquire
  split <;> rfl

@[simp] theorem identity_acquire : (s.acquire t k).identity = s.identity := by
  unfold acquire
  split <;> rfl

theorem held_acquire : (s.acquire t k).held t k = some ((s.held t k).getD none) := by
  unfold acquire
  split
  · simp_all
  · rename_i hnone
    rw [hnone]
    simp [held]

theorem held_acquire_of_key_ne (h : k' ≠ k) : (s.acquire t k).held t' k' = s.held t' k' := by
  unfold acquire
  split
  · rfl
  · simp [held, h]

/-- Taking a free lock takes nothing from another transaction. -/
theorem held_acquire_of_ne (hfree : s.lockedByOther t k = false) (hne : t' ≠ t) (k' : K) :
    (s.acquire t k).held t' k' = s.held t' k' := by
  by_cases hk : k' = k
  · subst hk
    rw [not_held_of_not_lockedByOther hfree hne]
    unfold acquire
    split
    · exact not_held_of_not_lockedByOther hfree hne
    · simp [held, hne.symm]
  · exact held_acquire_of_key_ne hk

/-- Taking a lock writes nothing. -/
theorem held_acquire_written :
    (s.acquire t k).held t k' = some (some r) ↔ s.held t k' = some (some r) := by
  by_cases hk : k' = k
  · subst hk
    rw [held_acquire]
    cases s.held t k' <;> simp
  · rw [held_acquire_of_key_ne hk]

@[simp] theorem visible_acquire : (s.acquire t k).visible t = s.visible t := by
  funext k'
  by_cases hk : k' = k
  · subst hk
    simp only [visible, held_acquire, committed_acquire]
    cases s.held t k' <;> rfl
  · simp only [visible, held_acquire_of_key_ne hk, committed_acquire]

/-- The rows after a write. -/
theorem visible_write : (s.write t k r).visible t = Function.update (s.visible t) k (some r) := by
  funext k'
  by_cases hk : k' = k
  · subst hk
    rw [Function.update_self]
    exact visible_of_written held_write
  · rw [Function.update_of_ne hk]
    simp only [Store.visible, held_write_of_key_ne hk, committed_write]

end Store

end RelyLoop.Concurrency
