import RelyLoop.Concurrency.RowStore
import Mathlib.Data.List.Pairwise
import Mathlib.Data.List.Perm.Basic

/-!
# A table of insertions

A table into which transactions only insert, under unique constraints: `clash` says
which two rows may not both be present. An insertion that clashes with a row of an
open transaction waits for its end; one that clashes with a row that is seen is
refused.
-/

namespace RelyLoop.Concurrency

/-- The committed rows, and the rows that open transactions have inserted. -/
structure InsertTable (T X : Type) where
  committed : List X
  pending : List (T × X)

namespace InsertTable

variable {T X : Type}

/-- All rows, committed or not. -/
def rows (s : InsertTable T X) : List X := s.committed ++ s.pending.map Prod.snd

/-- No two rows clash. -/
def Unique (clash : X → X → Bool) (s : InsertTable T X) : Prop :=
  s.rows.Pairwise fun x y => clash x y = false

variable [DecidableEq T]

/-- The rows that the transaction of `t` has inserted. -/
def own (s : InsertTable T X) (t : T) : List X :=
  (s.pending.filter fun e => e.1 = t).map Prod.snd

/-- The rows that the statements of `t` see. -/
def visible (s : InsertTable T X) (t : T) : List X := s.committed ++ s.own t

/-- The rows that the other transactions have inserted. -/
def others (s : InsertTable T X) (t : T) : List (T × X) := s.pending.filter fun e => e.1 ≠ t

/-- The end of the transaction of `t` by `COMMIT`. -/
def commit (s : InsertTable T X) (t : T) : InsertTable T X := ⟨s.visible t, s.others t⟩

/-- The end of the transaction of `t` by `ROLLBACK`. -/
def rollback (s : InsertTable T X) (t : T) : InsertTable T X := ⟨s.committed, s.others t⟩

/-- `SELECT … WHERE p ORDER BY …`. -/
def find (s : InsertTable T X) (t : T) (p : X → Bool) (before : X → X → Bool) : List X :=
  ((s.visible t).filter p).insertionSort fun x y => before x y = true

/-- `INSERT`, answered by whether the unique constraints allow the row; `none` while
it waits for another transaction. -/
def insert (clash : X → X → Bool) (s : InsertTable T X) (t : T) (x : X) :
    Option (InsertTable T X × Bool) :=
  if (s.others t).any fun e => clash e.2 x then none
  else if (s.visible t).any fun y => clash y x then some (s, false)
  else some ({ s with pending := s.pending ++ [(t, x)] }, true)

/-- What happens to the insertions when the transaction of `t` performs a statement
on another table. -/
def follow {K R : Type} (s : InsertTable T X) (t : T) : RowOp K R → InsertTable T X
  | .commit => s.commit t
  | .rollback => s.rollback t
  | _ => s

variable {clash : X → X → Bool} {s s' : InsertTable T X} {t t' : T} {x : X}

theorem mem_find {p : X → Bool} {before : X → X → Bool} :
    x ∈ s.find t p before ↔ x ∈ s.visible t ∧ p x = true := by
  rw [find, List.mem_insertionSort, List.mem_filter]

/-- An insertion that was not blocked is refused, or adds a row that clashes with none. -/
theorem insert_cases {a : Bool} (h : s.insert clash t x = some (s', a)) :
    (s' = s ∧ a = false) ∨ (s' = { s with pending := s.pending ++ [(t, x)] } ∧ a = true ∧
      ∀ y ∈ s.rows, clash y x = false) := by
  unfold insert at h
  split at h
  · cases h
  rename_i hothers
  split at h
  · obtain ⟨rfl, rfl⟩ := Prod.mk.inj (Option.some.inj h)
    exact Or.inl ⟨rfl, rfl⟩
  rename_i hvisible
  obtain ⟨rfl, rfl⟩ := Prod.mk.inj (Option.some.inj h)
  refine Or.inr ⟨rfl, rfl, fun y hy => ?_⟩
  simp only [List.any_eq_true, not_exists, not_and, Bool.not_eq_true] at hothers hvisible
  rcases List.mem_append.mp hy with hcommitted | hpending
  · exact hvisible y (List.mem_append_left _ hcommitted)
  · obtain ⟨e, he, rfl⟩ := List.mem_map.mp hpending
    by_cases ht : e.1 = t
    · have hown : e.2 ∈ s.own t := List.mem_map.mpr ⟨e, List.mem_filter.mpr ⟨he, by simpa⟩, rfl⟩
      exact hvisible e.2 (List.mem_append_right _ hown)
    · exact hothers e (List.mem_filter.mpr ⟨he, by simpa⟩)

/-! ## Unique constraints -/

omit [DecidableEq T] in
/-- Two rows that clash are one row. -/
theorem Unique.eq_of_clash (h : s.Unique clash) (hsymm : ∀ x y, clash x y = clash y x) {y : X}
    (hx : x ∈ s.rows) (hy : y ∈ s.rows) (hclash : clash x y = true) : x = y := by
  have : Std.Symm fun x y => clash x y = false := ⟨fun x y hxy => (hsymm y x).trans hxy⟩
  by_contra hne
  have hfree := List.Pairwise.forall h hx hy hne
  simp [hclash] at hfree

/-- A commit moves rows. -/
theorem rows_commit : List.Perm (s.commit t).rows s.rows := by
  have hsplit : List.Perm (s.own t ++ (s.others t).map Prod.snd) (s.pending.map Prod.snd) := by
    rw [own, others, ← List.map_append]
    have hperm := List.filter_append_perm (fun e : T × X => decide (e.1 = t)) s.pending
    simpa using hperm.map Prod.snd
  have hrows : (s.commit t).rows = s.committed ++ (s.own t ++ (s.others t).map Prod.snd) := by
    simp [rows, commit, visible]
  rw [hrows, rows]
  exact hsplit.append_left s.committed

/-- A rollback drops rows. -/
theorem rows_rollback : List.Sublist (s.rollback t).rows s.rows :=
  (List.filter_sublist.map Prod.snd).append_left s.committed

omit [DecidableEq T] in
theorem rows_insert : ({ s with pending := s.pending ++ [(t, x)] } : InsertTable T X).rows =
    s.rows ++ [x] := by
  simp [rows]

theorem Unique.commit (h : s.Unique clash) (hsymm : ∀ x y, clash x y = clash y x) :
    (s.commit t).Unique clash := by
  have hback : ∀ {x y}, clash x y = false → clash y x = false :=
    fun {x y} hxy => (hsymm y x).trans hxy
  exact (rows_commit.pairwise_iff hback).mpr h

theorem Unique.rollback (h : s.Unique clash) : (s.rollback t).Unique clash :=
  List.Pairwise.sublist rows_rollback h

theorem Unique.insert {a : Bool} (h : s.Unique clash) (hexec : s.insert clash t x = some (s', a)) :
    s'.Unique clash := by
  rcases insert_cases hexec with ⟨rfl, -⟩ | ⟨rfl, -, hnone⟩
  · exact h
  · unfold Unique
    rw [rows_insert, List.pairwise_append]
    exact ⟨h, List.pairwise_singleton _ _, fun y hy z hz => List.mem_singleton.mp hz ▸ hnone y hy⟩

theorem Unique.follow {K R : Type} (h : s.Unique clash) (hsymm : ∀ x y, clash x y = clash y x)
    (o : RowOp K R) : (s.follow t o).Unique clash := by
  cases o with
  | commit => exact h.commit hsymm
  | rollback => exact h.rollback
  | _ => exact h

/-- Every row after such a statement was a row before. -/
theorem mem_rows_follow {K R : Type} {o : RowOp K R} (h : x ∈ (s.follow t o).rows) :
    x ∈ s.rows := by
  cases o with
  | commit => exact rows_commit.mem_iff.mp h
  | rollback => exact rows_rollback.subset h
  | _ => exact h

/-! ## What a session relies on -/

/-- The others do not touch the insertions of `t`, and remove no committed row. -/
structure Frame (t : T) (s s' : InsertTable T X) : Prop where
  own : s'.own t = s.own t
  committed : ∀ x ∈ s.committed, x ∈ s'.committed

theorem Frame.refl (t : T) (s : InsertTable T X) : Frame t s s := ⟨rfl, fun _ h => h⟩

theorem Frame.trans {s₁ s₂ s₃ : InsertTable T X} (h : Frame t s₁ s₂) (h' : Frame t s₂ s₃) :
    Frame t s₁ s₃ := ⟨h'.own.trans h.own, fun x hx => h'.committed x (h.committed x hx)⟩

/-- The insertions of another transaction survive the end of this one. -/
theorem own_others (hne : t' ≠ t) (committed : List X) :
    (⟨committed, s.others t⟩ : InsertTable T X).own t' = s.own t' := by
  simp only [own, others, List.filter_filter]
  congr 1
  refine List.filter_congr fun e _ => ?_
  by_cases he : e.1 = t'
  · simp [he, hne]
  · simp [he]

/-- The end of a transaction leaves no insertion of it. -/
theorem own_others_self (committed : List X) :
    (⟨committed, s.others t⟩ : InsertTable T X).own t = [] := by
  simp [own, others, List.filter_filter]

@[simp] theorem own_commit : (s.commit t).own t = [] := own_others_self _

@[simp] theorem own_rollback : (s.rollback t).own t = [] := own_others_self _

theorem frame_follow {K R : Type} (hne : t' ≠ t) (o : RowOp K R) : Frame t' s (s.follow t o) := by
  cases o with
  | commit => exact ⟨own_others hne _, fun x hx => List.mem_append_left _ hx⟩
  | rollback => exact ⟨own_others hne _, fun x hx => hx⟩
  | _ => exact Frame.refl t' s

theorem frame_insert {a : Bool} (hexec : s.insert clash t x = some (s', a)) (hne : t' ≠ t) :
    Frame t' s s' := by
  rcases insert_cases hexec with ⟨rfl, -⟩ | ⟨rfl, -, -⟩
  · exact Frame.refl t' _
  · refine ⟨?_, fun x hx => hx⟩
    simp [own, List.filter_append, hne.symm]

/-- Committed rows stay. -/
theorem committed_follow {K R : Type} (o : RowOp K R) (hx : x ∈ s.committed) :
    x ∈ (s.follow t o).committed := by
  cases o with
  | commit => exact List.mem_append_left _ hx
  | _ => exact hx

end InsertTable

end RelyLoop.Concurrency
