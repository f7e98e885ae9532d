import RelyLoop.Concurrency.RelyGuarantee
import RelyLoop.Concurrency.RowContract

/-!
# Two tables of one database

Sessions that use two tables: a commit publishes their writes to both at once, and
a rollback discards both. A query of single columns of the second table loads no
object, so it sees the row as it is.
-/

namespace RelyLoop.Concurrency

/-- Two tables with the sessions on them. -/
structure Tables (T K R K' R' : Type) where
  first : Store T K R
  second : Store T K' R'

/-- A statement of a session on two tables. -/
inductive TablesOp (K R K' R' : Type) where
  | first (o : RowOp K R)
  | second (o : RowOp K' R')
  /-- `SELECT column WHERE id = k`, on the second table. -/
  | column (k : K')
  | commit
  | rollback

/-- The answer to a statement. -/
abbrev TablesOp.Res {K R K' R' : Type} : TablesOp K R K' R' → Type
  | .first o => o.Res
  | .second o => o.Res
  | .column _ => Option R'
  | .commit => Unit
  | .rollback => Unit

section Lifting

variable {K R K' R' ε ε' α : Type}

/-- A program of a session on the first table; `wrap` is what its exceptions become. -/
def Program.onFirst (wrap : ε → ε') :
    Program (RowOp K R) RowOp.Res ε α → Program (TablesOp K R K' R') TablesOp.Res ε' α
  | .done a => .done a
  | .raise e => .raise (wrap e)
  | .call o next => .call (.first o) fun r => (next r).onFirst wrap

/-- A program of a session on the second table. -/
def Program.onSecond (wrap : ε → ε') :
    Program (RowOp K' R') RowOp.Res ε α → Program (TablesOp K R K' R') TablesOp.Res ε' α
  | .done a => .done a
  | .raise e => .raise (wrap e)
  | .call o next => .call (.second o) fun r => (next r).onSecond wrap

variable {P : TablesOp K R K' R' → Prop} {wrap : ε → ε'}

theorem Program.Every.onFirst {p : Program (RowOp K R) RowOp.Res ε α}
    (h : p.Every fun o => P (.first o)) : (p.onFirst wrap).Every P := by
  induction p with
  | done a => trivial
  | raise e => trivial
  | call o next ih => exact ⟨h.1, fun r => ih r (h.2 r)⟩

theorem Program.Every.onSecond {p : Program (RowOp K' R') RowOp.Res ε α}
    (h : p.Every fun o => P (.second o)) : (p.onSecond wrap).Every P := by
  induction p with
  | done a => trivial
  | raise e => trivial
  | call o next ih => exact ⟨h.1, fun r => ih r (h.2 r)⟩

end Lifting

namespace Tables

variable {T K R K' R' : Type} [DecidableEq T]

/-- The end of the transaction of `t` by `COMMIT`. -/
def commit (w : Tables T K R K' R') (t : T) : Tables T K R K' R' :=
  ⟨w.first.commit t, w.second.commit t⟩

/-- The end of the transaction of `t` by `ROLLBACK`, or of its session. -/
def rollback (w : Tables T K R K' R') (t : T) : Tables T K R K' R' :=
  ⟨w.first.rollback t, w.second.rollback t⟩

/-- The session of `t` has no open transaction. -/
def Clean (t : T) (w : Tables T K R K' R') : Prop := w.first.Clean t ∧ w.second.Clean t

/-- What a session relies on. -/
def Frame (t : T) (w w' : Tables T K R K' R') : Prop :=
  Store.Frame t w.first w'.first ∧ Store.Frame t w.second w'.second

theorem Frame.refl (t : T) (w : Tables T K R K' R') : Frame t w w :=
  ⟨Store.Frame.refl t _, Store.Frame.refl t _⟩

theorem Frame.trans {t : T} {w₁ w₂ w₃ : Tables T K R K' R'} (h : Frame t w₁ w₂)
    (h' : Frame t w₂ w₃) : Frame t w₁ w₃ := ⟨h.1.trans h'.1, h.2.trans h'.2⟩

theorem Clean.frame {t : T} {w w' : Tables T K R K' R'} (h : Clean t w) (hf : Frame t w w') :
    Clean t w' := ⟨h.1.frame hf.1, h.2.frame hf.2⟩

theorem clean_rollback {t : T} {w : Tables T K R K' R'} : Clean t (w.rollback t) :=
  ⟨fun _ => Store.held_rollback, fun _ => Store.held_rollback⟩

theorem clean_commit {t : T} {w : Tables T K R K' R'} : Clean t (w.commit t) :=
  ⟨fun _ => Store.held_commit, fun _ => Store.held_commit⟩

variable [DecidableEq K] [DecidableEq K']

/-- The effect and the answer of a statement of `t`. -/
def exec (t : T) (w : Tables T K R K' R') :
    (o : TablesOp K R K' R') → Option (Tables T K R K' R' × o.Res)
  | .first o => (Store.exec t w.first o).map fun (s, a) => (⟨s, w.second⟩, a)
  | .second o => (Store.exec t w.second o).map fun (s, a) => (⟨w.first, s⟩, a)
  | .column k => some (w, w.second.visible t k)
  | .commit => some (w.commit t, ())
  | .rollback => some (w.rollback t, ())

variable {w w' : Tables T K R K' R'} {t t' : T}

theorem exec_first {o : RowOp K R} {a : o.Res} (h : w.exec t (.first o) = some (w', a)) :
    ∃ s, Store.exec t w.first o = some (s, a) ∧ w' = ⟨s, w.second⟩ := by
  obtain ⟨⟨s, a'⟩, hexec, heq⟩ := Option.map_eq_some_iff.mp h
  obtain ⟨rfl, rfl⟩ := Prod.mk.inj heq
  exact ⟨s, hexec, rfl⟩

theorem exec_second {o : RowOp K' R'} {a : o.Res} (h : w.exec t (.second o) = some (w', a)) :
    ∃ s, Store.exec t w.second o = some (s, a) ∧ w' = ⟨w.first, s⟩ := by
  obtain ⟨⟨s, a'⟩, hexec, heq⟩ := Option.map_eq_some_iff.mp h
  obtain ⟨rfl, rfl⟩ := Prod.mk.inj heq
  exact ⟨s, hexec, rfl⟩

/-- Every statement keeps what the other sessions rely on. -/
theorem exec_frame {o : TablesOp K R K' R'} {a : o.Res} (h : w.exec t o = some (w', a))
    (hne : t' ≠ t) : Frame t' w w' := by
  cases o with
  | first o =>
    obtain ⟨s, hexec, rfl⟩ := exec_first h
    exact ⟨Store.exec_frame hexec hne, Store.Frame.refl t' _⟩
  | second o =>
    obtain ⟨s, hexec, rfl⟩ := exec_second h
    exact ⟨Store.Frame.refl t' _, Store.exec_frame hexec hne⟩
  | column k =>
    obtain ⟨rfl, -⟩ := Prod.mk.inj (Option.some.inj h)
    exact Frame.refl t' w
  | commit =>
    obtain ⟨rfl, -⟩ := Prod.mk.inj (Option.some.inj h)
    exact ⟨Store.frame_commit hne, Store.frame_commit hne⟩
  | rollback =>
    obtain ⟨rfl, -⟩ := Prod.mk.inj (Option.some.inj h)
    exact ⟨Store.frame_rollback hne, Store.frame_rollback hne⟩

/-- Whether a statement ends the transaction on one of the tables by a commit. -/
def IsCommit : TablesOp K R K' R' → Prop
  | .first o => o = .commit
  | .second o => o = .commit
  | .commit => True
  | _ => False

/-- Before the commit the others see nothing of a transaction. -/
theorem committed_exec {o : TablesOp K R K' R'} {a : o.Res} (ho : ¬ IsCommit o)
    (h : w.exec t o = some (w', a)) :
    w'.first.committed = w.first.committed ∧ w'.second.committed = w.second.committed := by
  cases o with
  | first o =>
    obtain ⟨s, hexec, rfl⟩ := exec_first h
    exact ⟨Store.committed_exec ho hexec, rfl⟩
  | second o =>
    obtain ⟨s, hexec, rfl⟩ := exec_second h
    exact ⟨rfl, Store.committed_exec ho hexec⟩
  | column k =>
    obtain ⟨rfl, -⟩ := Prod.mk.inj (Option.some.inj h)
    exact ⟨rfl, rfl⟩
  | commit => exact absurd trivial ho
  | rollback =>
    obtain ⟨rfl, -⟩ := Prod.mk.inj (Option.some.inj h)
    exact ⟨rfl, rfl⟩

/-- The system whose jobs run on two tables, each in a session of its own. -/
def system {J ε : Type} (code : J → Program (TablesOp K R K' R') TablesOp.Res ε Unit) :
    System T J (Tables T K R K' R') (TablesOp K R K' R') TablesOp.Res ε where
  code := code
  admits _ _ := true
  exec := Tables.exec
  reset t w := w.rollback t

end Tables

end RelyLoop.Concurrency
