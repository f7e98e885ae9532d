import RelyLoop.Concurrency.RowContract
import RelyLoop.Concurrency.RowVersions

/-!
# A table beside another component

Jobs that use a table and something outside its database, such as a queue: the
statements of a session and the operations on the component are steps of one
run, but no transaction covers both. A `Discipline` says how the rows may
change, and how the table and the component hang together; it is a contract, with
one rule for statements and one for the other operations.
-/

namespace RelyLoop.Concurrency

/-- A table and the state of the component beside it. -/
structure Beside (T K R X : Type) where
  table : Store T K R
  outside : X

/-- A statement, or an operation on the component. -/
inductive BesideOp (K R O : Type) where
  | row (o : RowOp K R)
  | outside (o : O)

/-- The answer to an operation. -/
abbrev BesideOp.Res {K R O : Type} (ResO : O → Type) : BesideOp K R O → Type
  | .row o => o.Res
  | .outside o => ResO o

/-- The block `async with factory() as db`: the session is closed in the end. -/
def inSession {K R O ε α : Type} {ResO : O → Type}
    (body : Program (BesideOp K R O) (BesideOp.Res ResO) ε α) :
    Program (BesideOp K R O) (BesideOp.Res ResO) ε α :=
  tryCatch (do
      let a ← body
      Program.perform (BesideOp.row .rollback)
      return a)
    fun e => do
      Program.perform (BesideOp.row .rollback)
      throw e

/-- A session that has just begun. -/
def Fresh {T K R X : Type} [DecidableEq T] (t : T) (w : Beside T K R X) : Prop :=
  w.table.Clean t ∧ ∀ k, w.table.identity t k = none

section Systems

variable {T J K R X O ε : Type} {ResO : O → Type} [DecidableEq T] [DecidableEq K]

/-- Jobs on a table and a component: `execOutside` is the effect of an operation
on the component, which also says what jobs may start. -/
def besideSystem (code : J → Program (BesideOp K R O) (BesideOp.Res ResO) ε Unit)
    (admits : X → J → Bool) (execOutside : X → (o : O) → Option (X × ResO o)) :
    System T J (Beside T K R X) (BesideOp K R O) (BesideOp.Res ResO) ε where
  code := code
  admits w j := admits w.outside j
  exec t w
    | .row o => (Store.exec t w.table o).map fun (s, a) => (⟨s, w.outside⟩, a)
    | .outside o => (execOutside w.outside o).map fun (x, a) => (⟨w.table, x⟩, a)
  reset t w := ⟨w.table.rollback t, w.outside⟩

end Systems

/-- How the rows of a table may change, by which jobs, and how the table and the
component hang together. -/
structure Discipline (T J K R X O : Type) [DecidableEq T] where
  /-- What a committed row may turn into. -/
  Rel : R → R → Prop
  /-- What every version of a row satisfies. -/
  Good : R → Prop
  /-- The rows that a job may change. -/
  touches : J → K → Prop
  /-- What holds of the table and the component together. -/
  Link : Store T K R → X → Prop
  /-- How the component may change. -/
  Grows : X → X → Prop
  /-- The condition on the operations of the runs considered. -/
  cond : T → Beside T K R X → BesideOp K R O → Prop
  rel_refl : ∀ r, Rel r r
  rel_trans : ∀ r₁ r₂ r₃, Rel r₁ r₂ → Rel r₂ r₃ → Rel r₁ r₃
  grows_refl : ∀ x, Grows x x
  grows_trans : ∀ x₁ x₂ x₃, Grows x₁ x₂ → Grows x₂ x₃ → Grows x₁ x₃
  link_rollback : ∀ t s x, Link s x → Link (s.rollback t) x

namespace Discipline

variable {T J K R X O ε α : Type} {ResO : O → Type} [DecidableEq T] [DecidableEq K]
variable (D : Discipline T J K R X O)

/-- Committed rows are kept, and change by the relation of the discipline. -/
def Evolves (s s' : Store T K R) : Prop :=
  ∀ k r, s.committed k = some r → ∃ r', s'.committed k = some r' ∧ D.Rel r r'

omit [DecidableEq K] in
variable {D} in
theorem evolves_refl {s s' : Store T K R} (h : s'.committed = s.committed) : D.Evolves s s' :=
  fun k r hr => ⟨r, by rw [h, hr], D.rel_refl r⟩

/-- The uncommitted versions of a transaction belong to new rows, or to rows
that its job may change. -/
def Owns (t : T) (j : J) (s : Store T K R) : Prop :=
  ∀ k r r₀, s.held t k = some (some r) → s.committed k = some r₀ → D.touches j k

/-- The contract of a discipline. -/
def contract : Contract T J (Beside T K R X) (BesideOp K R O) where
  inv w := w.table.Disciplined D.Rel D.Good ∧ D.Link w.table w.outside
  change j w w' := ∀ k r, w.table.committed k = some r →
    ∃ r', w'.table.committed k = some r' ∧ D.Rel r r' ∧ (r' = r ∨ D.touches j k)
  rely t w w' := Store.Frame t w.table w'.table ∧ D.Evolves w.table w'.table ∧
    D.Grows w.outside w'.outside
  cond := D.cond
  rely_refl t w := ⟨Store.Frame.refl t _, evolves_refl rfl, D.grows_refl _⟩
  rely_trans t w₁ w₂ w₃ h h' := by
    refine ⟨h.1.trans h'.1, fun k r hr => ?_, D.grows_trans _ _ _ h.2.2 h'.2.2⟩
    obtain ⟨r₂, hr₂, hrel₂⟩ := h.2.1 k r hr
    obtain ⟨r₃, hr₃, hrel₃⟩ := h'.2.1 k r₂ hr₂
    exact ⟨r₃, hr₃, D.rel_trans _ _ _ hrel₂ hrel₃⟩

variable {code : J → Program (BesideOp K R O) (BesideOp.Res ResO) ε Unit}
variable {admits : X → J → Bool} {execOutside : X → (o : O) → Option (X × ResO o)}
variable {t : T} {j : J} {Q : α → Beside T K R X → Prop} {E : ε → Beside T K R X → Prop}
variable {D}

/-- What a statement changes in the committed rows: a commit publishes versions
of its own transaction, and nothing else changes them. -/
theorem change_of_exec {w : Beside T K R X} {s' : Store T K R} {o : RowOp K R} {a : o.Res}
    (howns : o = .commit → D.Owns t j w.table)
    (hchange : Store.Changes D.Rel w.table s') (hexec : Store.exec t w.table o = some (s', a)) :
    ∀ k r, w.table.committed k = some r →
      ∃ r', s'.committed k = some r' ∧ D.Rel r r' ∧ (r' = r ∨ D.touches j k) := by
  intro k r hr
  obtain ⟨r', hr', hsame | hrel⟩ := hchange k r hr
  · exact ⟨r', hr', hsame ▸ D.rel_refl r, Or.inl hsame⟩
  refine ⟨r', hr', hrel, ?_⟩
  by_cases hcommit : o = .commit
  · subst hcommit
    obtain ⟨rfl, -⟩ := Prod.mk.inj (Option.some.inj hexec)
    rw [Store.committed_commit, Store.visible] at hr'
    split at hr'
    · rename_i r₁ hheld
      exact Or.inr (howns rfl k r₁ r hheld hr)
    · exact Or.inl (Option.some.inj (hr'.symm.trans hr))
  · have hkeep := Store.committed_exec hcommit hexec
    rw [hkeep] at hr'
    exact Or.inl (Option.some.inj (hr'.symm.trans hr))

/-- The rule of a statement. -/
theorem safe_row (P : Beside T K R X → Prop) {o : RowOp K R}
    {next : o.Res → Program (BesideOp K R O) (BesideOp.Res ResO) ε α} {w : Beside T K R X}
    (hw : P w) (hstable : ∀ w w', D.contract.rely t w w' → P w → P w')
    (hallowed : ∀ w, P w → D.contract.inv w → D.cond t w (.row o) →
      w.table.Allowed D.Rel D.Good t o)
    (hlink : ∀ w s' a, P w → D.contract.inv w → D.cond t w (.row o) →
      Store.exec t w.table o = some (s', a) → D.Link s' w.outside)
    (howns : o = .commit → ∀ w, P w → D.Owns t j w.table)
    (hnext : ∀ w s' a, P w → D.contract.inv w → D.cond t w (.row o) →
      Store.exec t w.table o = some (s', a) →
      Safe (besideSystem code admits execOutside) D.contract t j Q E (next a) ⟨s', w.outside⟩) :
    Safe (besideSystem code admits execOutside) D.contract t j Q E (.call (.row o) next) w := by
  intro w₁ hrely hinv hcond w₂ a hstep
  obtain ⟨⟨s', a'⟩, hexec, heq⟩ := Option.map_eq_some_iff.mp hstep
  obtain ⟨rfl, rfl⟩ := Prod.mk.inj heq
  have hw₁ := hstable w w₁ hrely hw
  obtain ⟨hinv₂, hchange⟩ := hinv.1.exec (hallowed w₁ hw₁ hinv hcond) hexec
  have hmine := change_of_exec (j := j) (fun h => howns h w₁ hw₁) hchange hexec
  refine ⟨⟨⟨hinv₂, hlink w₁ s' _ hw₁ hinv hcond hexec⟩, hmine, fun t' hne => ?_⟩,
    hnext w₁ s' _ hw₁ hinv hcond hexec⟩
  refine ⟨Store.exec_frame hexec hne, fun k r hr => ?_, D.grows_refl _⟩
  obtain ⟨r', hr', hrel, -⟩ := hmine k r hr
  exact ⟨r', hr', hrel⟩

/-- The rule of an operation on the component. -/
theorem safe_outside (P : Beside T K R X → Prop) {o : O}
    {next : ResO o → Program (BesideOp K R O) (BesideOp.Res ResO) ε α} {w : Beside T K R X}
    (hw : P w) (hstable : ∀ w w', D.contract.rely t w w' → P w → P w')
    (hlink : ∀ w x' a, P w → D.contract.inv w → D.cond t w (.outside o) →
      execOutside w.outside o = some (x', a) → D.Link w.table x' ∧ D.Grows w.outside x')
    (hnext : ∀ w x' a, P w → D.contract.inv w → D.cond t w (.outside o) →
      execOutside w.outside o = some (x', a) →
      Safe (besideSystem code admits execOutside) D.contract t j Q E (next a) ⟨w.table, x'⟩) :
    Safe (besideSystem code admits execOutside) D.contract t j Q E (.call (.outside o) next) w := by
  intro w₁ hrely hinv hcond w₂ a hstep
  obtain ⟨⟨x', a'⟩, hexec, heq⟩ := Option.map_eq_some_iff.mp hstep
  obtain ⟨rfl, rfl⟩ := Prod.mk.inj heq
  have hw₁ := hstable w w₁ hrely hw
  obtain ⟨hlink₂, hgrows⟩ := hlink w₁ x' _ hw₁ hinv hcond hexec
  refine ⟨⟨⟨hinv.1, hlink₂⟩, fun k r hr => ⟨r, hr, D.rel_refl r, Or.inl rfl⟩, fun t' _ => ?_⟩,
    hnext w₁ x' _ hw₁ hinv hcond hexec⟩
  exact ⟨Store.Frame.refl t' _, evolves_refl rfl, hgrows⟩

omit [DecidableEq K] in
theorem fresh_rely {w w' : Beside T K R X} (h : Fresh t w) (hrely : D.contract.rely t w w') :
    Fresh t w' :=
  ⟨h.1.frame hrely.1, fun k => by rw [hrely.1.identity]; exact h.2 k⟩

/-- The end of a session. -/
theorem safe_closeSession {P : Beside T K R X → Prop} {w : Beside T K R X} (hw : P w)
    (hstable : ∀ w w', D.contract.rely t w w' → P w → P w')
    (hclose : ∀ w, P w → P ⟨w.table.rollback t, w.outside⟩) :
    Safe (besideSystem code admits execOutside) D.contract t j (fun _ w => Fresh t w ∧ P w) E
      (Program.perform (BesideOp.row .rollback)) w := by
  refine safe_row P hw hstable (fun _ _ _ _ => trivial) (fun w s' a _ hinv _ hexec => ?_)
    (fun ho => by cases ho) fun w s' a hP _ _ hexec => ?_
  · obtain ⟨rfl, -⟩ := Prod.mk.inj (Option.some.inj hexec)
    exact D.link_rollback t _ _ hinv.2
  · obtain ⟨rfl, -⟩ := Prod.mk.inj (Option.some.inj hexec)
    exact ⟨⟨fun _ => Store.held_rollback, fun _ => Store.identity_rollback⟩, hclose w hP⟩

/-- A rollback gives the task a fresh session, whatever it was in. -/
theorem safe_rollback {w : Beside T K R X} :
    Safe (besideSystem code admits execOutside) D.contract t j (fun _ => Fresh t) E
      (Program.perform (BesideOp.row .rollback)) w :=
  (safe_closeSession (P := fun _ => True) trivial (fun _ _ _ h => h) fun _ h => h).post
    fun _ _ h => h.1

/-- What holds at the end of a session, and does not speak about it, holds when
it is closed. -/
theorem safe_inSession {body : Program (BesideOp K R O) (BesideOp.Res ResO) ε α}
    {P : α → Beside T K R X → Prop} {w : Beside T K R X}
    (hbody : Safe (besideSystem code admits execOutside) D.contract t j P (fun _ _ => True) body w)
    (hstable : ∀ a w w', D.contract.rely t w w' → P a w → P a w')
    (hclose : ∀ a w, P a w → P a ⟨w.table.rollback t, w.outside⟩) :
    Safe (besideSystem code admits execOutside) D.contract t j
      (fun a w => Fresh t w ∧ P a w) (fun _ => Fresh t) (inSession body) w := by
  refine Safe.handle (Safe.bind (hbody.mono (fun a w hP => ?_) fun e w _ => ?_))
  · exact Safe.seq (safe_closeSession hP (hstable a) (hclose a)) fun _ _ h => h
  · exact Safe.seq safe_rollback fun _ _ h => h

/-- Jobs that are safe from a fresh session on meet the contract. -/
theorem contract_met
    (hcode : ∀ t j (w : Beside T K R X), D.contract.inv w → admits w.outside j = true →
      Fresh t w →
      Safe (besideSystem code admits execOutside) D.contract t j (fun _ _ => True)
        (fun _ _ => True) (code j) w) :
    D.contract.Met (besideSystem code admits execOutside) where
  code t j w hinv hadm := by
    have hinv' : D.contract.inv (⟨w.table.rollback t, w.outside⟩ : Beside T K R X) :=
      ⟨hinv.1.rollback, D.link_rollback t _ _ hinv.2⟩
    have hfresh : Fresh t (⟨w.table.rollback t, w.outside⟩ : Beside T K R X) :=
      ⟨fun _ => Store.held_rollback, fun _ => Store.identity_rollback⟩
    exact hcode t j _ hinv' hadm hfresh
  reset t j w hinv := by
    refine ⟨⟨hinv.1.rollback, D.link_rollback t _ _ hinv.2⟩,
      fun k r hr => ⟨r, hr, D.rel_refl r, Or.inl rfl⟩, fun t' hne => ?_⟩
    exact ⟨Store.frame_rollback hne, evolves_refl rfl, D.grows_refl _⟩

end Discipline

end RelyLoop.Concurrency

/-!
## Tables with deletions

A `DELETE` locks and writes its row as an `UPDATE` does, so a deleted row is kept as a version
with no row in it. A session on a table of rows is a session on a table with deletions, to which
a deleted row is not there.
-/

namespace RelyLoop.Concurrency

namespace Program

variable {Op Op' : Type} {Res : Op → Type} {Res' : Op' → Type} {ε α β : Type}

/-- Carrying out every operation by one of another kind. -/
def mapOps (g : Op → Op') (answer : (o : Op) → Res' (g o) → Res o) :
    Program Op Res ε α → Program Op' Res' ε α
  | done a => done a
  | raise e => raise e
  | call o next => call (g o) fun r => (next (answer o r)).mapOps g answer

variable {g : Op → Op'} {answer : (o : Op) → Res' (g o) → Res o}

theorem mapOps_bind (p : Program Op Res ε α) (f : α → Program Op Res ε β) :
    (p.bind f).mapOps g answer = (p.mapOps g answer).bind fun a => (f a).mapOps g answer := by
  induction p with
  | done a => rfl
  | raise e => rfl
  | call o next ih => simp only [call_bind, mapOps, ih]

theorem mapOps_handle (p : Program Op Res ε α) (handler : ε → Program Op Res ε α) :
    (p.handle handler).mapOps g answer =
      (p.mapOps g answer).handle fun e => (handler e).mapOps g answer := by
  induction p with
  | done a => rfl
  | raise e => rfl
  | call o next ih => simp only [call_handle, mapOps, ih]

theorem mapOps_each (f : α → Program Op Res ε Unit) (as : List α) :
    (each f as).mapOps g answer = each (fun a => (f a).mapOps g answer) as := by
  induction as with
  | nil => rfl
  | cons a as ih => simp only [each, mapOps_bind, ih]

end Program

namespace RowOp

variable {K R : Type} [DecidableEq K]

/-- A statement on rows, where a row may be deleted. -/
def live : RowOp K R → RowOp K (Option R)
  | select k => selectWhere (fun k' r => decide (k' = k) && r.isSome) fun _ _ => true
  | selectWhere p before =>
    selectWhere (fun k r => r.any (p k)) fun x y =>
      x.2.all fun r => y.2.all fun r' => before (x.1, r) (y.1, r')
  | selectForUpdate k => selectForUpdate k
  | update k f => update k (Option.map f)
  | updateWhere k p f => updateWhere k (fun r => r.any p) (Option.map f)
  | insert k r => insert k (some r)
  | release k => release k
  | commit => commit
  | rollback => rollback

/-- The answer to such a statement. -/
def liveAnswer : (o : RowOp K R) → o.live.Res → o.Res
  | select _, found => found.head?.bind Prod.snd
  | selectWhere _ _, found => found.filterMap fun x => x.2.map fun r => (x.1, r)
  | selectForUpdate _, found => found.join
  | updateWhere _ _ _, matched => matched
  | update _ _, _ => ()
  | insert _ _, _ => ()
  | release _, _ => ()
  | commit, _ => ()
  | rollback, _ => ()

/-- `DELETE … WHERE id = k`. -/
def delete (k : K) : RowOp K (Option R) := updateWhere k Option.isSome fun _ => none

end RowOp

/-- A session on a table with deletions, beside another component. -/
def onRows {K R O ε α : Type} [DecidableEq K] {ResO : O → Type} (p : Transaction K R ε α) :
    Program (BesideOp K (Option R) O) (BesideOp.Res ResO) ε α :=
  p.mapOps (fun o => .row o.live) RowOp.liveAnswer

/-- The statement `DELETE`. -/
def deleteRow {K R O ε : Type} {ResO : O → Type} (k : K) :
    Program (BesideOp K (Option R) O) (BesideOp.Res ResO) ε Bool :=
  .perform (BesideOp.row (RowOp.delete k))

end RelyLoop.Concurrency
