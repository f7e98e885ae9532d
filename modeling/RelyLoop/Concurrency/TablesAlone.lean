import RelyLoop.Concurrency.TwoTables

/-!
# A session on two tables that nobody disturbs

While no other transaction holds a lock, every statement of a session is executed at
once. `Returns` is the total correctness of a program in that case, stated on the
rows of the second table that the session sees.
-/

namespace RelyLoop.Concurrency

namespace Store

variable {T K R : Type} [DecidableEq T]

/-- No other transaction holds a lock. -/
def Free (t : T) (s : Store T K R) : Prop := ∀ k, s.lockedByOther t k = false

variable {s s' : Store T K R} {t : T} {k : K}

theorem Free.of_unlocked (h : ∀ k, s.lock k = none) : Free t s :=
  fun k => not_lockedByOther_of_free (h k)

theorem Free.congr (h : Free t s) (hlock : s'.lock = s.lock) : Free t s' := by
  intro k
  have hfree := h k
  rwa [lockedByOther, ← hlock] at hfree

theorem Free.unlock (h : Free t s) : Free t ({ s with lock := s.unlock t } : Store T K R) := by
  intro k
  cases hlock : s.lock k with
  | none => simp [lockedByOther, Store.unlock, hlock]
  | some l =>
    have howner : l.owner = t := by simpa [lockedByOther, hlock] using h k
    simp [lockedByOther, Store.unlock, hlock, Option.filter, howner]

theorem visible_commit : (s.commit t).visible t k = s.visible t k :=
  visible_of_not_held held_commit

theorem visible_rollback_of_clean (h : Clean t s) : (s.rollback t).visible t k = s.visible t k :=
  (visible_of_not_held held_rollback).trans (h.visible k).symm

variable [DecidableEq K]

theorem Free.load (h : Free t s) (k : K) : Free t (s.load t k) := by
  refine h.congr ?_
  unfold Store.load
  split <;> rfl

theorem Free.foldl_load (h : Free t s) (found : List (K × R)) :
    Free t (found.foldl (fun s' x => s'.load t x.1) s) := by
  induction found generalizing s with
  | nil => exact h
  | cons x found ih => exact ih (h.load x.1)

theorem Free.acquire (h : Free t s) (k : K) : Free t (s.acquire t k) := by
  intro k'
  unfold Store.acquire
  split
  · exact h k'
  · by_cases hk : k' = k
    · subst hk
      simp [lockedByOther]
    · simpa [lockedByOther, hk] using h k'

theorem Free.write (h : Free t s) (k : K) (r : R) : Free t (s.write t k r) := by
  intro k'
  by_cases hk : k' = k
  · subst hk
    simp [lockedByOther, Store.write]
  · simpa [lockedByOther, Store.write, hk] using h k'

/-- An insertion may still wait, or fail, on its key. -/
def IsInsert : RowOp K R → Prop
  | .insert _ _ => True
  | _ => False

/-- All other statements are executed at once, and leave the locks free. -/
theorem Free.exec (h : Free t s) {o : RowOp K R} (ho : ¬IsInsert o) :
    ∃ s' a, Store.exec t s o = some (s', a) ∧ Free t s' := by
  cases o with
  | select k => exact ⟨_, _, rfl, h.load k⟩
  | selectWhere p before => exact ⟨_, _, rfl, h.foldl_load _⟩
  | selectForUpdate k =>
    cases hvis : s.visible t k with
    | none => exact ⟨s, none, by simp [Store.exec, hvis], h⟩
    | some r =>
      exact ⟨(s.acquire t k).load t k, s.object t k, by simp [Store.exec, hvis, h k],
        (h.acquire k).load k⟩
  | update k f =>
    cases hvis : s.visible t k with
    | none => exact ⟨s, (), by simp [Store.exec, hvis], h⟩
    | some r =>
      exact ⟨(s.write t k (f r)).remember t k ((s.identity t k).map f), (),
        by simp [Store.exec, hvis, h k], (h.write k (f r)).congr rfl⟩
  | updateWhere k p f =>
    cases hmatch : (s.visible t k).filter p with
    | none => exact ⟨s, false, by simp [Store.exec, hmatch], h⟩
    | some r =>
      exact ⟨(s.write t k (f r)).synchronize t k p f, true, by simp [Store.exec, hmatch, h k],
        (h.write k (f r)).congr rfl⟩
  | insert k r => exact absurd trivial ho
  | release k => exact ⟨_, (), rfl, h.congr rfl⟩
  | commit => exact ⟨_, (), rfl, h.unlock⟩
  | rollback => exact ⟨_, (), rfl, h.unlock.congr rfl⟩

/-- The rows after a conditional `UPDATE`, and whether the row has matched. -/
theorem Free.updateWhere (h : Free t s) (k : K) (p : R → Bool) (f : R → R) :
    ∃ s', Store.exec t s (.updateWhere k p f) = some (s', (s.visible t k).any p) ∧ Free t s' ∧
      s'.visible t = Function.update (s.visible t) k
        ((s.visible t k).map fun r => if p r then f r else r) := by
  cases hvis : s.visible t k with
  | none =>
    refine ⟨s, by simp [Store.exec, hvis], h, ?_⟩
    rw [Option.map_none, ← hvis, Function.update_eq_self]
  | some r =>
    by_cases hp : p r = true
    · refine ⟨(s.write t k (f r)).synchronize t k p f, ?_, (h.write k (f r)).congr rfl, ?_⟩
      · simp [Store.exec, hvis, Option.filter, hp, h k]
      · rw [synchronize, visible_remember, visible_write]
        simp [hp]
    · refine ⟨s, by simp [Store.exec, hvis, Option.filter, hp], h, ?_⟩
      rw [Option.map_some, if_neg hp, ← hvis, Function.update_eq_self]

end Store

namespace Tables

variable {T K R K' R' ε α β : Type} [DecidableEq T]

/-- No other transaction holds a lock on either table. -/
def Free (t : T) (w : Tables T K R K' R') : Prop := w.first.Free t ∧ w.second.Free t

variable [DecidableEq K] [DecidableEq K']

/-- The undisturbed run of the program returns, in `Q`. -/
def Returns (t : T) (Q : α → Tables T K R K' R' → Prop)
    (p : Program (TablesOp K R K' R') TablesOp.Res ε α) (w : Tables T K R K' R') : Prop :=
  ∃ w' a, p.alone (Tables.exec t) w = some (w', .ok a) ∧ w'.Free t ∧ Q a w'

namespace Returns

variable {t : T} {w w' : Tables T K R K' R'} {Q : α → Tables T K R K' R' → Prop}
  {Q' : β → Tables T K R K' R' → Prop} {p : Program (TablesOp K R K' R') TablesOp.Res ε α}
  {f : α → Program (TablesOp K R K' R') TablesOp.Res ε β}

theorem done {a : α} (hfree : w.Free t) (h : Q a w) :
    Returns t Q (.done a : Program (TablesOp K R K' R') TablesOp.Res ε α) w :=
  ⟨w, a, rfl, hfree, h⟩

/-- Sequencing: the second program returns wherever the first one does. -/
theorem seq (h : Returns t Q p w)
    (hf : ∀ a w', w'.Free t → Q a w' → Returns t Q' (f a) w') : Returns t Q' (p.bind f) w := by
  obtain ⟨w₁, a, hrun, hfree, hpost⟩ := h
  obtain ⟨w₂, b, hrun', hfree', hpost'⟩ := hf a w₁ hfree hpost
  exact ⟨w₂, b, (Program.alone_bind_ok f hrun).trans hrun', hfree', hpost'⟩

theorem post {Q' : α → Tables T K R K' R' → Prop} (h : Returns t Q p w)
    (hQ : ∀ a w', Q a w' → Q' a w') : Returns t Q' p w := by
  obtain ⟨w', a, hrun, hfree, hpost⟩ := h
  exact ⟨w', a, hrun, hfree, hQ a w' hpost⟩

/-- One operation. -/
theorem perform {o : TablesOp K R K' R'} {Q : o.Res → Tables T K R K' R' → Prop} {a : o.Res}
    (hexec : w.exec t o = some (w', a)) (hfree : w'.Free t) (h : Q a w') :
    Returns t Q (Program.perform o : Program _ _ ε _) w :=
  ⟨w', a, by simp [Program.perform, Program.alone, hexec], hfree, h⟩

/-- A statement on the first table leaves the second one alone. -/
theorem first {o : RowOp K R} (ho : ¬Store.IsInsert o) (hfree : w.Free t) :
    Returns t (fun _ w' => w'.second = w.second)
      (Program.perform (TablesOp.first o) : Program _ _ ε _) w := by
  obtain ⟨s, a, hexec, hs⟩ := hfree.1.exec ho
  have hrun : w.exec t (.first o) = some (⟨s, w.second⟩, a) := by simp [exec, hexec]
  exact perform hrun ⟨hs, hfree.2⟩ rfl

/-- A query of columns changes nothing. -/
theorem column (k : K') (hfree : w.Free t) :
    Returns t (fun _ w' => w' = w)
      (Program.perform (TablesOp.column k : TablesOp K R K' R') : Program _ _ ε _) w :=
  perform rfl hfree rfl

/-- A read of a row of the second table. -/
theorem select (k : K') (hfree : w.Free t) :
    Returns t (fun a w' => w'.second.visible t = w.second.visible t ∧
        a.isSome = (w.second.visible t k).isSome)
      (Program.perform (TablesOp.second (.select k) : TablesOp K R K' R') : Program _ _ ε _) w := by
  have hrun : w.exec t (.second (.select k)) =
      some (⟨w.first, w.second.load t k⟩, w.second.object t k) := rfl
  refine perform hrun ⟨hfree.1, hfree.2.load k⟩ ⟨by simp, ?_⟩
  simp [Store.object]

/-- A conditional `UPDATE` of the second table. -/
theorem updateWhere (k : K') (p : R' → Bool) (f : R' → R') (hfree : w.Free t) :
    Returns t (fun a w' => a = (w.second.visible t k).any p ∧
        w'.second.visible t = Function.update (w.second.visible t) k
          ((w.second.visible t k).map fun r => if p r then f r else r))
      (Program.perform (TablesOp.second (.updateWhere k p f) : TablesOp K R K' R') :
        Program _ _ ε _) w := by
  obtain ⟨s, hexec, hs, hrows⟩ := Store.Free.updateWhere hfree.2 k p f
  have hrun : w.exec t (.second (.updateWhere k p f)) =
      some (⟨w.first, s⟩, (w.second.visible t k).any p) := by simp [exec, hexec]
  exact perform hrun ⟨hfree.1, hs⟩ ⟨rfl, hrows⟩

/-- A commit shows the rows to everybody. -/
theorem commit (hfree : w.Free t) :
    Returns t (fun _ w' => w'.second.visible t = w.second.visible t ∧ w'.second.Clean t)
      (Program.perform (TablesOp.commit : TablesOp K R K' R') : Program _ _ ε _) w :=
  have hrun : w.exec t .commit = some (w.commit t, ()) := rfl
  perform hrun ⟨hfree.1.unlock, hfree.2.unlock⟩
    ⟨funext fun _ => Store.visible_commit, fun _ => Store.held_commit⟩

/-- The end of a session that has committed. -/
theorem rollback (hclean : w.second.Clean t) (hfree : w.Free t) :
    Returns t (fun _ w' => w'.second.visible t = w.second.visible t ∧ w'.second.Clean t)
      (Program.perform (TablesOp.rollback : TablesOp K R K' R') : Program _ _ ε _) w :=
  have hrun : w.exec t .rollback = some (w.rollback t, ()) := rfl
  perform hrun ⟨hfree.1.unlock.congr rfl, hfree.2.unlock.congr rfl⟩
    ⟨funext fun _ => Store.visible_rollback_of_clean hclean, fun _ => Store.held_rollback⟩

end Returns

end Tables

end RelyLoop.Concurrency
