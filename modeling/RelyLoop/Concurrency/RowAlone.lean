import RelyLoop.Concurrency.RowFrame

/-!
# A session that nobody disturbs

When no other transaction holds a lock, no statement of a session waits. The
session then works on one table, the rows it sees: its loaded objects are these
rows. `Ends` is the total correctness of a program on that table, before the end
of its transaction.
-/

namespace RelyLoop.Concurrency

open Store

variable {T K R ε α β : Type} [DecidableEq T] [DecidableEq K]

/-- All locks are the session's own, its objects are the rows it sees, and the
keys of these rows are in use. -/
structure Solo (t : T) (s : Store T K R) : Prop where
  free : ∀ k, s.lockedByOther t k = false
  synced : ∀ k o, s.identity t k = some o → s.visible t k = some o
  known : ∀ k r, s.visible t k = some r → k ∈ s.keys

/-- The undisturbed run of the program ends: in `Q` when it returns and in `E`
when it raises, with the committed rows and the keys as they were. -/
def Ends (t : T) (Q : α → Store T K R → Prop) (E : ε → Store T K R → Prop)
    (p : Transaction K R ε α) (s : Store T K R) : Prop :=
  ∃ s' result, p.alone (Store.exec t) s = some (s', result) ∧ Solo t s' ∧
    s'.committed = s.committed ∧ s'.keys = s.keys ∧
    match result with
    | .ok a => Q a s'
    | .error e => E e s'

variable {t : T} {s s' : Store T K R} {k : K} {r : R} {Q : α → Store T K R → Prop}
  {E : ε → Store T K R → Prop} {p : Transaction K R ε α}

omit [DecidableEq K] in
/-- A fresh session on a table without locks is on its own. -/
theorem Solo.of_unlocked (hlock : ∀ k, s.lock k = none) (hid : ∀ k, s.identity t k = none)
    (hkeys : ∀ k r, s.committed k = some r → k ∈ s.keys) : Solo t s where
  free k := by simp [lockedByOther, hlock k]
  synced k o h := by simp [hid k] at h
  known k r h := by
    have hheld : s.held t k = none := not_held_of_free (hlock k)
    rw [visible_of_not_held hheld] at h
    exact hkeys k r h

omit [DecidableEq K] in
/-- The object of a visible row is the row. -/
theorem Solo.object (h : Solo t s) (k : K) : s.object t k = s.visible t k := by
  unfold Store.object
  cases hvis : s.visible t k with
  | none => rfl
  | some r =>
    cases hid : s.identity t k with
    | none => rfl
    | some o =>
      have hsame := h.synced k o hid
      rw [hvis, Option.some.injEq] at hsame
      simp [hsame]

/-- Loading a row keeps a session on its own. -/
theorem Solo.load (h : Solo t s) (k : K) : Solo t (s.load t k) := by
  have hlock : (s.load t k).lock = s.lock := by
    unfold Store.load
    split <;> rfl
  have hkeys : (s.load t k).keys = s.keys := by
    unfold Store.load
    split <;> rfl
  refine ⟨fun k' => ?_, fun k' o hid => ?_, fun k' r hvis => ?_⟩
  · have hfree := h.free k'
    rwa [lockedByOther, ← hlock] at hfree
  · rw [visible_load]
    unfold Store.load at hid
    rw [h.object] at hid
    split at hid
    · rename_i r hvis
      by_cases hk : k' = k
      · subst hk
        rw [identity_remember] at hid
        rw [hvis, hid]
      · rw [remember] at hid
        simp only [Function.update_self, Function.update_of_ne hk] at hid
        exact h.synced k' o hid
    · exact h.synced k' o hid
  · rw [hkeys]
    exact h.known k' r (by rwa [visible_load] at hvis)

/-- Taking a lock keeps a session on its own. -/
theorem Solo.acquire (h : Solo t s) (k : K) : Solo t (s.acquire t k) := by
  refine ⟨fun k' => ?_, fun k' o hid => ?_, fun k' r hvis => ?_⟩
  · unfold Store.acquire
    split
    · exact h.free k'
    · by_cases hk : k' = k
      · subst hk
        simp [lockedByOther]
      · simpa [lockedByOther, hk] using h.free k'
  · rw [visible_acquire]
    exact h.synced k' o (by rwa [identity_acquire] at hid)
  · have hkeys : (s.acquire t k).keys = s.keys := by
      unfold Store.acquire
      split <;> rfl
    rw [hkeys]
    exact h.known k' r (by rwa [visible_acquire] at hvis)

/-! ## Rules -/

namespace Ends

theorem done {a : α} (hs : Solo t s) (h : Q a s) :
    Ends t Q E (.done a : Transaction K R ε α) s := ⟨s, .ok a, rfl, hs, rfl, rfl, h⟩

theorem raise {e : ε} (hs : Solo t s) (h : E e s) :
    Ends t Q E (.raise e : Transaction K R ε α) s := ⟨s, .error e, rfl, hs, rfl, rfl, h⟩

/-- Consequence: the postconditions may be weakened, on the stores that the run
can reach. -/
theorem mono {Q' : α → Store T K R → Prop} {E' : ε → Store T K R → Prop} (h : Ends t Q E p s)
    (hQ : ∀ a s', Solo t s' → Q a s' → Q' a s') (hE : ∀ e s', E e s' → E' e s') :
    Ends t Q' E' p s := by
  obtain ⟨s', result, hrun, hsolo, hcomm, hkeys, hpost⟩ := h
  refine ⟨s', result, hrun, hsolo, hcomm, hkeys, ?_⟩
  cases result with
  | ok a => exact hQ a s' hsolo hpost
  | error e => exact hE e s' hpost

/-- An operation that does not wait. -/
theorem call {o : RowOp K R} {next : o.Res → Transaction K R ε α} {a : o.Res}
    (hexec : Store.exec t s o = some (s', a)) (hcomm : s'.committed = s.committed)
    (hkeys : s'.keys = s.keys) (h : Ends t Q E (next a) s') : Ends t Q E (.call o next) s := by
  obtain ⟨s₂, result, hrun, hsolo, hcomm', hkeys', hpost⟩ := h
  exact ⟨s₂, result, (Program.alone_call hexec).trans hrun, hsolo, hcomm'.trans hcomm,
    hkeys'.trans hkeys, hpost⟩

/-- Sequencing. -/
theorem bind {R' : β → Store T K R → Prop} {f : α → Transaction K R ε β}
    (h : Ends t (fun a s => Ends t R' E (f a) s) E p s) : Ends t R' E (p.bind f) s := by
  obtain ⟨s', result, hrun, hsolo, hcomm, hkeys, hpost⟩ := h
  cases result with
  | ok a =>
    obtain ⟨s₂, result, hrun', hsolo', hcomm', hkeys', hpost'⟩ := hpost
    exact ⟨s₂, result, (Program.alone_bind_ok f hrun).trans hrun', hsolo', hcomm'.trans hcomm,
      hkeys'.trans hkeys, hpost'⟩
  | error e => exact ⟨s', .error e, Program.alone_bind_error f hrun, hsolo, hcomm, hkeys, hpost⟩

/-- Sequencing: the second program ends well wherever the first one returns. -/
theorem seq {R' : β → Store T K R → Prop} {f : α → Transaction K R ε β} (h : Ends t Q E p s)
    (hf : ∀ a s', Solo t s' → Q a s' → Ends t R' E (f a) s') : Ends t R' E (p.bind f) s :=
  bind (h.mono hf fun _ _ h => h)

/-- Handling. -/
theorem handle {handler : ε → Transaction K R ε α}
    (h : Ends t Q (fun e s => Ends t Q E (handler e) s) p s) :
    Ends t Q E (p.handle handler) s := by
  obtain ⟨s', result, hrun, hsolo, hcomm, hkeys, hpost⟩ := h
  cases result with
  | ok a => exact ⟨s', .ok a, Program.alone_handle_ok handler hrun, hsolo, hcomm, hkeys, hpost⟩
  | error e =>
    obtain ⟨s₂, result, hrun', hsolo', hcomm', hkeys', hpost'⟩ := hpost
    exact ⟨s₂, result, (Program.alone_handle_error handler hrun).trans hrun', hsolo',
      hcomm'.trans hcomm, hkeys'.trans hkeys, hpost'⟩

/-- A loop that keeps `I` and achieves `P` for each element, where no round
undoes what was achieved. -/
theorem each {I : Store T K R → Prop} {P : α → Store T K R → Prop}
    {f : α → Transaction K R ε Unit} {as : List α}
    (hf : ∀ a ∈ as, ∀ s, Solo t s → I s →
      Ends t (fun _ s' => I s' ∧ P a s' ∧ ∀ b, P b s → P b s') E (f a) s)
    (hs : Solo t s) (hI : I s) :
    Ends t (fun _ s' => (I s' ∧ ∀ b, P b s → P b s') ∧ ∀ a ∈ as, P a s') E
      (Program.each f as) s := by
  induction as generalizing s with
  | nil => exact done hs ⟨⟨hI, fun _ h => h⟩, by simp⟩
  | cons a as ih =>
    refine seq (hf a List.mem_cons_self s hs hI) fun _ s₁ hs₁ h₁ => ?_
    refine (ih (fun b hb => hf b (List.mem_cons_of_mem a hb)) hs₁ h₁.1).mono ?_ fun _ _ h => h
    rintro - s₂ - ⟨⟨hI₂, hkeep⟩, hall⟩
    refine ⟨⟨hI₂, fun b hb => hkeep b (h₁.2.2 b hb)⟩, fun b hb => ?_⟩
    rcases List.mem_cons.mp hb with rfl | hrest
    · exact hkeep b h₁.2.1
    · exact hall b hrest

end Ends

/-! ## Statements -/

section Statements

variable {f : R → R} {cond : K → R → Bool} {before : K × R → K × R → Bool}

/-- A locking read of a row that exists. -/
theorem ends_selectForUpdate {next : Option R → Transaction K R ε α} (hs : Solo t s)
    (h : ∀ s', Solo t s' → s'.visible t = s.visible t → Ends t Q E (next (s.visible t k)) s') :
    Ends t Q E (.call (.selectForUpdate k) next) s := by
  cases hvis : s.visible t k with
  | none =>
    have hexec : Store.exec t s (.selectForUpdate k) = some (s, none) := by simp [exec, hvis]
    have hnext := h s hs rfl
    rw [hvis] at hnext
    exact Ends.call hexec rfl rfl hnext
  | some r =>
    have hexec : Store.exec t s (.selectForUpdate k) =
        some ((s.acquire t k).load t k, s.visible t k) := by
      simp [exec, hvis, hs.free k, hs.object k]
    have hkeys : ((s.acquire t k).load t k).keys = s.keys := by
      unfold Store.load Store.acquire
      split <;> split <;> rfl
    exact Ends.call hexec (by simp) hkeys (h _ ((hs.acquire k).load k) (by simp))

/-- A query. -/
theorem ends_selectWhere {next : List (K × R) → Transaction K R ε α} (hs : Solo t s)
    (h : ∀ s' found, Solo t s' → s'.visible t = s.visible t →
      (∀ x, x ∈ found ↔ s.visible t x.1 = some x.2 ∧ cond x.1 x.2 = true) →
      Ends t Q E (next found) s') :
    Ends t Q E (.call (.selectWhere cond before) next) s := by
  have hload : ∀ (found : List (K × R)) (s : Store T K R), Solo t s →
      Solo t (found.foldl (fun s' x => s'.load t x.1) s) ∧
        (found.foldl (fun s' x => s'.load t x.1) s).visible t = s.visible t ∧
        (found.foldl (fun s' x => s'.load t x.1) s).keys = s.keys := by
    intro found
    induction found with
    | nil => exact fun s hs => ⟨hs, rfl, rfl⟩
    | cons x found ih =>
      intro s hs
      obtain ⟨hsolo, hvis, hkeys⟩ := ih (s.load t x.1) (hs.load x.1)
      refine ⟨hsolo, hvis.trans (by simp), hkeys.trans ?_⟩
      unfold Store.load
      split <;> rfl
  obtain ⟨hsolo, hvis, hkeys⟩ := hload (s.hits t cond before) s hs
  have hobject : ∀ x ∈ s.hits t cond before, (x.1, (s.identity t x.1).getD x.2) = x := by
    intro x hx
    cases hid : s.identity t x.1 with
    | none => rfl
    | some o =>
      have hsame := hs.synced x.1 o hid
      rw [(mem_hits hx).1, Option.some.injEq] at hsame
      rw [Option.getD_some, ← hsame]
  have hanswer : ∀ x, x ∈ (s.hits t cond before).map
      (fun x => (x.1, (s.identity t x.1).getD x.2)) ↔
        s.visible t x.1 = some x.2 ∧ cond x.1 x.2 = true := by
    intro x
    rw [List.map_congr_left hobject, List.map_id', mem_hits_iff]
    exact ⟨fun hx => hx.2, fun hx => ⟨hs.known x.1 x.2 hx.1, hx⟩⟩
  exact Ends.call rfl (by simp) hkeys (h _ _ hsolo hvis hanswer)

/-- The flush of a loaded object. -/
theorem ends_update {next : Unit → Transaction K R ε α} (hs : Solo t s)
    (hvis : s.visible t k = some r)
    (h : ∀ s', Solo t s' → s'.visible t = Function.update (s.visible t) k (some (f r)) →
      Ends t Q E (next ()) s') :
    Ends t Q E (.call (.update k f) next) s := by
  have hexec : Store.exec t s (.update k f) =
      some ((s.write t k (f r)).remember t k ((s.identity t k).map f), ()) := by
    simp [exec, hvis, hs.free k]
  have hrows : ((s.write t k (f r)).remember t k ((s.identity t k).map f)).visible t =
      Function.update (s.visible t) k (some (f r)) := by
    rw [visible_remember]
    exact visible_write
  refine Ends.call hexec rfl rfl (h _ ⟨fun k' => ?_, fun k' o hid => ?_, fun k' v hv => ?_⟩ hrows)
  · by_cases hk : k' = k
    · subst hk
      simp [lockedByOther, remember, write]
    · simpa [lockedByOther, remember, write, hk] using hs.free k'
  · rw [hrows]
    by_cases hk : k' = k
    · subst hk
      rw [identity_remember] at hid
      obtain ⟨o', ho', rfl⟩ := Option.map_eq_some_iff.mp hid
      have hsame := hs.synced k' o' ho'
      rw [hvis, Option.some.injEq] at hsame
      rw [Function.update_self, hsame]
    · rw [Function.update_of_ne hk]
      refine hs.synced k' o ?_
      simpa [remember, write, hk] using hid
  · rw [hrows] at hv
    by_cases hk : k' = k
    · subst hk
      exact hs.known k' r hvis
    · rw [Function.update_of_ne hk] at hv
      exact hs.known k' v hv

end Statements

end RelyLoop.Concurrency
