import Mathlib.Data.List.Basic

/-!
# Loops that collect results

A loop over a list collects one result for each element, and ends with the exception of the first
element that raises one.
-/

namespace RelyLoop.Python

/-- A loop that collects results succeeds when every element does. -/
theorem mapM_isOk_iff {α β ε : Type} (f : α → Except ε β) (as : List α) :
    (∃ bs, as.mapM f = .ok bs) ↔ ∀ a ∈ as, ∃ b, f a = .ok b := by
  induction as with
  | nil => simp [pure, Except.pure]
  | cons a as ih =>
    rw [List.mapM_cons, List.forall_mem_cons, ← ih]
    cases hfirst : f a with
    | error e => simp [bind, Except.bind]
    | ok b =>
      cases hrest : as.mapM f with
      | error e => simp [bind, Except.bind]
      | ok bs => simp [bind, Except.bind, pure, Except.pure]

/-- A loop that collects results has one for every element, and no other. -/
theorem mem_of_mapM {α β ε : Type} {f : α → Except ε β} {as : List α} {bs : List β}
    (h : as.mapM f = .ok bs) :
    (∀ a ∈ as, ∃ b ∈ bs, f a = .ok b) ∧ ∀ b ∈ bs, ∃ a ∈ as, f a = .ok b := by
  induction as generalizing bs with
  | nil =>
    obtain rfl : [] = bs := by simpa [pure, Except.pure] using h
    simp
  | cons a as ih =>
    rw [List.mapM_cons] at h
    cases hfirst : f a with
    | error e => simp [hfirst, bind, Except.bind] at h
    | ok b =>
      cases hrest : as.mapM f with
      | error e => simp [hfirst, hrest, bind, Except.bind] at h
      | ok bs' =>
        obtain rfl : b :: bs' = bs := by
          simpa [hfirst, hrest, bind, Except.bind, pure, Except.pure] using h
        obtain ⟨hleft, hright⟩ := ih hrest
        constructor
        · intro a' ha'
          rcases List.mem_cons.mp ha' with rfl | ha'
          · exact ⟨b, List.mem_cons_self, hfirst⟩
          · obtain ⟨b', hb', hf⟩ := hleft a' ha'
            exact ⟨b', List.mem_cons_of_mem b hb', hf⟩
        · intro b' hb'
          rcases List.mem_cons.mp hb' with rfl | hb'
          · exact ⟨a, List.mem_cons_self, hfirst⟩
          · obtain ⟨a', ha', hf⟩ := hright b' hb'
            exact ⟨a', List.mem_cons_of_mem a ha', hf⟩

end RelyLoop.Python

/-!
## Loops that retry

A loop makes a bounded number of attempts, which are numbered. An attempt ends the loop,
with a result or an exception, or it is discarded and the next one is made. After the last
one, the exception of the attempt that was discarded last is raised.
-/

namespace RelyLoop.Python

variable {ε α : Type}

/-- How an attempt ends. -/
inductive Attempt (ε α : Type) where
  | discarded (e : ε)
  | raised (e : ε)
  | result (a : α)

/-- Whether the loop goes on after an attempt. -/
def Attempt.IsDiscarded : Attempt ε α → Prop
  | discarded _ => True
  | _ => False

theorem Attempt.isDiscarded_iff {x : Attempt ε α} : x.IsDiscarded ↔ ∃ e, x = .discarded e := by
  cases x with
  | discarded e => exact ⟨fun _ => ⟨e, rfl⟩, fun _ => trivial⟩
  | raised e => exact ⟨False.elim, fun ⟨_, h⟩ => by cases h⟩
  | result a => exact ⟨False.elim, fun ⟨_, h⟩ => by cases h⟩

/-- What the last attempt makes of the loop: the exception is raised. -/
def Attempt.outcome : Attempt ε α → Except ε α
  | discarded e => .error e
  | raised e => .error e
  | result a => .ok a

/-- How a loop ends, with the number of its attempts. -/
structure Attempted (ε α : Type) where
  calls : ℕ
  outcome : Except ε α

/-- The loop from attempt `first` on, with `left` attempts to make; `last` is the exception
that has been kept. -/
def retryFrom (attempts : ℕ → Attempt ε α) (first : ℕ) : ℕ → ε → Attempted ε α
  | 0, last => ⟨0, .error last⟩
  | left + 1, _ =>
    match attempts first with
    | .raised e => ⟨1, .error e⟩
    | .result a => ⟨1, .ok a⟩
    | .discarded e =>
      let rest := retryFrom attempts (first + 1) left e
      ⟨rest.calls + 1, rest.outcome⟩

variable {attempts : ℕ → Attempt ε α} {first left n : ℕ} {last e : ε}

theorem retryFrom_of_ends (h : ¬ (attempts first).IsDiscarded) :
    retryFrom attempts first (left + 1) last = ⟨1, (attempts first).outcome⟩ := by
  rw [retryFrom]
  cases hattempt : attempts first with
  | discarded e => exact absurd (Attempt.isDiscarded_iff.mpr ⟨e, hattempt⟩) h
  | raised e => rfl
  | result a => rfl

theorem retryFrom_of_discarded (h : attempts first = .discarded e) :
    retryFrom attempts first (left + 1) last =
      ⟨(retryFrom attempts (first + 1) left e).calls + 1,
        (retryFrom attempts (first + 1) left e).outcome⟩ := by
  rw [retryFrom, h]

/-- Attempt `n` is made if the loop has attempts enough: those before are discarded. -/
def Reached (attempts : ℕ → Attempt ε α) (first n : ℕ) : Prop :=
  ∀ i, first ≤ i → i < n → (attempts i).IsDiscarded

theorem reached_first : Reached attempts first first := by
  intro i hfirst hi
  omega

theorem Reached.of_succ (h : Reached attempts first n) : Reached attempts (first + 1) n :=
  fun i hfirst hi => h i (Nat.le_of_succ_le hfirst) hi

/-- No more attempts are made than the loop may make. -/
theorem calls_retryFrom_le : (retryFrom attempts first left last).calls ≤ left := by
  induction left generalizing first last with
  | zero => exact Nat.le_refl 0
  | succ left ih =>
    unfold retryFrom
    split
    · exact Nat.le_add_left 1 left
    · exact Nat.le_add_left 1 left
    · exact Nat.succ_le_succ ih

/-- Attempt `n` is made, and no further one: it ends the loop, or no attempt is left. -/
structure LastMade (attempts : ℕ → Attempt ε α) (first left n : ℕ) : Prop where
  first_le : first ≤ n
  in_time : n < first + left
  reached : Reached attempts first n
  last : ¬ (attempts n).IsDiscarded ∨ n + 1 = first + left

theorem exists_lastMade (attempts : ℕ → Attempt ε α) (first : ℕ) (hleft : 0 < left) :
    ∃ n, LastMade attempts first left n := by
  induction left generalizing first with
  | zero => omega
  | succ left ih =>
    by_cases hend : ¬ (attempts first).IsDiscarded ∨ left = 0
    · refine ⟨first, Nat.le_refl first, by omega, reached_first, ?_⟩
      exact hend.imp_right fun h => by omega
    · push Not at hend
      obtain ⟨n, hfirst, htime, hreached, hlast⟩ := ih (first + 1) (by omega)
      refine ⟨n, by omega, by omega, ?_, hlast.imp_right fun h => by omega⟩
      intro i hi hin
      rcases Nat.eq_or_lt_of_le hi with rfl | hlt
      · exact hend.1
      · exact hreached i hlt hin

/-- The loop ends as the last attempt made does. -/
theorem LastMade.retryFrom_spec (h : LastMade attempts first left n) (last : ε) :
    (retryFrom attempts first left last).calls + first = n + 1 ∧
      (retryFrom attempts first left last).outcome = (attempts n).outcome := by
  induction left generalizing first last with
  | zero =>
    have hfirst := h.first_le
    have htime := h.in_time
    omega
  | succ left ih =>
    obtain ⟨hfirst, htime, hreached, hlast⟩ := h
    rcases Nat.eq_or_lt_of_le hfirst with rfl | hlt
    · rcases hlast with hends | hlast
      · rw [retryFrom_of_ends hends]
        exact ⟨Nat.add_comm 1 first, rfl⟩
      · obtain rfl : left = 0 := by omega
        rw [retryFrom]
        cases attempts first <;> exact ⟨Nat.add_comm 1 first, rfl⟩
    · obtain ⟨e, hattempt⟩ := Attempt.isDiscarded_iff.mp (hreached first (Nat.le_refl first) hlt)
      have hnext : LastMade attempts (first + 1) left n :=
        ⟨hlt, by omega, hreached.of_succ, hlast.imp_right fun h => by omega⟩
      obtain ⟨hcalls, houtcome⟩ := ih hnext e
      rw [retryFrom_of_discarded hattempt]
      exact ⟨by dsimp only; omega, houtcome⟩

end RelyLoop.Python
