import Mathlib.Data.List.Infix

/-!
# Regular expressions with groups

Patterns whose groups are read after a match. The matcher lists what a backtracking engine
finds in the order in which it finds it, greedy and lazy repetitions of a class included, so
that the first one is the match. Each construct has one lemma that says what it can find.
-/

namespace RelyLoop.Text

/-- A regular expression with numbered groups. -/
inductive Captures where
  | empty
  /-- One character of a class. -/
  | one (accepts : Char → Bool)
  /-- `k*`. -/
  | star (accepts : Char → Bool)
  /-- `k*?`. -/
  | lazyStar (accepts : Char → Bool)
  /-- `(?:r)?`. -/
  | opt (r : Captures)
  | group (n : ℕ) (r : Captures)
  /-- `$` without `re.MULTILINE`. -/
  | finish
  | seq (r r' : Captures)

/-- How far a match has come: the texts of the closed groups, the latest first, and the text
that is left. -/
structure Progress where
  groups : List (ℕ × List Char)
  rest : List Char
  deriving DecidableEq

namespace Progress

/-- The text of a group. -/
def group (p : Progress) (n : ℕ) : List Char := (p.groups.lookup n).getD []

/-- What a match has read between two places. -/
def taken (p q : Progress) : List Char := p.rest.take (p.rest.length - q.rest.length)

theorem taken_of_append {p q : Progress} {text : List Char} (h : p.rest = text ++ q.rest) :
    p.taken q = text := by
  rw [taken, h, List.length_append, Nat.add_sub_cancel, List.take_left]

end Progress

/-- The texts behind a run of accepted characters, the shortest run first. -/
def behindRuns (accepts : Char → Bool) : List Char → List (List Char)
  | [] => [[]]
  | c :: cs => (c :: cs) :: if accepts c then behindRuns accepts cs else []

theorem mem_behindRuns {accepts : Char → Bool} {text rest : List Char} :
    rest ∈ behindRuns accepts text ↔
      ∃ run, (∀ c ∈ run, accepts c = true) ∧ text = run ++ rest := by
  induction text with
  | nil =>
    simp only [behindRuns, List.mem_singleton, List.nil_eq, List.append_eq_nil_iff]
    constructor
    · exact fun h => ⟨[], by simp, rfl, h⟩
    · rintro ⟨_, _, _, h⟩
      exact h
  | cons c cs ih =>
    rw [behindRuns, List.mem_cons]
    constructor
    · rintro (rfl | h)
      · exact ⟨[], by simp, rfl⟩
      · split at h
        · rename_i hc
          obtain ⟨run, hrun, rfl⟩ := ih.mp h
          exact ⟨c :: run, by simpa [hc] using hrun, rfl⟩
        · simp at h
    · rintro ⟨_ | ⟨d, run⟩, hrun, htext⟩
      · exact .inl htext.symm
      · obtain ⟨rfl, rfl⟩ := List.cons.inj htext
        rw [if_pos (hrun c List.mem_cons_self)]
        exact .inr (ih.mpr ⟨run, fun d hd => hrun d (List.mem_cons_of_mem c hd), rfl⟩)

namespace Captures

/-- What a match that begins at a place can find, in the order of preference. -/
def ends : Captures → Progress → List Progress
  | empty, p => [p]
  | one accepts, p =>
    match p.rest with
    | [] => []
    | c :: cs => if accepts c then [{ p with rest := cs }] else []
  | star accepts, p =>
    (behindRuns accepts p.rest).reverse.map fun rest => { p with rest := rest }
  | lazyStar accepts, p => (behindRuns accepts p.rest).map fun rest => { p with rest := rest }
  | opt r, p => ends r p ++ [p]
  | group n r, p =>
    (ends r p).map fun q => { q with groups := (n, p.taken q) :: q.groups }
  | finish, p => if p.rest = [] ∨ p.rest = ['\n'] then [p] else []
  | seq r r', p => (ends r p).flatMap (ends r')

/-- `re.match`. -/
def matchStart (r : Captures) (text : List Char) : Option Progress := (r.ends ⟨[], text⟩).head?

/-- The concatenation of patterns. -/
def chain (rs : List Captures) : Captures := rs.foldr seq empty

/-- `k+`. -/
def plus (accepts : Char → Bool) : Captures := seq (one accepts) (star accepts)

/-- `k+?`. -/
def lazyPlus (accepts : Char → Bool) : Captures := seq (one accepts) (lazyStar accepts)

/-- A text, letter for letter. -/
def lit (text : List Char) : Captures := chain (text.map fun c => one (· == c))

/-! ## What each construct finds -/

section

variable {r r' : Captures} {rs : List Captures} {accepts : Char → Bool} {p q : Progress}
  {text : List Char} {n : ℕ}

attribute [local simp] ends in
@[simp] theorem mem_ends_empty : q ∈ empty.ends p ↔ q = p := by simp

theorem mem_ends_one : q ∈ (one accepts).ends p ↔
    ∃ c, accepts c = true ∧ p.rest = c :: q.rest ∧ q.groups = p.groups := by
  obtain ⟨groups, _ | ⟨c, cs⟩⟩ := p
  · simp [ends]
  · obtain ⟨groups', rest⟩ := q
    by_cases hc : accepts c = true
    · simp only [ends, if_pos hc, List.mem_singleton, Progress.mk.injEq, List.cons.injEq]
      constructor
      · rintro ⟨rfl, rfl⟩
        exact ⟨c, hc, ⟨rfl, rfl⟩, rfl⟩
      · rintro ⟨_, _, ⟨_, rfl⟩, rfl⟩
        exact ⟨rfl, rfl⟩
    · simp only [ends, if_neg hc, List.not_mem_nil, false_iff]
      rintro ⟨d, hd, h, _⟩
      exact hc ((List.cons.inj h).1 ▸ hd)

theorem mem_ends_lazyStar : q ∈ (lazyStar accepts).ends p ↔
    ∃ run, (∀ c ∈ run, accepts c = true) ∧ p.rest = run ++ q.rest ∧ q.groups = p.groups := by
  obtain ⟨groups', rest⟩ := q
  simp only [ends, List.mem_map, mem_behindRuns, Progress.mk.injEq]
  constructor
  · rintro ⟨_, ⟨run, hrun, h⟩, rfl, rfl⟩
    exact ⟨run, hrun, h, rfl⟩
  · rintro ⟨run, hrun, h, rfl⟩
    exact ⟨rest, ⟨run, hrun, h⟩, rfl, rfl⟩

theorem mem_ends_star : q ∈ (star accepts).ends p ↔
    ∃ run, (∀ c ∈ run, accepts c = true) ∧ p.rest = run ++ q.rest ∧ q.groups = p.groups := by
  rw [← mem_ends_lazyStar, ends, ends, List.map_reverse, List.mem_reverse]

theorem mem_ends_seq : q ∈ (seq r r').ends p ↔ ∃ s ∈ r.ends p, q ∈ r'.ends s := by
  simp [ends]

@[simp] theorem mem_ends_chain_nil : q ∈ (chain []).ends p ↔ q = p := mem_ends_empty

theorem mem_ends_chain_cons :
    q ∈ (chain (r :: rs)).ends p ↔ ∃ s ∈ r.ends p, q ∈ (chain rs).ends s := mem_ends_seq

theorem mem_ends_opt : q ∈ (opt r).ends p ↔ q ∈ r.ends p ∨ q = p := by simp [ends]

theorem mem_ends_group : q ∈ (group n r).ends p ↔
    ∃ s ∈ r.ends p, q = ⟨(n, p.taken s) :: s.groups, s.rest⟩ := by
  simp only [ends, List.mem_map, eq_comm]

theorem mem_ends_finish :
    q ∈ finish.ends p ↔ q = p ∧ (p.rest = [] ∨ p.rest = ['\n']) := by
  rw [ends]
  split
  case isTrue h => simp [h]
  case isFalse h => simp [h]

/-- One or more accepted characters, whichever number of them is tried first. -/
theorem mem_ends_many (h : r = plus accepts ∨ r = lazyPlus accepts) : q ∈ r.ends p ↔
    ∃ run, run ≠ [] ∧ (∀ c ∈ run, accepts c = true) ∧ p.rest = run ++ q.rest ∧
      q.groups = p.groups := by
  have hseq : q ∈ r.ends p ↔ ∃ s ∈ (one accepts).ends p, q ∈ (star accepts).ends s := by
    rcases h with rfl | rfl
    · exact mem_ends_seq
    · simp only [lazyPlus, mem_ends_seq, mem_ends_lazyStar, mem_ends_star]
  rw [hseq]
  constructor
  · rintro ⟨s, hs, hq⟩
    obtain ⟨c, hc, hrest, hgroups⟩ := mem_ends_one.mp hs
    obtain ⟨run, hrun, hrest', hgroups'⟩ := mem_ends_star.mp hq
    refine ⟨c :: run, by simp, ?_, by rw [hrest, hrest', List.cons_append],
      hgroups'.trans hgroups⟩
    simpa [hc] using hrun
  · rintro ⟨_ | ⟨c, run⟩, hne, hrun, hrest, hgroups⟩
    · exact absurd rfl hne
    · refine ⟨⟨p.groups, run ++ q.rest⟩, ?_, ?_⟩
      · exact mem_ends_one.mpr ⟨c, hrun c List.mem_cons_self, hrest, rfl⟩
      · exact mem_ends_star.mpr
          ⟨run, fun d hd => hrun d (List.mem_cons_of_mem c hd), rfl, hgroups⟩

theorem mem_ends_lit :
    q ∈ (lit text).ends p ↔ p.rest = text ++ q.rest ∧ q.groups = p.groups := by
  obtain ⟨groups', rest'⟩ := q
  induction text generalizing p with
  | nil =>
    obtain ⟨groups, rest⟩ := p
    simp [lit, and_comm, eq_comm]
  | cons c text ih =>
    have hlit : lit (c :: text) = seq (one (· == c)) (lit text) := rfl
    rw [hlit, mem_ends_seq]
    constructor
    · rintro ⟨s, hs, hq⟩
      obtain ⟨d, hd, hrest, hgroups⟩ := mem_ends_one.mp hs
      obtain ⟨hrest', hgroups'⟩ := ih.mp hq
      obtain rfl : d = c := by simpa using hd
      exact ⟨by rw [hrest, hrest', List.cons_append], hgroups'.trans hgroups⟩
    · rintro ⟨hrest, hgroups⟩
      refine ⟨⟨p.groups, text ++ rest'⟩, ?_, ih.mpr ⟨rfl, hgroups⟩⟩
      exact mem_ends_one.mpr ⟨c, beq_self_eq_true c, hrest, rfl⟩

/-- A match is one of the things that can be found. -/
theorem mem_of_matchStart {text : List Char} (h : r.matchStart text = some q) :
    q ∈ r.ends ⟨[], text⟩ :=
  List.mem_of_mem_head? h

/-- Where something can be found there is a match. -/
theorem exists_matchStart {text : List Char} (h : q ∈ r.ends ⟨[], text⟩) :
    ∃ s, r.matchStart text = some s :=
  Option.isSome_iff_exists.mp (List.isSome_head?.mpr (List.ne_nil_of_mem h))

end

end Captures

end RelyLoop.Text
