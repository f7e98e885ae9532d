import RelyLoop.Text.Captures

/-!
# Substitution rules

A rule replaces the matches of some patterns from left to right. Its result consists of copied
characters and replaced matches, and that shape decides what another rule, or the same one, can
find in the result.
-/

namespace RelyLoop.Text

/-! ## Patterns -/

namespace Captures

/-- `k{n,}`. -/
def atLeast (n : ℕ) (accepts : Char → Bool) : Captures :=
  chain (List.replicate n (one accepts) ++ [star accepts])

variable {r : Captures} {accepts : Char → Bool} {p q : Progress} {n : ℕ}

theorem mem_ends_atLeast : q ∈ (atLeast n accepts).ends p ↔
    ∃ run : List Char, n ≤ run.length ∧ (∀ c ∈ run, accepts c = true) ∧ p.rest = run ++ q.rest ∧
      q.groups = p.groups := by
  induction n generalizing p with
  | zero =>
    rw [atLeast, List.replicate_zero, List.nil_append, mem_ends_chain_cons]
    simp only [mem_ends_chain_nil, mem_ends_star, Nat.zero_le, true_and, exists_eq_right']
  | succ n ih =>
    have hchain : atLeast (n + 1) accepts = seq (one accepts) (atLeast n accepts) := rfl
    rw [hchain, mem_ends_seq]
    constructor
    · rintro ⟨s, hs, hq⟩
      obtain ⟨c, hc, hrest, hgroups⟩ := mem_ends_one.mp hs
      obtain ⟨run, hlength, hrun, hrest', hgroups'⟩ := ih.mp hq
      refine ⟨c :: run, Nat.succ_le_succ hlength, List.forall_mem_cons.mpr ⟨hc, hrun⟩, ?_,
        hgroups'.trans hgroups⟩
      rw [hrest, hrest', List.cons_append]
    · rintro ⟨_ | ⟨c, run⟩, hlength, hrun, hrest, hgroups⟩
      · exact absurd hlength (Nat.not_succ_le_zero n)
      · obtain ⟨hc, hrun⟩ := List.forall_mem_cons.mp hrun
        refine ⟨⟨p.groups, run ++ q.rest⟩, mem_ends_one.mpr ⟨c, hc, hrest, rfl⟩, ?_⟩
        exact ih.mpr ⟨run, Nat.le_of_succ_le_succ hlength, hrun, rfl, hgroups⟩

/-- A pattern finds the words of a language, and closes no group. -/
def Spells (r : Captures) (words : List Char → Prop) : Prop :=
  ∀ p q, q ∈ r.ends p ↔ ∃ w, words w ∧ p.rest = w ++ q.rest ∧ q.groups = p.groups

theorem spells_empty : empty.Spells (· = []) := by
  rintro ⟨groups, rest⟩ ⟨groups', rest'⟩
  simp only [mem_ends_empty, exists_eq_left, List.nil_append, Progress.mk.injEq]
  constructor
  · rintro ⟨rfl, rfl⟩
    exact ⟨rfl, rfl⟩
  · rintro ⟨rfl, rfl⟩
    exact ⟨rfl, rfl⟩

theorem spells_lit (text : List Char) : (lit text).Spells (· = text) := by
  intro p q
  rw [mem_ends_lit]
  simp only [exists_eq_left]

theorem spells_one (accepts : Char → Bool) :
    (one accepts).Spells fun w => ∃ c, accepts c = true ∧ w = [c] := by
  intro p q
  rw [mem_ends_one]
  constructor
  · rintro ⟨c, hc, hrest, hgroups⟩
    exact ⟨[c], ⟨c, hc, rfl⟩, hrest, hgroups⟩
  · rintro ⟨w, ⟨c, hc, rfl⟩, hrest, hgroups⟩
    exact ⟨c, hc, hrest, hgroups⟩

theorem spells_star (accepts : Char → Bool) :
    (star accepts).Spells fun w => ∀ c ∈ w, accepts c = true :=
  fun _ _ => mem_ends_star

theorem spells_atLeast (n : ℕ) (accepts : Char → Bool) :
    (atLeast n accepts).Spells fun w => n ≤ w.length ∧ ∀ c ∈ w, accepts c = true := by
  intro p q
  rw [mem_ends_atLeast]
  simp only [and_assoc]

theorem Spells.seq {r' : Captures} {words words' : List Char → Prop} (h : r.Spells words)
    (h' : r'.Spells words') :
    (seq r r').Spells fun w => ∃ u v, words u ∧ words' v ∧ w = u ++ v := by
  intro p q
  rw [mem_ends_seq]
  constructor
  · rintro ⟨s, hs, hq⟩
    obtain ⟨u, hu, hrest, hgroups⟩ := (h p s).mp hs
    obtain ⟨v, hv, hrest', hgroups'⟩ := (h' s q).mp hq
    refine ⟨u ++ v, ⟨u, v, hu, hv, rfl⟩, ?_, hgroups'.trans hgroups⟩
    rw [hrest, hrest', List.append_assoc]
  · rintro ⟨_, ⟨u, v, hu, hv, rfl⟩, hrest, hgroups⟩
    rw [List.append_assoc] at hrest
    exact ⟨⟨p.groups, v ++ q.rest⟩, (h _ _).mpr ⟨u, hu, hrest, rfl⟩,
      (h' _ _).mpr ⟨v, hv, rfl, hgroups⟩⟩

/-- A match at the start of a text begins it with a word. -/
theorem Spells.exists_iff {words : List Char → Prop} (h : r.Spells words) (text : List Char) :
    (∃ q, q ∈ r.ends ⟨[], text⟩) ↔ ∃ w, words w ∧ w <+: text := by
  constructor
  · rintro ⟨q, hq⟩
    obtain ⟨w, hw, hrest, -⟩ := (h _ q).mp hq
    exact ⟨w, hw, q.rest, hrest.symm⟩
  · rintro ⟨w, hw, rest, rfl⟩
    exact ⟨⟨[], rest⟩, (h _ _).mpr ⟨w, hw, rfl, rfl⟩⟩

theorem Spells.length_lt {words : List Char → Prop} {text : List Char} (h : r.Spells words)
    (hnil : ¬words []) (hq : q ∈ r.ends ⟨[], text⟩) : q.rest.length < text.length := by
  obtain ⟨w, hw, hrest, -⟩ := (h _ q).mp hq
  obtain rfl : text = w ++ q.rest := hrest
  have hpos := List.length_pos_of_ne_nil fun heq => hnil (heq ▸ hw)
  rw [List.length_append]
  omega

/-- The first match of a pattern is not followed by a character of a class. -/
def Greedy (accepts : Char → Bool) (r : Captures) : Prop :=
  ∀ p q, (r.ends p).head? = some q → ∀ c ∈ q.rest.head?, accepts c = false

theorem getLast?_behindRuns (accepts : Char → Bool) (text : List Char) :
    (behindRuns accepts text).getLast? = some (text.dropWhile accepts) := by
  induction text with
  | nil => rfl
  | cons c text ih =>
    by_cases hc : accepts c = true
    · rw [behindRuns, if_pos hc, List.getLast?_cons, ih, List.dropWhile_cons_of_pos hc]
      rfl
    · rw [behindRuns, if_neg hc, List.dropWhile_cons_of_neg hc]
      rfl

theorem greedy_star (accepts : Char → Bool) : (star accepts).Greedy accepts := by
  intro p q h c hc
  simp only [ends, List.head?_map, List.head?_reverse, getLast?_behindRuns, Option.map_some,
    Option.some.injEq] at h
  subst h
  have hnot := List.head?_dropWhile_not accepts p.rest
  rw [Option.mem_def.mp hc] at hnot
  simpa using hnot

theorem Greedy.one_seq (h : r.Greedy accepts) (accepts' : Char → Bool) :
    (seq (one accepts') r).Greedy accepts := by
  rintro ⟨groups, rest⟩ q hq
  rw [ends] at hq
  cases rest with
  | nil => cases hq
  | cons c rest =>
    by_cases hc : accepts' c = true
    · simp only [ends, if_pos hc, List.flatMap_singleton] at hq
      exact h _ q hq
    · simp only [ends, if_neg hc, List.flatMap_nil, List.head?_nil, reduceCtorEq] at hq

theorem greedy_atLeast (n : ℕ) (accepts : Char → Bool) : (atLeast n accepts).Greedy accepts := by
  induction n with
  | zero =>
    intro p q h
    have hends : (atLeast 0 accepts).ends p = (star accepts).ends p := by
      change ((star accepts).ends p).flatMap (fun s => [s]) = _
      exact List.flatMap_singleton' _
    rw [hends] at h
    exact greedy_star accepts p q h
  | succ n ih => exact ih.one_seq accepts

theorem Greedy.lit_seq (h : r.Greedy accepts) (text : List Char) :
    (seq (lit text) r).Greedy accepts := by
  induction text with
  | nil =>
    intro p q hq
    have hends : (seq (lit []) r).ends p = r.ends p := List.flatMap_singleton ..
    rw [hends] at hq
    exact h p q hq
  | cons c text ih =>
    intro p q hq
    have hends : (seq (lit (c :: text)) r).ends p =
        (seq (one (· == c)) (seq (lit text) r)).ends p := List.flatMap_assoc
    rw [hends] at hq
    exact ih.one_seq _ p q hq

/-- What is left after a match is the end of the text. -/
theorem exists_taken (h : q ∈ r.ends p) : ∃ taken, p.rest = taken ++ q.rest := by
  induction r generalizing p q with
  | empty => exact ⟨[], by rw [mem_ends_empty.mp h]; rfl⟩
  | one accepts =>
    obtain ⟨c, -, hrest, -⟩ := mem_ends_one.mp h
    exact ⟨[c], hrest⟩
  | star accepts =>
    obtain ⟨run, -, hrest, -⟩ := mem_ends_star.mp h
    exact ⟨run, hrest⟩
  | lazyStar accepts =>
    obtain ⟨run, -, hrest, -⟩ := mem_ends_lazyStar.mp h
    exact ⟨run, hrest⟩
  | opt r ih =>
    rcases mem_ends_opt.mp h with h | rfl
    · exact ih h
    · exact ⟨[], rfl⟩
  | group n r ih =>
    obtain ⟨s, hs, rfl⟩ := mem_ends_group.mp h
    obtain ⟨taken, htaken⟩ := ih hs
    exact ⟨taken, htaken⟩
  | finish => exact ⟨[], by rw [(mem_ends_finish.mp h).1]; rfl⟩
  | seq r r' ih ih' =>
    obtain ⟨s, hs, hq⟩ := mem_ends_seq.mp h
    obtain ⟨taken, htaken⟩ := ih hs
    obtain ⟨taken', htaken'⟩ := ih' hq
    exact ⟨taken ++ taken', by rw [htaken, htaken', List.append_assoc]⟩

end Captures

/-! ## Rules -/

/-- `re.sub`: whether the pattern begins with `\b`, its alternatives, and the replacement. -/
structure Rule where
  bounded : Bool
  alternatives : List Captures
  replacement : Progress → List Char

/-- `\b` at a place. -/
def atBoundary (isWord : Char → Bool) (before : Option Char) (text : List Char) : Bool :=
  before.any isWord != text.head?.any isWord

namespace Rule

/-- The first alternative that matches at the start of a text. -/
def matchStart (rule : Rule) (text : List Char) : Option Progress :=
  rule.alternatives.findSome? fun r => r.matchStart text

/-- The match that begins at a place. -/
def matchAt (isWord : Char → Bool) (rule : Rule) (before : Option Char) (text : List Char) :
    Option Progress :=
  if rule.bounded && !atBoundary isWord before text then none else rule.matchStart text

/-- Replaces the matches from a place on, where some characters still belong to the match before
it. Every match takes a character. -/
def subFrom (isWord : Char → Bool) (rule : Rule) : ℕ → Option Char → List Char → List Char
  | _, _, [] => []
  | skip + 1, _, c :: rest => subFrom isWord rule skip (some c) rest
  | 0, before, c :: rest =>
    match rule.matchAt isWord before (c :: rest) with
    | none => c :: subFrom isWord rule 0 (some c) rest
    | some q => rule.replacement q ++ subFrom isWord rule (rest.length - q.rest.length) (some c) rest

/-- `pattern.sub(replacement, text)`. -/
def sub (isWord : Char → Bool) (rule : Rule) (text : List Char) : List Char :=
  rule.subFrom isWord 0 none text

/-- No match begins anywhere in a text. -/
def Clean (isWord : Char → Bool) (rule : Rule) (before : Option Char) (text : List Char) : Prop :=
  ∀ read rest, text = read ++ rest → rule.matchAt isWord (read.getLast?.or before) rest = none

/-- The matches of a rule take a character. -/
def Consumes (rule : Rule) : Prop :=
  ∀ text q, rule.matchStart text = some q → q.rest.length < text.length

/-- What a substitution copies and replaces. -/
inductive Scans (isWord : Char → Bool) (rule : Rule) :
    Option Char → List Char → List Char → Prop
  | nil (before : Option Char) : Scans isWord rule before [] []
  | copy {before : Option Char} {c : Char} {rest out : List Char}
      (hnone : rule.matchAt isWord before (c :: rest) = none)
      (hscans : Scans isWord rule (some c) rest out) :
      Scans isWord rule before (c :: rest) (c :: out)
  | hit {before : Option Char} {taken out : List Char} {q : Progress}
      (hmatch : rule.matchAt isWord before (taken ++ q.rest) = some q) (hne : taken ≠ [])
      (hscans : Scans isWord rule taken.getLast? q.rest out) :
      Scans isWord rule before (taken ++ q.rest) (rule.replacement q ++ out)

variable {isWord : Char → Bool} {rule rule' : Rule} {before : Option Char}
  {text taken rest out : List Char} {q : Progress} {c : Char}

theorem matchStart_of_matchAt (h : rule.matchAt isWord before text = some q) :
    rule.matchStart text = some q := by
  unfold matchAt at h
  split at h
  · cases h
  · exact h

theorem last_cons (c : Char) (read : List Char) :
    (c :: read).getLast? = read.getLast?.or (some c) := by
  rw [List.getLast?_cons]
  cases read.getLast? <;> rfl

/-- A match is a match of an alternative. -/
theorem exists_mem_ends (h : rule.matchStart text = some q) :
    ∃ r ∈ rule.alternatives, q ∈ r.ends ⟨[], text⟩ := by
  obtain ⟨r, hr, hq⟩ := List.exists_of_findSome?_eq_some h
  exact ⟨r, hr, Captures.mem_of_matchStart hq⟩

theorem matchStart_isSome_iff : (rule.matchStart text).isSome = true ↔
    ∃ r ∈ rule.alternatives, ∃ q, q ∈ r.ends ⟨[], text⟩ := by
  constructor
  · intro h
    obtain ⟨q, hq⟩ := Option.isSome_iff_exists.mp h
    obtain ⟨r, hr, hmem⟩ := exists_mem_ends hq
    exact ⟨r, hr, q, hmem⟩
  · rintro ⟨r, hr, q, hmem⟩
    obtain ⟨s, hs⟩ := Captures.exists_matchStart hmem
    exact List.findSome?_isSome_iff.mpr ⟨r, hr, Option.isSome_iff_exists.mpr ⟨s, hs⟩⟩

theorem subFrom_skip (taken rest : List Char) (before : Option Char) :
    rule.subFrom isWord taken.length before (taken ++ rest) =
      rule.subFrom isWord 0 (taken.getLast?.or before) rest := by
  induction taken generalizing before with
  | nil => rfl
  | cons c taken ih =>
    rw [List.length_cons, List.cons_append, subFrom, ih]
    cases taken <;> rfl

/-- A substitution copies and replaces. -/
theorem scans_subFrom (hconsumes : rule.Consumes) (before : Option Char) (text : List Char) :
    Scans isWord rule before text (rule.subFrom isWord 0 before text) := by
  induction hn : text.length using Nat.strong_induction_on generalizing before text with
  | _ n ih =>
    subst hn
    cases text with
    | nil => exact Scans.nil before
    | cons c rest =>
      rw [subFrom]
      cases hmatch : rule.matchAt isWord before (c :: rest) with
      | none => exact Scans.copy hmatch (ih rest.length (Nat.lt_succ_self _) _ _ rfl)
      | some q =>
        have hshort := hconsumes _ _ (matchStart_of_matchAt hmatch)
        obtain ⟨r, -, hq⟩ := exists_mem_ends (matchStart_of_matchAt hmatch)
        obtain ⟨taken, htaken⟩ := Captures.exists_taken hq
        cases taken with
        | nil =>
          have hsame : c :: rest = q.rest := htaken
          rw [← hsame] at hshort
          exact absurd hshort (lt_irrefl _)
        | cons d taken =>
          obtain ⟨rfl, htail⟩ := List.cons.inj htaken
          obtain rfl : rest = taken ++ q.rest := htail
          have hskip : (taken ++ q.rest).length - q.rest.length = taken.length := by
            rw [List.length_append, Nat.add_sub_cancel]
          dsimp only
          rw [hskip, subFrom_skip, ← last_cons]
          have hne : c :: taken ≠ [] := List.cons_ne_nil c taken
          exact Scans.hit hmatch hne (ih _ (by simpa using hshort) _ _ rfl)

theorem Clean.head (h : rule.Clean isWord before text) :
    rule.matchAt isWord before text = none := h [] text rfl

/-- A later part of a clean text is clean. -/
theorem Clean.append (h : rule.Clean isWord before (taken ++ rest)) :
    rule.Clean isWord (taken.getLast?.or before) rest := by
  intro read rest' heq
  have hlater := h (taken ++ read) rest' (by rw [heq, List.append_assoc])
  rwa [List.getLast?_append, Option.or_assoc] at hlater

theorem Clean.tail (h : rule.Clean isWord before (c :: rest)) :
    rule.Clean isWord (some c) rest :=
  have happend : rule.Clean isWord before ([c] ++ rest) := h
  happend.append

/-- Where nothing matches, nothing is replaced. -/
theorem subFrom_of_clean (h : rule.Clean isWord before text) :
    rule.subFrom isWord 0 before text = text := by
  induction text generalizing before with
  | nil => rfl
  | cons c rest ih =>
    rw [subFrom, h.head]
    dsimp only
    rw [ih h.tail]

/-! ## Languages -/

/-- The matches of a rule begin with the words of a language. -/
structure Reads (rule : Rule) (words : List Char → Prop) : Prop where
  matchStart_iff : ∀ text, (rule.matchStart text).isSome = true ↔ ∃ w, words w ∧ w <+: text
  not_nil : ¬words []

variable {words : List Char → Prop}

theorem Reads.matchAt_isSome_iff (h : rule.Reads words) :
    (rule.matchAt isWord before text).isSome = true ↔
      (rule.bounded = true → atBoundary isWord before text = true) ∧ ∃ w, words w ∧ w <+: text := by
  rw [← h.matchStart_iff]
  unfold matchAt
  cases rule.bounded <;> cases atBoundary isWord before text <;> simp

theorem Reads.matchAt_eq_none_iff (h : rule.Reads words) :
    rule.matchAt isWord before text = none ↔
      ((rule.bounded = true → atBoundary isWord before text = true) →
        ∀ w, words w → ¬w <+: text) := by
  rw [← Option.not_isSome_iff_eq_none, h.matchAt_isSome_iff]
  simp only [not_and, not_exists]

/-- A text with a match, and one that begins with the same word and the same character. -/
theorem Reads.matchAt_eq_none_of_cons (h : rule.Reads words) {rest' : List Char}
    (hnone : rule.matchAt isWord before (c :: rest) = none)
    (hbegins : ∀ w, words w → w <+: c :: rest' → w <+: c :: rest) :
    rule.matchAt isWord before (c :: rest') = none := by
  rw [h.matchAt_eq_none_iff] at hnone ⊢
  intro hbounded w hw hbegin
  exact hnone hbounded w hw (hbegins w hw hbegin)

theorem Reads.matchAt_nil (h : rule.Reads words) : rule.matchAt isWord before [] = none := by
  rw [h.matchAt_eq_none_iff]
  intro _ w hw hbegin
  rw [List.prefix_nil] at hbegin
  exact h.not_nil (hbegin ▸ hw)

theorem matchAt_of_not_bounded (h : rule.bounded = false) (before : Option Char)
    (text : List Char) : rule.matchAt isWord before text = rule.matchStart text := by
  rw [matchAt, h]
  rfl

/-- What a substitution leaves clean. The words of the other rule that begin the result begin the
text, none begins inside a replacement, and the end of a replacement plays no role for what comes
after it; `free` is what is known of the text. -/
theorem clean_of_scans (free : Option Char → List Char → Prop) (hreads : rule'.Reads words)
    (hfree : ∀ {before taken rest}, taken ≠ [] → free before (taken ++ rest) →
      free taken.getLast? rest)
    (hcopied : ∀ {before c rest}, free before (c :: rest) →
      rule.matchAt isWord before (c :: rest) = none →
        rule'.matchAt isWord before (c :: rest) = none)
    (hbegins : ∀ {before text out w}, Scans isWord rule before text out → words w →
      w <+: out → w <+: text)
    (hinside : ∀ {before taken q out read part}, free before (taken ++ q.rest) →
      rule.matchAt isWord before (taken ++ q.rest) = some q →
      Scans isWord rule taken.getLast? q.rest out → rule.replacement q = read ++ part →
      part ≠ [] → rule'.matchAt isWord (read.getLast?.or before) (part ++ out) = none)
    (hafter : ∀ {before taken q out}, rule.matchAt isWord before (taken ++ q.rest) = some q →
      taken ≠ [] → Scans isWord rule taken.getLast? q.rest out →
      rule'.matchAt isWord taken.getLast? out = none →
        rule'.matchAt isWord ((rule.replacement q).getLast?.or before) out = none)
    (hscans : Scans isWord rule before text out) (htext : free before text) :
    rule'.Clean isWord before out := by
  induction hscans with
  | nil before =>
    intro read rest heq
    obtain ⟨rfl, rfl⟩ := List.append_eq_nil_iff.mp heq.symm
    exact hreads.matchAt_nil
  | @copy before c rest out hnone hscans ih =>
    intro read rest' heq
    cases read with
    | nil =>
      obtain rfl : c :: out = rest' := heq
      exact hreads.matchAt_eq_none_of_cons (hcopied htext hnone) fun w hw =>
        hbegins (Scans.copy hnone hscans) hw
    | cons d read =>
      obtain ⟨rfl, rfl⟩ := List.cons.inj heq
      have hrest := ih (hfree (List.cons_ne_nil c []) htext) read rest' rfl
      rw [last_cons, Option.or_assoc]
      exact hrest
  | @hit before taken out q hmatch hne hscans ih =>
    intro read rest' heq
    rcases List.append_eq_append_iff.mp heq with ⟨part, rfl, rfl⟩ | ⟨part, hread, rfl⟩
    · have hrest := ih (hfree hne htext)
      cases part with
      | nil =>
        rw [List.append_nil]
        exact hafter hmatch hne hscans hrest.head
      | cons d part =>
        have hlater := hrest (d :: part) rest' rfl
        rw [List.getLast?_append]
        rw [List.getLast?_cons] at hlater ⊢
        exact hlater
    · cases part with
      | nil =>
        rw [List.append_nil] at hread
        rw [← hread]
        exact hafter hmatch hne hscans (ih (hfree hne htext)).head
      | cons d part =>
        exact hinside htext hmatch hscans hread (List.cons_ne_nil d part)

/-! ## Marks -/

/-- A replacement keeps the beginning of its match and goes on with a mark. -/
def Marks (isWord : Char → Bool) (rule : Rule) (mark : Char) (tail : List Char) : Prop :=
  ∀ {before taken q}, rule.matchAt isWord before (taken ++ q.rest) = some q →
    ∃ kept, rule.replacement q = kept ++ mark :: tail ∧ kept <+: taken

variable {mark : Char} {tail w : List Char}

/-- A word without the mark that begins before it ends before it. -/
theorem prefix_of_mark {kept more : List Char} (hw : mark ∉ w) (h : w <+: kept ++ mark :: more) :
    w <+: kept := by
  obtain ⟨after, hafter⟩ := h
  rcases List.append_eq_append_iff.mp hafter with ⟨part, rfl, -⟩ | ⟨part, rfl, hpart⟩
  · exact List.prefix_append w part
  · cases part with
    | nil => exact ⟨[], by rw [List.append_nil, List.append_nil]⟩
    | cons d part =>
      obtain ⟨rfl, -⟩ := List.cons.inj hpart
      exact absurd (List.mem_append_right kept List.mem_cons_self) hw

/-- A word without the mark that begins the result begins the text. -/
theorem prefix_of_scans (hmarks : rule.Marks isWord mark tail)
    (hscans : Scans isWord rule before text out) (hw : mark ∉ w) (h : w <+: out) : w <+: text := by
  induction hscans generalizing w with
  | nil => exact h
  | copy hnone hscans ih =>
    cases w with
    | nil => exact List.nil_prefix
    | cons d w =>
      obtain ⟨rfl, hbegin⟩ := List.cons_prefix_cons.mp h
      exact List.cons_prefix_cons.mpr
        ⟨rfl, ih (fun hmem => hw (List.mem_cons_of_mem _ hmem)) hbegin⟩
  | hit hmatch hne hscans ih =>
    obtain ⟨kept, hreplacement, hkept⟩ := hmarks hmatch
    rw [hreplacement, List.append_assoc] at h
    exact (prefix_of_mark hw h).trans (hkept.trans (List.prefix_append _ _))

/-- A word without the mark that begins inside a replacement begins in what is kept. -/
theorem inside_cases {read part : List Char} (hmarks : rule.Marks isWord mark tail)
    (hmatch : rule.matchAt isWord before (taken ++ q.rest) = some q)
    (hreplacement : rule.replacement q = read ++ part) (hpart : part ≠ []) (hw : mark ∉ w)
    (hne : w ≠ []) (h : w <+: part ++ out) :
    (∃ more, taken = read ++ more ∧ w <+: more) ∨ ∃ c ∈ tail, w.head? = some c := by
  obtain ⟨kept, hkept, after, rfl⟩ := hmarks hmatch
  rw [hkept] at hreplacement
  rcases List.append_eq_append_iff.mp hreplacement with ⟨part', rfl, hpart'⟩ | ⟨part', rfl, rfl⟩
  · right
    obtain ⟨c, w, rfl⟩ := List.exists_cons_of_ne_nil hne
    obtain ⟨d, part, rfl⟩ := List.exists_cons_of_ne_nil hpart
    obtain ⟨rfl, -⟩ := List.cons_prefix_cons.mp h
    have hmem : c ∈ mark :: tail := by
      rw [hpart']
      exact List.mem_append_right part' List.mem_cons_self
    rcases List.mem_cons.mp hmem with rfl | hmem
    · exact absurd List.mem_cons_self hw
    · exact ⟨c, hmem, rfl⟩
  · left
    rw [List.append_assoc, List.cons_append] at h
    exact ⟨part' ++ after, List.append_assoc .., (prefix_of_mark hw h).trans
      (List.prefix_append _ _)⟩

end Rule

end RelyLoop.Text
