import RelyLoop.Redaction.Tokens

/-!
# Redacted texts

A redacted text has no match of any rule. Each rule leaves a text without matches of its own, and
the later rules bring none back: a placeholder ends every token that reaches it, and no token
begins inside a placeholder.
-/

namespace RelyLoop.Redaction

open Python Text Text.Rule

variable {isWord : Char → Bool} {w text out : List Char} {p q : Progress} {c : Char}

/-! ## Tokens -/

/-- `github_pat_` and at least 20 characters. -/
def GithubPat (w : List Char) : Prop :=
  ∃ u run, u = "github_pat_".toList ∧ (20 ≤ run.length ∧ ∀ c ∈ run, ghChar c = true) ∧ w = u ++ run

/-- `gh`, a letter, an underscore and at least 36 characters. -/
def GhShort (w : List Char) : Prop :=
  ∃ letter run, letter.isLower = true ∧ 36 ≤ run.length ∧ (∀ c ∈ run, ghChar c = true) ∧
    w = 'g' :: 'h' :: letter :: '_' :: run

/-- `sk-` and at least 20 characters. -/
def OpenAiKey (w : List Char) : Prop :=
  ∃ u run, u = "sk-".toList ∧ (20 ≤ run.length ∧ ∀ c ∈ run, keyChar c = true) ∧ w = u ++ run

/-- The scheme and the user of a connection URI, up to the password. -/
def DsnPrefix (w : List Char) : Prop :=
  ∃ c scheme user, schemeStart c = true ∧ (∀ c ∈ scheme, schemeChar c = true) ∧
    (∀ c ∈ user, userChar c = true) ∧ w = c :: scheme ++ "://".toList ++ user ++ ":".toList

/-- A connection URI up to its host. -/
def Dsn (w : List Char) : Prop :=
  ∃ begin password, DsnPrefix begin ∧ password ≠ [] ∧ (∀ c ∈ password, passwordChar c = true) ∧
    w = begin ++ password ++ ['@']

theorem spells_githubPat :
    (Captures.seq (.lit "github_pat_".toList) (.atLeast 20 ghChar)).Spells GithubPat :=
  (Captures.spells_lit _).seq (Captures.spells_atLeast _ _)

theorem spells_openAiKey :
    (Captures.seq (.lit "sk-".toList) (.atLeast 20 keyChar)).Spells OpenAiKey :=
  (Captures.spells_lit _).seq (Captures.spells_atLeast _ _)

theorem spells_ghShort : (Captures.chain [.lit "gh".toList, .one Char.isLower, .one (· == '_'),
    .atLeast 36 ghChar]).Spells GhShort := by
  intro p q
  have h := (Captures.spells_lit "gh".toList).seq <| (Captures.spells_one Char.isLower).seq <|
    (Captures.spells_one (· == '_')).seq <| (Captures.spells_atLeast 36 ghChar).seq
      Captures.spells_empty
  refine (h p q).trans ?_
  constructor
  · rintro ⟨_, ⟨_, _, rfl, ⟨_, _, ⟨letter, hletter, rfl⟩, ⟨_, _, ⟨c, hc, rfl⟩,
      ⟨run, _, ⟨hlength, hrun⟩, rfl, rfl⟩, rfl⟩, rfl⟩, rfl⟩, hrest⟩
    obtain rfl : c = '_' := by simpa using hc
    refine ⟨_, ⟨letter, run, hletter, hlength, hrun, rfl⟩, ?_⟩
    simpa using hrest
  · rintro ⟨_, ⟨letter, run, hletter, hlength, hrun, rfl⟩, hrest⟩
    refine ⟨_, ⟨_, _, rfl, ⟨_, _, ⟨letter, hletter, rfl⟩, ⟨_, _, ⟨'_', rfl, rfl⟩,
      ⟨run, _, ⟨hlength, hrun⟩, rfl, rfl⟩, rfl⟩, rfl⟩, rfl⟩, ?_⟩
    simpa using hrest

theorem reads_ghTokenRule : ghTokenRule.Reads fun w => GithubPat w ∨ GhShort w where
  matchStart_iff text := by
    rw [matchStart_isSome_iff]
    simp only [ghTokenRule, List.mem_cons, List.not_mem_nil, or_false,
      exists_eq_left, spells_githubPat.exists_iff, spells_ghShort.exists_iff, or_and_right,
      exists_or]
  not_nil := by
    rintro (⟨u, run, rfl, -, h⟩ | ⟨letter, run, -, -, -, h⟩) <;> cases h

theorem reads_openAiKeyRule : openAiKeyRule.Reads OpenAiKey where
  matchStart_iff text := by
    rw [matchStart_isSome_iff]
    simp only [openAiKeyRule, List.mem_singleton, exists_eq_left, spells_openAiKey.exists_iff]
  not_nil := by
    rintro ⟨u, run, rfl, -, h⟩
    cases h

theorem spells_dsnPrefix : (Captures.chain [.one schemeStart, .star schemeChar,
    .lit "://".toList, .star userChar, .lit ":".toList]).Spells DsnPrefix := by
  intro p q
  have h := (Captures.spells_one schemeStart).seq <| (Captures.spells_star schemeChar).seq <|
    (Captures.spells_lit "://".toList).seq <| (Captures.spells_star userChar).seq <|
      (Captures.spells_lit ":".toList).seq Captures.spells_empty
  refine (h p q).trans ?_
  constructor
  · rintro ⟨_, ⟨_, _, ⟨c, hc, rfl⟩, ⟨scheme, _, hscheme, ⟨_, _, rfl, ⟨user, _, huser,
      ⟨_, _, rfl, rfl, rfl⟩, rfl⟩, rfl⟩, rfl⟩, rfl⟩, hrest⟩
    refine ⟨_, ⟨c, scheme, user, hc, hscheme, huser, rfl⟩, ?_⟩
    simpa using hrest
  · rintro ⟨_, ⟨c, scheme, user, hc, hscheme, huser, rfl⟩, hrest⟩
    refine ⟨_, ⟨_, _, ⟨c, hc, rfl⟩, ⟨scheme, _, hscheme, ⟨_, _, rfl, ⟨user, _, huser,
      ⟨_, _, rfl, rfl, rfl⟩, rfl⟩, rfl⟩, rfl⟩, rfl⟩, ?_⟩
    simpa using hrest

/-- What a match of a connection URI holds in its groups. -/
theorem mem_ends_dsn {r : Captures} (hr : r ∈ dsnPasswordRule.alternatives) :
    q ∈ r.ends ⟨[], text⟩ ↔ ∃ begin password, DsnPrefix begin ∧ password ≠ [] ∧
      (∀ c ∈ password, passwordChar c = true) ∧ text = begin ++ password ++ '@' :: q.rest ∧
        q.groups = [(2, ['@']), (1, begin)] := by
  obtain rfl := List.mem_singleton.mp hr
  rw [Captures.mem_ends_chain_cons]
  constructor
  · rintro ⟨s, hs, hq⟩
    obtain ⟨s', hs', rfl⟩ := Captures.mem_ends_group.mp hs
    obtain ⟨begin, hbegin, hrest, hgroups⟩ := (spells_dsnPrefix _ _).mp hs'
    rw [Progress.taken_of_append hrest] at hq
    obtain ⟨t, ht, hq⟩ := Captures.mem_ends_chain_cons.mp hq
    obtain ⟨password, hne, hpassword, hrest', hgroups'⟩ :=
      (Captures.mem_ends_many (Or.inl rfl)).mp ht
    obtain ⟨t', ht', hq⟩ := Captures.mem_ends_chain_cons.mp hq
    obtain rfl := Captures.mem_ends_chain_nil.mp hq
    obtain ⟨t'', ht'', rfl⟩ := Captures.mem_ends_group.mp ht'
    obtain ⟨hrest'', hgroups''⟩ := Captures.mem_ends_lit.mp ht''
    refine ⟨begin, password, hbegin, hne, hpassword, ?_, ?_⟩
    · simp only at hrest hrest'
      rw [hrest, hrest', hrest'', List.append_assoc]
      rfl
    · rw [Progress.taken_of_append hrest'', hgroups'', hgroups', hgroups]
      rfl
  · rintro ⟨begin, password, hbegin, hne, hpassword, rfl, hgroups⟩
    obtain ⟨groups, rest⟩ := q
    obtain rfl : groups = [(2, ['@']), (1, begin)] := hgroups
    have hfirst : (⟨[], begin ++ password ++ '@' :: rest⟩ : Progress).taken
        ⟨[], password ++ '@' :: rest⟩ = begin := Progress.taken_of_append (List.append_assoc ..)
    have hsecond : (⟨[(1, begin)], '@' :: rest⟩ : Progress).taken ⟨[(1, begin)], rest⟩ = ['@'] :=
      Progress.taken_of_append rfl
    refine ⟨⟨[(1, begin)], password ++ '@' :: rest⟩, ?_, ?_⟩
    · apply Captures.mem_ends_group.mpr
      refine ⟨⟨[], password ++ '@' :: rest⟩, ?_, by rw [hfirst]⟩
      exact (spells_dsnPrefix _ _).mpr ⟨begin, hbegin, List.append_assoc .., rfl⟩
    · apply Captures.mem_ends_chain_cons.mpr
      refine ⟨⟨[(1, begin)], '@' :: rest⟩, ?_, ?_⟩
      · exact (Captures.mem_ends_many (Or.inl rfl)).mpr ⟨password, hne, hpassword, rfl, rfl⟩
      · apply Captures.mem_ends_chain_cons.mpr
        refine ⟨_, ?_, Captures.mem_ends_chain_nil.mpr rfl⟩
        apply Captures.mem_ends_group.mpr
        refine ⟨⟨[(1, begin)], rest⟩, ?_, by rw [hsecond]⟩
        exact Captures.mem_ends_lit.mpr ⟨rfl, rfl⟩

theorem reads_dsnPasswordRule : dsnPasswordRule.Reads Dsn where
  matchStart_iff text := by
    rw [matchStart_isSome_iff]
    constructor
    · rintro ⟨r, hr, q, hq⟩
      obtain ⟨begin, password, hbegin, hne, hpassword, rfl, -⟩ := (mem_ends_dsn hr).mp hq
      refine ⟨_, ⟨begin, password, hbegin, hne, hpassword, rfl⟩, q.rest, ?_⟩
      rw [List.append_assoc (begin ++ password)]
      rfl
    · rintro ⟨_, ⟨begin, password, hbegin, hne, hpassword, rfl⟩, rest, rfl⟩
      refine ⟨_, List.mem_singleton.mpr rfl, ⟨[(2, ['@']), (1, begin)], rest⟩, ?_⟩
      refine (mem_ends_dsn (List.mem_singleton.mpr rfl)).mpr
        ⟨begin, password, hbegin, hne, hpassword, ?_, rfl⟩
      rw [List.append_assoc (begin ++ password)]
      rfl
  not_nil := by
    rintro ⟨begin, password, -, -, -, h⟩
    have hlength := congrArg List.length h
    simp at hlength

/-- The match of a connection URI. -/
theorem dsn_of_matchAt {before : Option Char} {taken : List Char}
    (h : dsnPasswordRule.matchAt isWord before (taken ++ q.rest) = some q) :
    ∃ begin password, DsnPrefix begin ∧ taken = begin ++ password ++ ['@'] ∧
      dsnPasswordRule.replacement q = begin ++ "[REDACTED-URL-PASSWORD]".toList ++ ['@'] := by
  obtain ⟨r, hr, hq⟩ := exists_mem_ends (matchStart_of_matchAt h)
  obtain ⟨begin, password, hbegin, -, -, htext, hgroups⟩ := (mem_ends_dsn hr).mp hq
  refine ⟨begin, password, hbegin, ?_, ?_⟩
  · have hsame : taken ++ q.rest = begin ++ password ++ ['@'] ++ q.rest := by
      rw [htext, List.append_assoc (begin ++ password)]
      rfl
    exact List.append_cancel_right hsame
  · simp only [dsnPasswordRule, Progress.group, hgroups]
    rfl

/-! ## Every match takes a character -/

theorem consumes_ghTokenRule : ghTokenRule.Consumes := by
  intro text q h
  obtain ⟨r, hr, hq⟩ := exists_mem_ends h
  simp only [ghTokenRule, List.mem_cons, List.not_mem_nil, or_false] at hr
  rcases hr with rfl | rfl
  · exact spells_githubPat.length_lt (fun h => reads_ghTokenRule.not_nil (Or.inl h)) hq
  · exact spells_ghShort.length_lt (fun h => reads_ghTokenRule.not_nil (Or.inr h)) hq

theorem consumes_openAiKeyRule : openAiKeyRule.Consumes := by
  intro text q h
  obtain ⟨r, hr, hq⟩ := exists_mem_ends h
  obtain rfl := List.mem_singleton.mp hr
  exact spells_openAiKey.length_lt reads_openAiKeyRule.not_nil hq

theorem consumes_dsnPasswordRule : dsnPasswordRule.Consumes := by
  intro text q h
  obtain ⟨r, hr, hq⟩ := exists_mem_ends h
  obtain ⟨begin, password, -, -, -, rfl, -⟩ := (mem_ends_dsn hr).mp hq
  simp only [List.length_append, List.length_cons]
  omega

/-! ## Placeholders -/

theorem marks_ghTokenRule :
    ghTokenRule.Marks isWord '[' "REDACTED-GH-TOKEN]".toList := by
  intro before taken q _
  exact ⟨[], rfl, List.nil_prefix⟩

theorem marks_openAiKeyRule :
    openAiKeyRule.Marks isWord '[' "REDACTED-OPENAI-KEY]".toList := by
  intro before taken q _
  exact ⟨[], rfl, List.nil_prefix⟩

theorem marks_dsnPasswordRule :
    dsnPasswordRule.Marks isWord '[' "REDACTED-URL-PASSWORD]@".toList := by
  intro before taken q h
  obtain ⟨begin, password, -, rfl, hreplacement⟩ := dsn_of_matchAt h
  refine ⟨begin, ?_, ?_⟩
  · rw [hreplacement, List.append_assoc]
    rfl
  · rw [List.append_assoc]
    exact List.prefix_append _ _

/-- A word of a language has no bracket and begins with a letter. -/
structure Unbracketed (letter : Char) (w : List Char) : Prop where
  noBracket : '[' ∉ w
  head : w.head? = some letter

theorem unbracketed_gh (hw : GithubPat w ∨ GhShort w) : Unbracketed 'g' w := by
  have hchar : ghChar '[' = false := by decide
  rcases hw with ⟨_, run, rfl, ⟨-, hrun⟩, rfl⟩ | ⟨letter, run, hletter, -, hrun, rfl⟩
  · constructor
    · intro hmem
      rcases List.mem_append.mp hmem with hmem | hmem
      · revert hmem
        decide
      · rw [hrun _ hmem] at hchar
        cases hchar
    · rfl
  · constructor
    · intro hmem
      simp only [List.mem_cons] at hmem
      rcases hmem with h | h | h | h | hmem
      · exact absurd h (by decide)
      · exact absurd h (by decide)
      · rw [← h] at hletter
        exact absurd hletter (by decide)
      · exact absurd h (by decide)
      · rw [hrun _ hmem] at hchar
        cases hchar
    · rfl

theorem unbracketed_openAi (hw : OpenAiKey w) : Unbracketed 's' w := by
  have hchar : keyChar '[' = false := by decide
  obtain ⟨_, run, rfl, ⟨-, hrun⟩, rfl⟩ := hw
  constructor
  · intro hmem
    rcases List.mem_append.mp hmem with hmem | hmem
    · revert hmem
      decide
    · rw [hrun _ hmem] at hchar
      cases hchar
  · rfl

theorem Unbracketed.ne_nil {letter : Char} (h : Unbracketed letter w) : w ≠ [] := by
  rintro rfl
  cases h.head

/-- No word begins with a letter that is not there. -/
theorem not_prefix_of_head {part : List Char} {letter : Char} (hw : w.head? = some letter)
    (hpart : part ≠ []) (hletter : letter ∉ part) : ¬w <+: part ++ out := by
  intro h
  obtain ⟨d, part, rfl⟩ := List.exists_cons_of_ne_nil hpart
  cases w with
  | nil => cases hw
  | cons c w =>
    obtain ⟨rfl, -⟩ := List.cons_prefix_cons.mp h
    obtain rfl : c = letter := Option.some.inj hw
    exact hletter List.mem_cons_self

/-! ## Rules on their own results -/

theorem clean_ghToken_self (text : List Char) :
    ghTokenRule.Clean isWord none (ghTokenRule.sub isWord text) := by
  refine clean_of_scans (fun _ _ => True) reads_ghTokenRule (fun _ _ => trivial)
    (fun _ h => h) ?_ ?_ ?_ (scans_subFrom consumes_ghTokenRule none text) trivial
  · intro before text out w hscans hw h
    exact prefix_of_scans marks_ghTokenRule hscans (unbracketed_gh hw).noBracket h
  · intro before taken q out read part _ _ _ hreplacement hpart
    rw [reads_ghTokenRule.matchAt_eq_none_iff]
    intro _ w hw
    apply not_prefix_of_head (unbracketed_gh hw).head hpart
    intro hmem
    have hall : 'g' ∉ "[REDACTED-GH-TOKEN]".toList := by decide
    have hreplaced : "[REDACTED-GH-TOKEN]".toList = read ++ part := hreplacement
    rw [hreplaced] at hall
    exact hall (List.mem_append_right read hmem)
  · intro before taken q out _ _ _ hnone
    rw [matchAt_of_not_bounded rfl] at hnone ⊢
    exact hnone

/-- What follows a key is no character of it. -/
theorem head?_of_openAiKey {before : Option Char} {taken : List Char}
    (h : openAiKeyRule.matchAt isWord before (taken ++ q.rest) = some q) :
    ∀ c ∈ q.rest.head?, keyChar c = false := by
  have hstart := matchStart_of_matchAt h
  simp only [matchStart, openAiKeyRule, List.findSome?_cons, List.findSome?_nil] at hstart
  have hmatch : (Captures.seq (.lit "sk-".toList) (.atLeast 20 keyChar)).matchStart
      (taken ++ q.rest) = some q := by
    cases hfirst : (Captures.seq (.lit "sk-".toList) (.atLeast 20 keyChar)).matchStart
      (taken ++ q.rest) with
    | none =>
      rw [hfirst] at hstart
      cases hstart
    | some q' =>
      rw [hfirst] at hstart
      exact hstart
  exact (Captures.greedy_atLeast 20 keyChar).lit_seq _ _ q hmatch

theorem clean_openAiKey_self (text : List Char) :
    openAiKeyRule.Clean isWord none (openAiKeyRule.sub isWord text) := by
  have hbegins {before : Option Char} {text out w : List Char}
      (hscans : Scans isWord openAiKeyRule before text out) (hw : OpenAiKey w) (h : w <+: out) :
      w <+: text :=
    prefix_of_scans marks_openAiKeyRule hscans (unbracketed_openAi hw).noBracket h
  refine clean_of_scans (fun _ _ => True) reads_openAiKeyRule (fun _ _ => trivial)
    (fun _ h => h) hbegins ?_ ?_ (scans_subFrom consumes_openAiKeyRule none text) trivial
  · intro before taken q out read part _ _ _ hreplacement hpart
    rw [reads_openAiKeyRule.matchAt_eq_none_iff]
    intro _ w hw
    apply not_prefix_of_head (unbracketed_openAi hw).head hpart
    intro hmem
    have hall : 's' ∉ "[REDACTED-OPENAI-KEY]".toList := by decide
    have hreplaced : "[REDACTED-OPENAI-KEY]".toList = read ++ part := hreplacement
    rw [hreplaced] at hall
    exact hall (List.mem_append_right read hmem)
  · intro before taken q out hmatch _ hscans _
    rw [reads_openAiKeyRule.matchAt_eq_none_iff]
    intro _ w hw h
    have hbegin := hbegins hscans hw h
    have hhead := (unbracketed_openAi hw).head
    cases w with
    | nil => cases hhead
    | cons c w =>
      obtain rfl : c = 's' := Option.some.inj hhead
      obtain ⟨after, hafter⟩ := hbegin
      have hchar := head?_of_openAiKey hmatch 's' (by rw [← hafter]; rfl)
      exact absurd hchar (by decide)

/-- The end of a word behind which the only `@` stands, and before it no bracket. -/
def EndsUri (w : List Char) : Prop :=
  ∃ x, w = x ++ ['@'] ∧ '@' ∉ x ∧ x.getLast? ≠ some ']'

theorem EndsUri.tail (h : EndsUri (c :: w)) (hw : w ≠ []) : EndsUri w := by
  obtain ⟨x, hx, hat, hlast⟩ := h
  cases x with
  | nil => exact absurd (List.cons.inj hx).2 hw
  | cons d x =>
    obtain ⟨rfl, rfl⟩ := List.cons.inj hx
    refine ⟨x, rfl, fun hmem => hat (List.mem_cons_of_mem _ hmem), ?_⟩
    cases x with
    | nil => simp
    | cons d x => rwa [List.getLast?_cons_cons] at hlast

/-- It does not end at an `@` behind a bracket. -/
theorem EndsUri.not_prefix {s : List Char} (h : EndsUri w) (hat : '@' ∉ s)
    (hlast : s.getLast? = some ']') : ¬w <+: s ++ '@' :: out := by
  rintro ⟨after, hafter⟩
  obtain ⟨x, rfl, hx, hne⟩ := h
  have hnot {t : List Char} (ht : '@' ∉ t) (rest : List Char) :
      (t ++ '@' :: rest).takeWhile (· ≠ '@') = t := by
    rw [List.takeWhile_append_of_pos, List.takeWhile_cons_of_neg (by simp), List.append_nil]
    intro c hc
    have hc' : c ≠ '@' := fun heq => ht (heq ▸ hc)
    simpa using hc'
  have htake := congrArg (List.takeWhile fun c => decide (c ≠ '@')) hafter
  rw [List.append_assoc, List.singleton_append, hnot hx, hnot hat] at htake
  exact hne (htake ▸ hlast)

theorem at_not_mem_dsnPrefix {begin : List Char} (h : DsnPrefix begin) : '@' ∉ begin := by
  obtain ⟨c, scheme, user, hc, hscheme, huser, rfl⟩ := h
  have hstart : schemeStart '@' = false := by decide
  have hchar : schemeChar '@' = false := by decide
  have huserChar : userChar '@' = false := by simp [userChar]
  simp only [List.mem_append, List.mem_cons, not_or]
  refine ⟨⟨⟨⟨?_, ?_⟩, by decide⟩, ?_⟩, by decide⟩
  · rintro rfl
    rw [hc] at hstart
    cases hstart
  · intro hmem
    rw [hscheme _ hmem] at hchar
    cases hchar
  · intro hmem
    rw [huser _ hmem] at huserChar
    cases huserChar

/-- A connection URI has its only `@` at the end, behind the password. -/
theorem Dsn.endsUri (h : Dsn w) : EndsUri w ∧ w.head? ≠ some '@' := by
  obtain ⟨begin, password, hbegin, hne, hpassword, rfl⟩ := h
  have hat : passwordChar '@' = false := by simp [passwordChar]
  have hbracket : passwordChar ']' = false := by simp [passwordChar]
  have hbegin' := at_not_mem_dsnPrefix hbegin
  refine ⟨⟨begin ++ password, rfl, ?_, ?_⟩, ?_⟩
  · intro hmem
    rcases List.mem_append.mp hmem with hmem | hmem
    · exact hbegin' hmem
    · rw [hpassword _ hmem] at hat
      cases hat
  · intro hlast
    rw [List.getLast?_append_of_ne_nil _ hne] at hlast
    rw [hpassword _ (List.mem_of_getLast? hlast)] at hbracket
    cases hbracket
  · obtain ⟨c, scheme, user, -, -, -, rfl⟩ := hbegin
    intro hhead
    obtain rfl : c = '@' := Option.some.inj hhead
    exact hbegin' List.mem_cons_self

/-- A replaced password. -/
theorem replaced_dsn {before : Option Char} {taken : List Char}
    (h : dsnPasswordRule.matchAt isWord before (taken ++ q.rest) = some q) :
    ∃ s, dsnPasswordRule.replacement q = s ++ ['@'] ∧ '@' ∉ s ∧ s.getLast? = some ']' := by
  obtain ⟨begin, password, hbegin, -, hreplacement⟩ := dsn_of_matchAt h
  refine ⟨begin ++ "[REDACTED-URL-PASSWORD]".toList, hreplacement, ?_, ?_⟩
  · intro hmem
    rcases List.mem_append.mp hmem with hmem | hmem
    · exact at_not_mem_dsnPrefix hbegin hmem
    · revert hmem
      decide
  · rw [List.getLast?_append_of_ne_nil _ (by decide)]
    rfl

theorem endsUri_prefix_of_scans {before : Option Char}
    (hscans : Scans isWord dsnPasswordRule before text out) (hw : EndsUri w) (h : w <+: out) :
    w <+: text := by
  induction hscans generalizing w with
  | nil => exact h
  | @copy before c rest out hnone hscans ih =>
    cases w with
    | nil => exact List.nil_prefix
    | cons d w =>
      obtain ⟨rfl, hbegin⟩ := List.cons_prefix_cons.mp h
      apply List.cons_prefix_cons.mpr
      refine ⟨rfl, ?_⟩
      by_cases hne : w = []
      · rw [hne]
        exact List.nil_prefix
      · exact ih (hw.tail hne) hbegin
  | hit hmatch hne hscans ih =>
    obtain ⟨s, hs, hat, hlast⟩ := replaced_dsn hmatch
    rw [hs, List.append_assoc] at h
    exact absurd h (hw.not_prefix hat hlast)

theorem clean_dsnPassword_self (text : List Char) :
    dsnPasswordRule.Clean isWord none (dsnPasswordRule.sub isWord text) := by
  refine clean_of_scans (fun _ _ => True) reads_dsnPasswordRule (fun _ _ => trivial)
    (fun _ h => h) ?_ ?_ ?_ (scans_subFrom consumes_dsnPasswordRule none text) trivial
  · intro before text out w hscans hw h
    exact endsUri_prefix_of_scans hscans hw.endsUri.1 h
  · intro before taken q out read part _ hmatch _ hreplacement hpart
    rw [reads_dsnPasswordRule.matchAt_eq_none_iff]
    intro _ w hw h
    obtain ⟨hends, hhead⟩ := hw.endsUri
    obtain ⟨s, hs, hat, hlast⟩ := replaced_dsn hmatch
    rw [hs] at hreplacement
    obtain ⟨bs, hbs, rfl⟩ : ∃ bs, bs <:+ s ∧ part = bs ++ ['@'] := by
      rcases List.append_eq_append_iff.mp hreplacement with ⟨as, -, hpart'⟩ | ⟨bs, rfl, rfl⟩
      · cases as with
        | nil => exact ⟨[], List.nil_suffix, hpart'.symm⟩
        | cons d as =>
          have hnil : as ++ part = [] := (List.cons.inj hpart').2.symm
          exact absurd (List.append_eq_nil_iff.mp hnil).2 hpart
      · exact ⟨bs, List.suffix_append read bs, rfl⟩
    rw [List.append_assoc] at h
    by_cases hne : bs = []
    · subst hne
      obtain ⟨d, w, rfl⟩ := List.exists_cons_of_ne_nil fun hnil : w = [] =>
        reads_dsnPasswordRule.not_nil (hnil ▸ hw)
      exact hhead (congrArg some (List.cons_prefix_cons.mp h).1)
    · obtain ⟨first, rfl⟩ := hbs
      rw [List.getLast?_append_of_ne_nil _ hne] at hlast
      exact hends.not_prefix (fun hmem => hat (List.mem_append_right first hmem)) hlast h
  · intro before taken q out _ _ _ hnone
    rw [matchAt_of_not_bounded rfl] at hnone ⊢
    exact hnone

/-! ## Rules on the results of other rules -/

/-- A rule brings no words back that begin with a letter of no placeholder. -/
theorem clean_of_marks {rule rule' : Rule} {words : List Char → Prop} {tail : List Char}
    {letter : Char} (hreads : rule'.Reads words) (hmarks : rule.Marks isWord '[' tail)
    (hconsumes : rule.Consumes) (hwords : ∀ w, words w → Unbracketed letter w)
    (hletter : letter ∉ tail)
    (hlast : rule'.bounded = true → ∀ {before taken q},
      rule.matchAt isWord before (taken ++ q.rest) = some q →
        (rule.replacement q).getLast?.or before = taken.getLast?)
    (h : rule'.Clean isWord none text) : rule'.Clean isWord none (rule.sub isWord text) := by
  refine clean_of_scans (fun before text => rule'.Clean isWord before text) hreads ?_
    (fun h _ => h.head) ?_ ?_ ?_ (scans_subFrom hconsumes none text) h
  · intro before taken rest hne h
    have hrest := h.append
    obtain ⟨c, taken, rfl⟩ := List.exists_cons_of_ne_nil hne
    rw [last_cons, Option.or_assoc] at hrest
    rw [last_cons]
    exact hrest
  · intro before text out w hscans hw h
    exact prefix_of_scans hmarks hscans (hwords w hw).noBracket h
  · intro before taken q out read part hclean hmatch _ hreplacement hpart
    rw [hreads.matchAt_eq_none_iff]
    intro hbounded w hw h
    obtain ⟨hbracket, hhead⟩ := hwords w hw
    rcases inside_cases hmarks hmatch hreplacement hpart hbracket (hwords w hw).ne_nil h with
      ⟨more, rfl, hmore⟩ | ⟨c, hc, hchead⟩
    · rw [List.append_assoc] at hclean
      have hnone := hclean.append.head
      rw [hreads.matchAt_eq_none_iff] at hnone
      obtain ⟨c, w, rfl⟩ := List.exists_cons_of_ne_nil (hwords w hw).ne_nil
      obtain ⟨after, hafter⟩ := h
      obtain ⟨after', rfl⟩ := hmore
      rw [← hafter] at hbounded
      exact hnone hbounded _ hw (List.prefix_append_of_prefix (List.prefix_append _ _))
    · obtain rfl : letter = c := Option.some.inj (hhead.symm.trans hchead)
      exact hletter hc
  · intro before taken q out hmatch _ _ hnone
    cases hbounded : rule'.bounded with
    | false =>
      rw [matchAt_of_not_bounded hbounded] at hnone ⊢
      exact hnone
    | true => rwa [hlast hbounded hmatch]

/-- A redacted text has no match of any rule. -/
theorem clean_redactToken (isWord : Char → Bool) (text : List Char) :
    ∀ rule ∈ tokenRules, rule.Clean isWord none (redactToken isWord text) := by
  have hgh : ghTokenRule.Clean isWord none (redactToken isWord text) := by
    apply clean_of_marks reads_ghTokenRule marks_dsnPasswordRule consumes_dsnPasswordRule
      (fun w hw => unbracketed_gh hw) (by decide) (fun h => by cases h)
    apply clean_of_marks reads_ghTokenRule marks_openAiKeyRule consumes_openAiKeyRule
      (fun w hw => unbracketed_gh hw) (by decide) (fun h => by cases h)
    exact clean_ghToken_self text
  have hkey : openAiKeyRule.Clean isWord none (redactToken isWord text) := by
    apply clean_of_marks reads_openAiKeyRule marks_dsnPasswordRule consumes_dsnPasswordRule
      (fun w hw => unbracketed_openAi hw) (by decide) ?_ (clean_openAiKey_self _)
    intro _ before taken q hmatch
    obtain ⟨begin, password, -, rfl, hreplacement⟩ := dsn_of_matchAt hmatch
    rw [hreplacement, List.getLast?_concat, List.getLast?_concat]
    rfl
  intro rule hrule
  simp only [tokenRules, List.mem_cons, List.not_mem_nil, or_false] at hrule
  rcases hrule with rfl | rfl | rfl
  · exact hgh
  · exact hkey
  · exact clean_dsnPassword_self _

theorem redactToken_redactToken (isWord : Char → Bool) (text : List Char) :
    redactToken isWord (redactToken isWord text) = redactToken isWord text := by
  have hclean := clean_redactToken isWord text
  generalize redactToken isWord text = redacted at hclean ⊢
  simp only [tokenRules, List.forall_mem_cons] at hclean
  obtain ⟨hgh, hkey, hdsn, -⟩ := hclean
  simp only [redactToken, sub, subFrom_of_clean hgh, subFrom_of_clean hkey, subFrom_of_clean hdsn]

/-! ## Events -/

variable {κ α : Type}

mutual

/-- The texts of a value, at any depth. -/
def textsOf : Value κ α → List (List Char)
  | .str text => [text]
  | .dict entries => textsOfEntries entries
  | .list items => textsOfItems items
  | .tuple items => textsOfItems items
  | .other _ => []

/-- The texts of some items. -/
def textsOfItems : List (Value κ α) → List (List Char)
  | [] => []
  | item :: items => textsOf item ++ textsOfItems items

/-- The texts of some entries. -/
def textsOfEntries : List (κ × Value κ α) → List (List Char)
  | [] => []
  | (_, value) :: entries => textsOf value ++ textsOfEntries entries

end

mutual

/-- A value without its texts. -/
def skeleton : Value κ α → Value κ α
  | .str _ => .str []
  | .dict entries => .dict (skeletonOfEntries entries)
  | .list items => .list (skeletonOfItems items)
  | .tuple items => .tuple (skeletonOfItems items)
  | .other a => .other a

/-- Some items without their texts. -/
def skeletonOfItems : List (Value κ α) → List (Value κ α)
  | [] => []
  | item :: items => skeleton item :: skeletonOfItems items

/-- Some entries without their texts. -/
def skeletonOfEntries : List (κ × Value κ α) → List (κ × Value κ α)
  | [] => []
  | (key, value) :: entries => (key, skeleton value) :: skeletonOfEntries entries

end

mutual

theorem redactValue_spec (isWord : Char → Bool) (value : Value κ α) :
    textsOf (redactValue isWord value) = (textsOf value).map (redactToken isWord) ∧
      skeleton (redactValue isWord value) = skeleton value := by
  cases value with
  | str text => exact ⟨rfl, rfl⟩
  | dict entries =>
    obtain ⟨htexts, hskeleton⟩ := redactEntries_spec isWord entries
    exact ⟨htexts, congrArg Value.dict hskeleton⟩
  | list items =>
    obtain ⟨htexts, hskeleton⟩ := redactItems_spec isWord items
    exact ⟨htexts, congrArg Value.list hskeleton⟩
  | tuple items =>
    obtain ⟨htexts, hskeleton⟩ := redactItems_spec isWord items
    exact ⟨htexts, congrArg Value.tuple hskeleton⟩
  | other a => exact ⟨rfl, rfl⟩

theorem redactItems_spec (isWord : Char → Bool) (items : List (Value κ α)) :
    textsOfItems (redactItems isWord items) = (textsOfItems items).map (redactToken isWord) ∧
      skeletonOfItems (redactItems isWord items) = skeletonOfItems items := by
  cases items with
  | nil => exact ⟨rfl, rfl⟩
  | cons item items =>
    obtain ⟨htexts, hskeleton⟩ := redactValue_spec isWord item
    obtain ⟨htexts', hskeleton'⟩ := redactItems_spec isWord items
    constructor
    · simp only [redactItems, textsOfItems, List.map_append, htexts, htexts']
    · simp only [redactItems, skeletonOfItems, hskeleton, hskeleton']

theorem redactEntries_spec (isWord : Char → Bool) (entries : List (κ × Value κ α)) :
    textsOfEntries (redactEntries isWord entries) =
        (textsOfEntries entries).map (redactToken isWord) ∧
      skeletonOfEntries (redactEntries isWord entries) = skeletonOfEntries entries := by
  cases entries with
  | nil => exact ⟨rfl, rfl⟩
  | cons entry entries =>
    obtain ⟨key, value⟩ := entry
    obtain ⟨htexts, hskeleton⟩ := redactValue_spec isWord value
    obtain ⟨htexts', hskeleton'⟩ := redactEntries_spec isWord entries
    constructor
    · simp only [redactEntries, textsOfEntries, List.map_append, htexts, htexts']
    · simp only [redactEntries, skeletonOfEntries, hskeleton, hskeleton']

end

/-- A redacted text has no token, and redacting it again changes nothing. The log processor
redacts the texts of an event at any depth and leaves everything else as it is. -/
theorem redaction_complete (isWord : Char → Bool) (text : List Char)
    (eventDict : List (κ × Value κ α)) :
    (∀ rule ∈ tokenRules, rule.Clean isWord none (redactToken isWord text)) ∧
    redactToken isWord (redactToken isWord text) = redactToken isWord text ∧
    textsOfEntries (redactTokensProcessor isWord eventDict) =
      (textsOfEntries eventDict).map (redactToken isWord) ∧
    skeletonOfEntries (redactTokensProcessor isWord eventDict) = skeletonOfEntries eventDict :=
  ⟨clean_redactToken isWord text, redactToken_redactToken isWord text,
    redactEntries_spec isWord eventDict⟩

end RelyLoop.Redaction
