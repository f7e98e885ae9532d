import RelyLoop.ConfigRepos.Names

/-!
# Which row a webhook is matched to

The webhook's parser reads the name of an accepted URL exactly when the owner is a GitHub
handle, and then it gives the lowered names. The names are ASCII texts, so of the Unicode
tables only `str.lower` on ASCII matters.
-/

namespace RelyLoop.ConfigRepos

open RelyLoop.Python RelyLoop.Text

/-! ## ASCII characters -/

/-- `str.lower` lowers the letters of an ASCII text one by one. -/
def LowersAscii (table : CharacterTable) : Prop :=
  ∀ text : List Char, (∀ c ∈ text, c.toNat < 128) → table.lower text = text.map Char.toLower

theorem exists_eq_ofNat {c : Char} (h : c.toNat < 128) : ∃ n < 128, c = Char.ofNat n :=
  ⟨c.toNat, h, (Char.ofNat_toNat c).symm⟩

theorem toNat_of_isAlphanum {c : Char} (h : c.isAlphanum = true) : c.toNat < 128 := by
  change ((decide (c.val ≥ 65 ∧ c.val ≤ 90) || (decide (c.val ≥ 97) && decide (c.val ≤ 122))) ||
    (decide (c.val ≥ 48) && decide (c.val ≤ 57))) = true at h
  simp only [Bool.or_eq_true, Bool.and_eq_true, decide_eq_true_eq, UInt32.le_iff_toNat_le,
    ge_iff_le] at h
  change (((65 ≤ c.toNat ∧ c.toNat ≤ 90) ∨ 97 ≤ c.toNat ∧ c.toNat ≤ 122) ∨
    48 ≤ c.toNat ∧ c.toNat ≤ 57) at h
  omega

theorem toNat_of_isNameChar {c : Char} (h : isNameChar c = true) : c.toNat < 128 := by
  simp only [isNameChar, Bool.or_eq_true, beq_iff_eq] at h
  rcases h with ((h | rfl) | rfl) | rfl
  · exact toNat_of_isAlphanum h
  · decide
  · decide
  · decide

/-- What the two parsers use of a character of a name. -/
theorem isNameChar_facts {c : Char} (h : isNameChar c = true) :
    isWhitespace c = false ∧ c ≠ '/' ∧ c.toLower ≠ ':' ∧ c.toLower ≠ '/' ∧
      isLowerNameChar c.toLower = true := by
  have hall : ∀ n < 128, isNameChar (Char.ofNat n) = true →
      isWhitespace (Char.ofNat n) = false ∧ Char.ofNat n ≠ '/' ∧
        (Char.ofNat n).toLower ≠ ':' ∧ (Char.ofNat n).toLower ≠ '/' ∧
        isLowerNameChar (Char.ofNat n).toLower = true := by decide
  obtain ⟨n, hn, rfl⟩ := exists_eq_ofNat (toNat_of_isNameChar h)
  exact hall n hn h

/-- A letter is in the lowered class when it is in the class. -/
theorem isLowerAlnum_toLower {c : Char} (h : c.toNat < 128) :
    isLowerAlnum c.toLower = c.isAlphanum ∧ (c.toLower == '-') = (c == '-') := by
  have hall : ∀ n < 128, isLowerAlnum (Char.ofNat n).toLower = (Char.ofNat n).isAlphanum ∧
      ((Char.ofNat n).toLower == '-') = (Char.ofNat n == '-') := by decide
  obtain ⟨n, hn, rfl⟩ := exists_eq_ofNat h
  exact hall n hn

theorem isHandleOver_map_toLower {owner : List Char} (h : ∀ c ∈ owner, c.toNat < 128) :
    IsHandleOver isLowerAlnum (owner.map Char.toLower) ↔ IsHandle owner := by
  have hchar : ∀ c ∈ owner, isLowerAlnum c.toLower = c.isAlphanum ∧
      (c.toLower == '-') = (c == '-') := fun c hc => isLowerAlnum_toLower (h c hc)
  have hend : ∀ o : Option Char, (∀ c ∈ o, c ∈ owner) →
      ((∃ c ∈ o.map Char.toLower, isLowerAlnum c = true) ↔ ∃ c ∈ o, c.isAlphanum = true) := by
    rintro (_ | c) ho
    · simp
    · simp [(hchar c (ho c rfl)).1]
  simp only [IsHandle, IsHandleOver, List.head?_map, List.getLast?_map, List.forall_mem_map]
  rw [hend _ fun c hc => List.mem_of_mem_head? hc,
    hend _ fun c hc => List.mem_of_mem_getLast? hc]
  refine and_congr_left fun _ => forall₂_congr fun c hc => ?_
  rw [(hchar c hc).1, (hchar c hc).2]

/-! ## The two grammars -/

section

variable {p q : Progress} {url text : List Char}

/-- What the owner's group of `_FULL_NAME_PATTERN` reads. -/
theorem mem_ends_handle :
    q ∈ (Captures.seq (.one isLowerAlnum)
        (.opt (.seq (.star isHandleChar) (.one isLowerAlnum)))).ends p ↔
      ∃ owner, IsHandleOver isLowerAlnum owner ∧ p.rest = owner ++ q.rest ∧
        q.groups = p.groups := by
  simp only [Captures.mem_ends_seq, Captures.mem_ends_opt, Captures.mem_ends_one,
    Captures.mem_ends_star]
  constructor
  · rintro ⟨s, ⟨c, hc, hrest, hgroups⟩, ⟨t, ⟨run, hrun, hrest', hgroups'⟩, d, hd, hrest'', hgroups''⟩
      | rfl⟩
    · refine ⟨c :: run ++ [d], ⟨?_, ⟨c, rfl, hc⟩, d, List.getLast?_concat, hd⟩, ?_, ?_⟩
      · simp only [List.mem_append, List.mem_cons, List.not_mem_nil, or_false]
        rintro e ((rfl | he) | rfl)
        · simp [hc]
        · exact hrun e he
        · simp [hd]
      · simp [hrest, hrest', hrest'']
      · rw [hgroups'', hgroups', hgroups]
    · exact ⟨[c], ⟨by simp [hc], ⟨c, rfl, hc⟩, c, rfl, hc⟩, hrest, hgroups⟩
  · rintro ⟨_ | ⟨c, cs⟩, ⟨hall, ⟨_, hhead, hc⟩, d, hlast, hd⟩, hrest, hgroups⟩
    · simp at hhead
    · obtain rfl := Option.mem_some_iff.mp hhead
      refine ⟨⟨p.groups, cs ++ q.rest⟩, ⟨c, hc, hrest, rfl⟩, ?_⟩
      obtain rfl | ⟨run, e, rfl⟩ := cs.eq_nil_or_concat'
      · exact .inr (by cases q; simp_all)
      · have hde : e = d := by
          rw [← List.cons_append, List.getLast?_concat] at hlast
          exact Option.mem_some_iff.mp hlast
        refine .inl ⟨⟨p.groups, e :: q.rest⟩, ⟨run, fun x hx => ?_, by simp, rfl⟩,
          e, hde ▸ hd, rfl, hgroups⟩
        exact hall x (by simp [hx])

/-- What `_FULL_NAME_PATTERN` reads from the start of a text. -/
theorem mem_fullNamePattern : q ∈ fullNamePattern.ends ⟨[], text⟩ ↔
    ∃ owner repo, IsHandleOver isLowerAlnum owner ∧
      (repo ≠ [] ∧ ∀ c ∈ repo, isLowerNameChar c = true) ∧
      text = fullName owner (repo ++ q.rest) ∧ (q.rest = [] ∨ q.rest = ['\n']) ∧
      q.groups = [(2, repo), (1, owner)] := by
  simp only [fullNamePattern, Captures.mem_ends_chain_cons, Captures.mem_ends_chain_nil,
    Captures.mem_ends_group, Captures.mem_ends_many (.inl rfl), Captures.mem_ends_finish,
    Captures.mem_ends_one, mem_ends_handle]
  constructor
  · rintro ⟨_, ⟨s, ⟨owner, howner, hrest, hgroups⟩, rfl⟩, t, ⟨c, hc, hrest', hgroups'⟩,
      _, ⟨u, ⟨repo, hne, hrepo, hrest'', hgroups''⟩, rfl⟩, _, ⟨rfl, hfinish⟩, rfl⟩
    obtain rfl : c = '/' := by simpa using hc
    refine ⟨owner, repo, howner, ⟨hne, hrepo⟩, ?_, hfinish, ?_⟩
    · rw [fullName, ← hrest'', ← hrest', hrest]
    · rw [Progress.taken_of_append hrest'', hgroups'', hgroups',
        Progress.taken_of_append hrest, hgroups]
  · rintro ⟨owner, repo, howner, ⟨hne, hrepo⟩, rfl, hfinish, hgroups⟩
    refine ⟨_, ⟨⟨[], '/' :: (repo ++ q.rest)⟩, ⟨owner, howner, rfl, rfl⟩, rfl⟩,
      ⟨[(1, owner)], repo ++ q.rest⟩, ⟨'/', by simp, rfl, ?_⟩,
      _, ⟨⟨[(1, owner)], q.rest⟩, ⟨repo, hne, hrepo, rfl, rfl⟩, rfl⟩, q, ⟨?_, hfinish⟩, rfl⟩
    · rw [Progress.taken_of_append rfl]
    · rw [Progress.taken_of_append rfl]
      obtain ⟨groups, rest⟩ := q
      simpa using hgroups

/-- What `_GITHUB_URL_PATTERN` reads is two names. -/
theorem names_of_githubUrlPattern (h : q ∈ githubUrlPattern.ends ⟨[], url⟩) :
    IsName (q.group 1) ∧ IsName (q.group 2) := by
  simp only [githubUrlPattern, Captures.mem_ends_chain_cons, Captures.mem_ends_chain_nil,
    Captures.mem_ends_group, Captures.mem_ends_many (.inl rfl),
    Captures.mem_ends_many (.inr rfl), Captures.mem_ends_finish, Captures.mem_ends_one,
    Captures.mem_ends_lit, Captures.mem_ends_opt] at h
  obtain ⟨s, ⟨_, hs⟩, _, ⟨t, ⟨owner, hne, howner, hrest, hgroups⟩, rfl⟩, u,
    ⟨_, _, _, hgroups'⟩, _, ⟨v, ⟨repo, hne', hrepo, hrest', hgroups''⟩, rfl⟩, w, hw, _,
    ⟨rfl, _⟩, rfl⟩ := h
  have hq : q.groups = [(2, repo), (1, owner)] := by
    have hw' : q.groups = (2, u.taken v) :: v.groups := by
      rcases hw with ⟨_, hw⟩ | rfl
      · exact hw
      · rfl
    rw [hw', Progress.taken_of_append hrest', hgroups'', hgroups',
      Progress.taken_of_append hrest, hgroups, hs]
  constructor
  · simpa [IsName, Progress.group, hq] using ⟨hne, howner⟩
  · simpa [IsName, Progress.group, hq] using ⟨hne', hrepo⟩

theorem names_of_validateRepoUrl {owner repo : List Char}
    (h : validateRepoUrl url = .ok (owner, repo)) : IsName owner ∧ IsName repo := by
  rw [validateRepoUrl] at h
  split at h
  · cases h
  · rename_i found hfound
    obtain ⟨rfl, rfl⟩ := Prod.mk.inj (Except.ok.inj h)
    exact names_of_githubUrlPattern (Captures.mem_of_matchStart hfound)

end

/-! ## The candidate -/

section

variable {owner repo text part : List Char}

theorem strip_of_forall (h : ∀ c ∈ text, isWhitespace c = false) : strip text = text := by
  have hdrop : ∀ cs : List Char, (∀ c ∈ cs, isWhitespace c = false) →
      cs.dropWhile isWhitespace = cs := by
    rintro (_ | ⟨c, cs⟩) hcs
    · rfl
    · exact List.dropWhile_cons_of_neg (by simp [hcs c List.mem_cons_self])
  rw [strip, hdrop text h, List.rdropWhile, hdrop, List.reverse_reverse]
  exact fun c hc => h c (List.mem_reverse.mp hc)

/-- A text lacks every part that has a character it lacks. -/
theorem isSubstring_eq_false {c : Char} (hpart : c ∈ part) (htext : c ∉ text) :
    isSubstring part text = false := by
  rw [isSubstring, List.any_eq_false]
  intro tail htail hbegins
  have hsuffix : tail <:+ text := (List.mem_tails tail text).mp htail
  exact htext (hsuffix.subset ((List.isPrefixOf_iff_prefix.mp hbegins).subset hpart))

theorem dotGit_suffix_fullName : dotGit <:+ fullName owner repo ↔ dotGit <:+ repo := by
  constructor
  · intro h
    have hslash : '/' ∉ dotGit := by decide
    rcases List.suffix_or_suffix_of_suffix h (List.suffix_append owner ('/' :: repo)) with h | h
    · rcases List.suffix_cons_iff.mp h with h | h
      · exact absurd (h ▸ List.mem_cons_self) hslash
      · exact h
    · exact absurd (h.subset List.mem_cons_self) hslash
  · intro h
    exact (h.trans (List.suffix_cons '/' repo)).trans (List.suffix_append owner _)

/-- A `.git` is taken from the repository's name. -/
theorem stripDotGit_fullName :
    stripDotGit (fullName owner repo) = fullName owner (stripDotGit repo) := by
  simp only [stripDotGit, List.isSuffixOf_iff_suffix, dotGit_suffix_fullName]
  split
  · rename_i h
    have hlength := h.length_le
    have hfull : (fullName owner repo).length - dotGit.length =
        owner.length + (repo.length - dotGit.length + 1) := by
      simp only [fullName, List.length_append, List.length_cons]
      omega
    rw [hfull, fullName, fullName, List.take_length_add_append, List.take_succ_cons]
  · rfl

theorem mem_stripDotGit {c : Char} (h : c ∈ stripDotGit repo) : c ∈ repo := by
  rw [stripDotGit] at h
  split at h
  · exact List.mem_of_mem_take h
  · exact h

variable {table : CharacterTable}

theorem lower_name (hlower : LowersAscii table) (h : IsName repo) :
    table.lower repo = repo.map Char.toLower :=
  hlower repo fun c hc => toNat_of_isNameChar (h.2 c hc)

/-- Lowering a lowered name changes nothing. -/
theorem lower_lower_name (hlower : LowersAscii table) (h : IsName repo) :
    table.lower (table.lower repo) = table.lower repo := by
  have hall : ∀ n < 128, (Char.ofNat n).toLower.toNat < 128 ∧
      (Char.ofNat n).toLower.toLower = (Char.ofNat n).toLower := by decide
  have hchar : ∀ c ∈ repo, c.toLower.toNat < 128 ∧ c.toLower.toLower = c.toLower := by
    intro c hc
    obtain ⟨n, hn, rfl⟩ := exists_eq_ofNat (toNat_of_isNameChar (h.2 c hc))
    exact hall n hn
  rw [lower_name hlower h, hlower _ (by simpa using fun c hc => (hchar c hc).1), List.map_map]
  exact List.map_congr_left fun c hc => (hchar c hc).2

/-- What the parser does with the name of a repository comes down to one match. -/
theorem parse_fullName (hlower : LowersAscii table) (howner : IsName owner)
    (hrepo : IsName repo) :
    parseRepositoryFullName table (fullName owner repo) =
      (fullNamePattern.matchStart
        (fullName (table.lower owner) (stripDotGit (table.lower repo)))).bind fun found =>
          if isSubstring ".".toList (found.group 1) then none
          else some (found.group 1, found.group 2) := by
  have hchars : ∀ c ∈ fullName owner repo, c = '/' ∨ isNameChar c = true := by
    intro c hc
    rcases List.mem_append.mp hc with hc | hc
    · exact .inr (howner.2 c hc)
    · rcases List.mem_cons.mp hc with rfl | hc
      · exact .inl rfl
      · exact .inr (hrepo.2 c hc)
  have hascii : ∀ c ∈ fullName owner repo, c.toNat < 128 := by
    intro c hc
    rcases hchars c hc with rfl | hc
    · decide
    · exact toNat_of_isNameChar hc
  have hstrip : strip (fullName owner repo) = fullName owner repo := by
    refine strip_of_forall fun c hc => ?_
    rcases hchars c hc with rfl | hc
    · decide
    · exact (isNameChar_facts hc).1
  have hcandidate : table.lower (strip (fullName owner repo)) =
      fullName (table.lower owner) (table.lower repo) := by
    rw [hstrip, lower_name hlower howner, lower_name hlower hrepo, hlower _ hascii, fullName,
      fullName, List.map_append, List.map_cons]
    rfl
  have hcolon : ':' ∉ fullName (table.lower owner) (table.lower repo) := by
    rw [← hcandidate, hstrip, hlower _ hascii, List.mem_map]
    rintro ⟨c, hc, hcolon⟩
    rcases hchars c hc with rfl | hc
    · exact absurd hcolon (by decide)
    · exact (isNameChar_facts hc).2.2.1 hcolon
  have hempty : (fullName owner repo).isEmpty = false := by simp [fullName]
  have hscheme := isSubstring_eq_false (by decide : ':' ∈ "://".toList) hcolon
  have hport := isSubstring_eq_false (by decide : ':' ∈ ":".toList) hcolon
  rw [parseRepositoryFullName, hempty, hcandidate]
  simp only [Bool.false_eq_true, if_false, hscheme, hport, Bool.or_false, stripDotGit_fullName]
  cases fullNamePattern.matchStart
    (fullName (table.lower owner) (stripDotGit (table.lower repo))) with
  | none => rfl
  | some found => rfl

/-! ## Matching -/

/-- What stands behind the owner's handle after the stripping can hold no slash. -/
theorem lowered_chars (hlower : LowersAscii table) (h : IsName repo) {c : Char}
    (hc : c ∈ table.lower repo) : c ≠ '/' ∧ isLowerNameChar c = true := by
  rw [lower_name hlower h, List.mem_map] at hc
  obtain ⟨d, hd, rfl⟩ := hc
  exact (isNameChar_facts (h.2 d hd)).2.2.2

/-- A match of the candidate splits it at its only slash. -/
theorem groups_of_match (hlower : LowersAscii table) (howner : IsName owner)
    (hrepo : IsName repo) {found : Progress}
    (h : fullNamePattern.matchStart
      (fullName (table.lower owner) (stripDotGit (table.lower repo))) = some found) :
    IsHandle owner ∧ found.group 1 = table.lower owner ∧
      found.group 2 = stripDotGit (table.lower repo) := by
  obtain ⟨owner', repo', hhandle, _, htext, hrest, hgroups⟩ :=
    mem_fullNamePattern.mp (Captures.mem_of_matchStart h)
  have hstripped : ∀ c ∈ stripDotGit (table.lower repo), c ≠ '/' ∧ isLowerNameChar c = true :=
    fun c hc => lowered_chars hlower hrepo (mem_stripDotGit hc)
  have hsplit := (List.append_cons_inj_of_notMem
    (fun hslash => (lowered_chars hlower howner hslash).1 rfl)
    (fun hslash => (hstripped '/' hslash).1 rfl)).mp htext
  have hend : found.rest = [] := by
    refine hrest.resolve_right fun hnewline => ?_
    have hmem : '\n' ∈ stripDotGit (table.lower repo) := by simp [hsplit.2.2, hnewline]
    exact absurd (hstripped _ hmem).2 (by decide)
  refine ⟨?_, ?_, ?_⟩
  · rw [← hsplit.1, lower_name hlower howner] at hhandle
    exact (isHandleOver_map_toLower fun c hc => toNat_of_isNameChar (howner.2 c hc)).mp hhandle
  · rw [Progress.group, hgroups, hsplit.1]
    rfl
  · rw [Progress.group, hgroups, hsplit.2.2, hend, List.append_nil]
    rfl

theorem isHandle_of_parse (hlower : LowersAscii table) (howner : IsName owner)
    (hrepo : IsName repo) {names : List Char × List Char}
    (h : parseRepositoryFullName table (fullName owner repo) = some names) : IsHandle owner := by
  rw [parse_fullName hlower howner hrepo, Option.bind_eq_some_iff] at h
  obtain ⟨found, hfound, -⟩ := h
  exact (groups_of_match hlower howner hrepo hfound).1

/-- The name of a repository whose owner is a handle is read as it is, lowered. -/
theorem parse_of_isHandle (hlower : LowersAscii table) (howner : IsName owner)
    (hrepo : IsName repo) (hhandle : IsHandle owner) (hgit : ¬ dotGit <:+ table.lower repo) :
    parseRepositoryFullName table (fullName owner repo) =
      some (table.lower owner, table.lower repo) := by
  have hkept : stripDotGit (table.lower repo) = table.lower repo := by
    rw [stripDotGit, if_neg (by rwa [List.isSuffixOf_iff_suffix])]
  have hlowered : IsHandleOver isLowerAlnum (table.lower owner) := by
    rw [lower_name hlower howner]
    exact (isHandleOver_map_toLower fun c hc =>
      toNat_of_isNameChar (howner.2 c hc)).mpr hhandle
  have hne : table.lower repo ≠ [] := by
    rw [lower_name hlower hrepo]
    simpa using hrepo.1
  have hend : (⟨[(2, table.lower repo), (1, table.lower owner)], []⟩ : Progress) ∈
      fullNamePattern.ends ⟨[], fullName (table.lower owner) (table.lower repo)⟩ :=
    mem_fullNamePattern.mpr ⟨table.lower owner, table.lower repo, hlowered,
      ⟨hne, fun c hc => (lowered_chars hlower hrepo hc).2⟩, by rw [List.append_nil],
      .inl rfl, rfl⟩
  obtain ⟨found, hfound⟩ := Captures.exists_matchStart hend
  obtain ⟨_, hgroup, hgroup'⟩ := groups_of_match hlower howner hrepo (by rwa [hkept])
  have hdot : '.' ∉ table.lower owner := by
    intro hdot
    exact absurd (hlowered.1 '.' hdot) (by decide)
  rw [parse_fullName hlower howner hrepo, hkept, hfound, Option.bind_some, hgroup, hgroup',
    isSubstring_eq_false (by decide : '.' ∈ ".".toList) hdot, hkept]
  rfl

variable {url : List Char} {names : List Char × List Char}

/-- A row of an accepted URL is found for its lowered names. -/
theorem isFor_lowered (hlower : LowersAscii table) (h : validateRepoUrl url = .ok (owner, repo))
    {row : ConfigRepo} (hrow : row.repoUrl = url) :
    row.isFor table (table.lower owner, table.lower repo) = true := by
  obtain ⟨howner, hrepo⟩ := names_of_validateRepoUrl h
  subst hrow
  simp only [ConfigRepo.isFor, h, needle, lower_lower_name hlower howner,
    lower_lower_name hlower hrepo, beq_self_eq_true]

/-- The first row of a repository is found. -/
theorem lookup_append {before after : List ConfigRepo} {row : ConfigRepo}
    (hrow : row.isFor table names = true)
    (hbefore : ∀ other ∈ before, other.isFor table names = false) :
    lookupConfigRepoByOwnerRepo table (before ++ row :: after) names = some row := by
  rw [lookupConfigRepoByOwnerRepo, List.find?_append,
    List.find?_eq_none.mpr fun other hother => by simp [hbefore other hother],
    Option.none_or, List.find?_cons_of_pos hrow]

end

/-- A webhook for an accepted URL whose owner is a handle finds a row of that repository: the
registered one, unless an earlier row is registered for the same names. Where the owner is no
handle, the name is refused. -/
theorem webhook_matches {table : CharacterTable} (hlower : LowersAscii table)
    {url owner repo : List Char} (h : validateRepoUrl url = .ok (owner, repo)) :
    (IsHandle owner → ¬ dotGit <:+ table.lower repo →
      ∃ names, parseRepositoryFullName table (fullName owner repo) = some names ∧
        needle table names = needle table (owner, repo) ∧
        (∀ (before after : List ConfigRepo) (row : ConfigRepo), row.repoUrl = url →
          (∀ other ∈ before, other.isFor table names = false) →
          lookupConfigRepoByOwnerRepo table (before ++ row :: after) names = some row) ∧
        ∀ (rows : List ConfigRepo) (row : ConfigRepo), row ∈ rows → row.repoUrl = url →
          ∃ found ∈ rows, lookupConfigRepoByOwnerRepo table rows names = some found ∧
            found.isFor table names = true) ∧
      (¬ IsHandle owner → parseRepositoryFullName table (fullName owner repo) = none) := by
  obtain ⟨howner, hrepo⟩ := names_of_validateRepoUrl h
  constructor
  · intro hhandle hgit
    have hneedle : needle table (table.lower owner, table.lower repo) =
        needle table (owner, repo) :=
      Prod.ext (lower_lower_name hlower howner) (lower_lower_name hlower hrepo)
    refine ⟨_, parse_of_isHandle hlower howner hrepo hhandle hgit, hneedle, ?_, ?_⟩
    · intro before after row hrow hbefore
      exact lookup_append (isFor_lowered hlower h hrow) hbefore
    · intro rows row hmem hrow
      have hsome := List.find?_isSome.mpr ⟨row, hmem, isFor_lowered hlower h hrow⟩
      obtain ⟨found, hfound⟩ := Option.isSome_iff_exists.mp hsome
      exact ⟨found, List.mem_of_find?_eq_some hfound, hfound, List.find?_some hfound⟩
  · intro hhandle
    by_contra hparse
    obtain ⟨names, hnames⟩ := Option.ne_none_iff_exists'.mp hparse
    exact hhandle (isHandle_of_parse hlower howner hrepo hnames)

theorem lowersAscii_asciiTable : LowersAscii asciiTable := fun _ _ => rfl

theorem webhook_matches_octocat :
    validateRepoUrl "https://github.com/OctoCat/Hello.World.git".toList =
        .ok ("OctoCat".toList, "Hello.World".toList) ∧
      parseRepositoryFullName asciiTable (fullName "OctoCat".toList "Hello.World".toList) ≠
        none := by
  have hurl : validateRepoUrl "https://github.com/OctoCat/Hello.World.git".toList =
      .ok ("OctoCat".toList, "Hello.World".toList) := by decide +kernel
  have hhandle : IsHandle "OctoCat".toList :=
    ⟨List.all_eq_true.mp (by decide), ⟨'O', rfl, by decide⟩, 't', by decide, by decide⟩
  obtain ⟨names, hnames, -⟩ :=
    (webhook_matches lowersAscii_asciiTable hurl).1 hhandle (by decide +kernel)
  exact ⟨hurl, hnames.symm ▸ Option.some_ne_none names⟩

/-- An owner with an underscore can be registered, and its webhooks are refused. A repository
whose name still ends in `.git` is compared without it. -/
theorem accepted_url_is_not_matched :
    (validateRepoUrl "https://github.com/octo_corp/search".toList =
        .ok ("octo_corp".toList, "search".toList) ∧
      parseRepositoryFullName asciiTable (fullName "octo_corp".toList "search".toList) =
        none) ∧
    (validateRepoUrl "https://github.com/octo/configs.git.git".toList =
        .ok ("octo".toList, "configs.git".toList) ∧
      parseRepositoryFullName asciiTable (fullName "octo".toList "configs.git".toList) =
        some ("octo".toList, "configs".toList) ∧
      needle asciiTable ("octo".toList, "configs".toList) ≠
        needle asciiTable ("octo".toList, "configs.git".toList)) := by
  decide +kernel

end RelyLoop.ConfigRepos
