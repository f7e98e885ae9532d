import RelyLoop.Text.BoundedWords

/-!
# Replacing bounded words again

When no replacement contains a word, and no replacement supplies a part of a word that ends at a
boundary inside of it, a substitution leaves no bounded word behind. A second one changes nothing.
-/

namespace RelyLoop.Text

/-- Words and replacements that begin and end with a word character. No replacement contains a
word, and none supplies what a word has before or behind a boundary inside of it. -/
structure Settled (isWord : Char → Bool) (words : List (List Char))
    (f : List Char → List Char) : Prop where
  word_head : ∀ w ∈ words, w.head?.any isWord = true
  head_isWord : ∀ w ∈ words, (f w).head?.any isWord = true
  last_isWord : ∀ w ∈ words, (f w).getLast?.any isWord = true
  absent : ∀ w ∈ words, ∀ w' ∈ words, ¬w <:+: f w'
  apart : ∀ w ∈ words, ∀ i < w.length, 0 < i →
    (w.take i).getLast?.any isWord ≠ (w.drop i).head?.any isWord → ∀ w' ∈ words,
      ¬w.take i <:+ f w' ∧ ¬f w' <+: w.drop i ∧
        (w.drop i <+: f w' → ((f w').drop (w.length - i)).head?.any isWord = true)

/-- Where a word occurs in the text, a word character stands beside it. -/
def NoneBounded (isWord : Char → Bool) (words : List (List Char)) (before : Option Char)
    (text : List Char) : Prop :=
  ∀ w ∈ words, ∀ u v, text = u ++ (w ++ v) →
    (u.getLast?.or before).any isWord = true ∨ v.head?.any isWord = true

variable {F : Flavour Char} {words : List (List Char)} {f : List Char → List Char}
  {text rest w u v : List Char} {before before' : Option Char}

theorem ne_nil_of_head?_any {isWord : Char → Bool} (h : w.head?.any isWord = true) : w ≠ [] := by
  rintro rfl
  cases h

theorem ne_nil_of_getLast?_any {isWord : Char → Bool} (h : w.getLast?.any isWord = true) :
    w ≠ [] := by
  rintro rfl
  cases h

theorem head?_any_congr {isWord isWord' : Char → Bool} {text : List Char}
    (h : ∀ c ∈ text, isWord c = isWord' c) : text.head?.any isWord = text.head?.any isWord' := by
  cases text with
  | nil => rfl
  | cons a text => exact h a List.mem_cons_self

theorem getLast?_any_congr {isWord isWord' : Char → Bool} {text : List Char}
    (h : ∀ c ∈ text, isWord c = isWord' c) :
    text.getLast?.any isWord = text.getLast?.any isWord' := by
  cases hlast : text.getLast? with
  | none => rfl
  | some a => exact h a (List.mem_of_getLast? hlast)

/-- Only the characters of the words matter. -/
theorem Separated.congr {isWord isWord' : Char → Bool} (h : Separated isWord words)
    (hsame : ∀ w ∈ words, ∀ c ∈ w, isWord c = isWord' c) : Separated isWord' words where
  nonempty := h.nonempty
  last_isWord w hw := getLast?_any_congr (hsame w hw) ▸ h.last_isWord w hw
  prefix_free := h.prefix_free
  apart w hw w' hw' i hi hpos hboundary := by
    rw [← getLast?_any_congr fun c hc => hsame w hw c (List.mem_of_mem_take hc),
      ← head?_any_congr fun c hc => hsame w hw c (List.mem_of_mem_drop hc)] at hboundary
    rw [← head?_any_congr fun c hc => hsame w' hw' c (List.mem_of_mem_drop hc)]
    exact h.apart w hw w' hw' i hi hpos hboundary

/-- Only the characters of the words and of their replacements matter. -/
theorem Settled.congr {isWord isWord' : Char → Bool} (h : Settled isWord words f)
    (hsame : ∀ w ∈ words, ∀ c ∈ w ++ f w, isWord c = isWord' c) : Settled isWord' words f := by
  have hword : ∀ w ∈ words, ∀ c ∈ w, isWord c = isWord' c := fun w hw c hc =>
    hsame w hw c (List.mem_append_left _ hc)
  have hreplaced : ∀ w ∈ words, ∀ c ∈ f w, isWord c = isWord' c := fun w hw c hc =>
    hsame w hw c (List.mem_append_right _ hc)
  constructor
  · exact fun w hw => head?_any_congr (hword w hw) ▸ h.word_head w hw
  · exact fun w hw => head?_any_congr (hreplaced w hw) ▸ h.head_isWord w hw
  · exact fun w hw => getLast?_any_congr (hreplaced w hw) ▸ h.last_isWord w hw
  · exact h.absent
  · intro w hw i hi hpos hboundary w' hw'
    rw [← getLast?_any_congr fun c hc => hword w hw c (List.mem_of_mem_take hc),
      ← head?_any_congr fun c hc => hword w hw c (List.mem_of_mem_drop hc)] at hboundary
    rw [← head?_any_congr fun c hc => hreplaced w' hw' c (List.mem_of_mem_drop hc)]
    exact h.apart w hw i hi hpos hboundary w' hw'

/-- A word that begins and ends with word characters is bounded between other characters. -/
theorem bounded_iff (hhead : w.head?.any F.isWord = true) (hlast : w.getLast?.any F.isWord = true) :
    F.bounded ⟨before, w ++ v⟩ w = true ↔
      before.any F.isWord = false ∧ v.head?.any F.isWord = false := by
  have hne := ne_nil_of_head?_any hhead
  have hbefore : (⟨before, w ++ v⟩ : Position Char).atBoundary F = !before.any F.isWord := by
    rw [Position.atBoundary, List.head?_append_of_ne_nil _ hne, hhead]
    cases before.any F.isWord <;> rfl
  have hafter : ((⟨before, w ++ v⟩ : Position Char).skip w).atBoundary F =
      !v.head?.any F.isWord := by
    obtain ⟨last, hsome⟩ := List.getLast?_isSome.mpr hne |> Option.isSome_iff_exists.mp
    rw [hsome] at hlast
    rw [Position.atBoundary, Position.skip, hsome, Option.some_or, List.drop_left, hlast]
    cases v.head?.any F.isWord <;> rfl
  rw [Flavour.bounded, hbefore, hafter]
  simp

/-- A text without bounded words is copied. -/
theorem subFrom_of_noneBounded (hF : F.IsLiteral) (hwords : Separated F.isWord words)
    (hhead : ∀ w ∈ words, w.head?.any F.isWord = true)
    (h : NoneBounded F.isWord words before text) :
    (Pattern.boundedWord words).subFrom F f 0 before text = text := by
  induction text generalizing before with
  | nil => rfl
  | cons a rest ih =>
    have hnone : words.find? (F.bounded ⟨before, a :: rest⟩) = none := by
      rw [List.find?_eq_none]
      intro w hw hbounded
      obtain ⟨v, hv⟩ := Flavour.prefix_of_bounded hbounded
      dsimp only at hv
      rw [← hv] at hbounded
      obtain ⟨hleft, hright⟩ := (bounded_iff (hhead w hw) (hwords.last_isWord w hw)).mp hbounded
      have hbeside := h w hw [] v hv.symm
      rw [List.getLast?_nil, Option.none_or, hleft, hright] at hbeside
      simp at hbeside
    rw [subFrom_miss hF hwords.nonempty hnone, ih]
    intro w hw u v hsplit
    have hbeside := h w hw (a :: u) v (by rw [hsplit, List.cons_append])
    rwa [getLast?_cons_or] at hbeside

/-! ## What a scan writes -/

/-- A scan copies a character, or it replaces a word between other characters. -/
theorem subFrom_cases (hF : F.IsLiteral) (hwords : Separated F.isWord words)
    (hf : Settled F.isWord words f) (before : Option Char) (a : Char) (rest : List Char) :
    (words.find? (F.bounded ⟨before, a :: rest⟩) = none ∧
        (Pattern.boundedWord words).subFrom F f 0 before (a :: rest) =
          a :: (Pattern.boundedWord words).subFrom F f 0 (some a) rest) ∨
      ∃ w ∈ words, ∃ t, a :: rest = w ++ t ∧ before.any F.isWord = false ∧
        t.head?.any F.isWord = false ∧
        (Pattern.boundedWord words).subFrom F f 0 before (a :: rest) =
          f w ++ (Pattern.boundedWord words).subFrom F f 0 w.getLast? t := by
  cases hfind : words.find? (F.bounded ⟨before, a :: rest⟩) with
  | none => exact Or.inl ⟨rfl, subFrom_miss hF hwords.nonempty hfind⟩
  | some w =>
    have hw : w ∈ words := List.mem_of_find?_eq_some hfind
    have hbounded : F.bounded ⟨before, a :: rest⟩ w = true := List.find?_some hfind
    obtain ⟨t, ht⟩ : w <+: a :: rest := Flavour.prefix_of_bounded hbounded
    rw [← ht] at hbounded ⊢
    obtain ⟨hleft, hright⟩ :=
      (bounded_iff (hf.word_head w hw) (hwords.last_isWord w hw)).mp hbounded
    exact Or.inr ⟨w, hw, t, rfl, hleft, hright, subFrom_hit hF hwords hw hbounded⟩

/-- A scan keeps whether the text begins with a word character. -/
theorem head?_subFrom (hF : F.IsLiteral) (hwords : Separated F.isWord words)
    (hf : Settled F.isWord words f) (before : Option Char) (rest : List Char) :
    ((Pattern.boundedWord words).subFrom F f 0 before rest).head?.any F.isWord =
      rest.head?.any F.isWord := by
  cases rest with
  | nil => rfl
  | cons a rest =>
    rcases subFrom_cases hF hwords hf before a rest with ⟨-, hcopy⟩ | ⟨w, hw, t, ht, -, -, hhit⟩
    · rw [hcopy]
      rfl
    · have hhead := hf.head_isWord w hw
      have hword := hf.word_head w hw
      rw [hhit, ht, List.head?_append_of_ne_nil _ (ne_nil_of_head?_any hhead), hhead,
        List.head?_append_of_ne_nil _ (ne_nil_of_head?_any hword), hword]

/-- The end of a word at the start of what is written was there before. The induction is on the
length of that end; no replacement supplies a part of it. -/
theorem exists_of_drop_subFrom (hF : F.IsLiteral) (hwords : Separated F.isWord words)
    (hf : Settled F.isWord words f) (hw : w ∈ words) {i : ℕ} (hpos : 0 < i) (hi : i ≤ w.length)
    (hbefore : before.any F.isWord = (w.take i).getLast?.any F.isWord)
    (hsplit : (Pattern.boundedWord words).subFrom F f 0 before rest = w.drop i ++ v)
    (hv : v.head?.any F.isWord = false) :
    ∃ v', rest = w.drop i ++ v' ∧ v'.head?.any F.isWord = false := by
  obtain ⟨k, hk⟩ : ∃ k, w.length - i = k := ⟨_, rfl⟩
  induction k generalizing i before rest with
  | zero =>
    have hdrop : w.drop i = [] := List.drop_eq_nil_of_le (by omega)
    rw [hdrop, List.nil_append] at hsplit
    refine ⟨rest, by rw [hdrop, List.nil_append], ?_⟩
    rw [← head?_subFrom hF hwords hf before rest, hsplit, hv]
  | succ k ih =>
    have hlt : i < w.length := by omega
    have hdrop : w.drop i = w[i] :: w.drop (i + 1) := List.drop_eq_getElem_cons hlt
    cases rest with
    | nil =>
      rw [hdrop] at hsplit
      cases hsplit
    | cons a rest =>
      rcases subFrom_cases hF hwords hf before a rest with
        ⟨-, hcopy⟩ | ⟨w', hw', t, -, hleft, -, hhit⟩
      · rw [hcopy, hdrop, List.cons_append] at hsplit
        obtain ⟨rfl, hrest⟩ := List.cons.inj hsplit
        have hlast : (w.take (i + 1)).getLast? = some w[i] := by
          rw [List.take_succ_eq_append_getElem hlt, List.getLast?_concat]
        obtain ⟨v', hv', hv'head⟩ :=
          ih (Nat.succ_pos i) hlt (by rw [hlast]) hrest (by omega)
        exact ⟨v', by rw [hdrop, List.cons_append, hv'], hv'head⟩
      · -- a boundary inside of the word, with a replacement behind it
        exfalso
        have hhead := hf.head_isWord w' hw'
        have hne := ne_nil_of_head?_any hhead
        rw [hhit] at hsplit
        have hinside : (w.drop i).head?.any F.isWord = true := by
          have hsame := congrArg List.head? hsplit
          rw [List.head?_append_of_ne_nil _ hne, hdrop, List.cons_append] at hsame
          rw [hdrop, List.head?_cons, ← List.head?_cons (l := w.drop (i + 1) ++ v), ← hsame, hhead]
        obtain ⟨-, hshorter, hlonger⟩ := hf.apart w hw i hlt hpos
          (by rw [← hbefore, hleft, hinside]; decide) w' hw'
        rcases List.append_eq_append_iff.mp hsplit with ⟨m, hm, -⟩ | ⟨m, hm, hvm⟩
        · exact hshorter ⟨m, hm.symm⟩
        · have hbehind := hlonger ⟨m, hm.symm⟩
          rw [hm, List.drop_append_of_le_length (by simp), List.drop_eq_nil_of_le (by simp),
            List.nil_append] at hbehind
          rw [hvm, List.head?_append_of_ne_nil _ (ne_nil_of_head?_any hbehind), hbehind] at hv
          cases hv

/-- A word that begins with the first character that is copied is not bounded. -/
theorem not_bounded_of_copy (hF : F.IsLiteral) (hwords : Separated F.isWord words)
    (hf : Settled F.isWord words f) (hw : w ∈ words) {a : Char}
    (hnone : words.find? (F.bounded ⟨before, a :: rest⟩) = none)
    (hsplit : a :: (Pattern.boundedWord words).subFrom F f 0 (some a) rest = w ++ v) :
    before.any F.isWord = true ∨ v.head?.any F.isWord = true := by
  by_contra hneither
  simp only [not_or, Bool.not_eq_true] at hneither
  cases w with
  | nil => exact ne_nil_of_head?_any (hf.word_head [] hw) rfl
  | cons b t =>
    obtain ⟨rfl, hrest⟩ := List.cons.inj hsplit
    obtain ⟨v', rfl, hv'⟩ := exists_of_drop_subFrom hF hwords hf hw (i := 1) Nat.one_pos
      (by simp) rfl hrest hneither.2
    have hbounded : F.bounded ⟨before, (a :: t) ++ v'⟩ (a :: t) = true :=
      (bounded_iff (hf.word_head _ hw) (hwords.last_isWord _ hw)).mpr ⟨hneither.1, hv'⟩
    have hno := List.find?_eq_none.mp hnone (a :: t) hw
    exact hno hbounded

/-- A word that ends behind a replacement begins behind it. -/
theorem eq_nil_of_append_eq (hf : Settled F.isWord words f) (hw : w ∈ words) {w' m t : List Char}
    (hw' : w' ∈ words) (hreplaced : f w' = u ++ m) (hword : w = m ++ t)
    (ht : t.head?.any F.isWord = false) : m = [] := by
  by_contra hm
  subst hword
  cases t with
  | nil =>
    rw [List.append_nil] at hw
    exact hf.absent m hw w' hw' ⟨u, [], by rw [List.append_nil, hreplaced]⟩
  | cons b t =>
    have hpos : 0 < m.length := List.length_pos_of_ne_nil hm
    have hlast : m.getLast?.any F.isWord = true := by
      have hword := hf.last_isWord w' hw'
      rwa [hreplaced, List.getLast?_append_of_ne_nil _ hm] at hword
    have hapart := hf.apart (m ++ b :: t) hw m.length (by simp) hpos
      (by rw [List.take_left, List.drop_left, hlast, ht]; decide) w' hw'
    rw [List.take_left] at hapart
    exact hapart.1 ⟨u, hreplaced.symm⟩

/-- A scan leaves no bounded word behind. -/
theorem noneBounded_subFrom (hF : F.IsLiteral) (hwords : Separated F.isWord words)
    (hf : Settled F.isWord words f) {n : ℕ} (hn : rest.length ≤ n)
    (hbefore : before.any F.isWord = before'.any F.isWord) :
    NoneBounded F.isWord words before' ((Pattern.boundedWord words).subFrom F f 0 before rest) := by
  induction n generalizing rest before before' with
  | zero =>
    obtain rfl := List.eq_nil_of_length_eq_zero (Nat.le_zero.mp hn)
    intro w hw u v hsplit
    have hempty : u ++ (w ++ v) = [] := hsplit.symm
    simp only [List.append_eq_nil_iff] at hempty
    exact absurd hempty.2.1 (ne_nil_of_head?_any (hf.word_head w hw))
  | succ n ih =>
    cases rest with
    | nil => exact ih (Nat.zero_le n) hbefore
    | cons a rest =>
      have hlength : rest.length ≤ n := by simpa using hn
      intro w hw u v hsplit
      rcases subFrom_cases hF hwords hf before a rest with
        ⟨hnone, hcopy⟩ | ⟨w', hw', t, ht, -, hright, hhit⟩
      · rw [hcopy] at hsplit
        cases u with
        | nil =>
          rw [List.getLast?_nil, Option.none_or, ← hbefore]
          exact not_bounded_of_copy hF hwords hf hw hnone hsplit
        | cons b u =>
          obtain ⟨rfl, hrest⟩ := List.cons.inj hsplit
          rw [getLast?_cons_or]
          exact ih hlength rfl w hw u v hrest
      · rw [hhit] at hsplit
        have hne := ne_nil_of_getLast?_any (hf.last_isWord w' hw')
        have hshorter : t.length ≤ n := by
          have hsum := congrArg List.length ht
          have hpos := hwords.length_pos hw'
          rw [List.length_append, List.length_cons] at hsum
          omega
        have hlast : w'.getLast?.any F.isWord = (f w').getLast?.any F.isWord := by
          rw [hwords.last_isWord w' hw', hf.last_isWord w' hw']
        have hbehind := ih hshorter hlast w hw
        rcases List.append_eq_append_iff.mp hsplit with ⟨m, rfl, hm⟩ | ⟨m, hreplaced, hm⟩
        · have hlastIs : (f w').getLast?.or before' = (f w').getLast? := by
            obtain ⟨last, hsome⟩ := Option.isSome_iff_exists.mp (List.getLast?_isSome.mpr hne)
            rw [hsome, Option.some_or]
          rw [List.getLast?_append, Option.or_assoc, hlastIs]
          exact hbehind m v hm
        · exfalso
          rcases List.append_eq_append_iff.mp hm with ⟨m', rfl, -⟩ | ⟨m', hword, hrest⟩
          · exact hf.absent w hw w' hw' ⟨u, m', by rw [hreplaced, List.append_assoc]⟩
          · have hm' : m'.head?.any F.isWord = false := by
              have hhead := head?_subFrom hF hwords hf w'.getLast? t
              rw [hrest, hright] at hhead
              cases m' with
              | nil => rfl
              | cons b m' => exact hhead
            obtain rfl := eq_nil_of_append_eq hf hw hw' hreplaced hword hm'
            have hword' := hf.word_head w hw
            rw [hword, List.nil_append, hm'] at hword'
            cases hword'

/-- A substitution leaves no bounded word behind. -/
theorem noneBounded_sub (hF : F.IsLiteral) (hwords : Separated F.isWord words)
    (hf : Settled F.isWord words f) (text : List Char) :
    NoneBounded F.isWord words none ((Pattern.boundedWord words).sub F f text) :=
  noneBounded_subFrom hF hwords hf (Nat.le_refl text.length) rfl

/-- A text without bounded words is not changed. -/
theorem sub_of_noneBounded (hF : F.IsLiteral) (hwords : Separated F.isWord words)
    (hf : Settled F.isWord words f) (h : NoneBounded F.isWord words none text) :
    (Pattern.boundedWord words).sub F f text = text :=
  subFrom_of_noneBounded hF hwords hf.word_head h

end RelyLoop.Text
