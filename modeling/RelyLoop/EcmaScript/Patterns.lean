import RelyLoop.Text.Languages
import RelyLoop.Text.Utf16

/-!
# Patterns over characters and over code units

ECMAScript matches a pattern over the code units of a text. A pattern of ASCII characters, or one
that takes any characters before such a pattern, spells the same texts in both ways.
-/

namespace RelyLoop.EcmaScript

open Text Pattern

/-- A character of the first 128. -/
def IsAscii (text : List Char) : Prop := ∀ c ∈ text, c.toNat < 128

/-- The flavour of a `RegExp` without flags. -/
def ecmaFlavour : Flavour ℕ where
  accepts
    | .oneOf cs, unit => cs.any fun c => c.toNat == unit
    | .space, unit =>
      (9 ≤ unit && unit ≤ 13) || (0x2000 ≤ unit && unit ≤ 0x200a) ||
        [0x20, 0xa0, 0x1680, 0x2028, 0x2029, 0x202f, 0x205f, 0x3000, 0xfeff].contains unit
    | .any, unit => !([0x0a, 0x0d, 0x2028, 0x2029].contains unit)
  isWord unit := (0x30 ≤ unit && unit ≤ 0x39) || (0x41 ≤ unit && unit ≤ 0x5a) || unit == 0x5f ||
    (0x61 ≤ unit && unit ≤ 0x7a)
  isFinish rest := rest.isEmpty

/-- Only ASCII characters occur. -/
def isAscii : Pattern → Bool
  | empty => true
  | one (.oneOf cs) => cs.all fun c => c.toNat < 128
  | seq r r' => isAscii r && isAscii r'
  | alt r r' => isAscii r && isAscii r'
  | _ => false

/-- Any characters stand only in front of ASCII characters. -/
inductive Portable : Pattern → Prop
  | ascii {r : Pattern} (h : isAscii r = true) : Portable r
  | plusAny {r : Pattern} (h : isAscii r = true) : Portable (seq (plus .any) r)
  | starAny {r : Pattern} (h : isAscii r = true) : Portable (seq (star .any) r)
  | alt {r r' : Pattern} (h : Portable r) (h' : Portable r') : Portable (alt r r')
  | last {r : Pattern} (h : Portable r) : Portable (seq r empty)

/-- A text in which both flavours accept everything as any character. -/
def AcceptsAny (F : Flavour ℕ) (G : Flavour Char) (text : List Char) : Prop :=
  ∀ c ∈ text, G.accepts .any c = true ∧ ∀ unit ∈ codeUnits c, F.accepts .any unit = true

/-- Both flavours take a class of characters for these characters. -/
structure TakesClasses (F : Flavour ℕ) (G : Flavour Char) : Prop where
  units : ∀ cs unit, F.accepts (.oneOf cs) unit = true ↔ ∃ c ∈ cs, c.toNat = unit
  characters : ∀ cs c, G.accepts (.oneOf cs) c = true ↔ c ∈ cs

variable {F : Flavour ℕ} {G : Flavour Char} {r : Pattern} {x text : List Char}

theorem takesClasses (isWord isSpace : Char → Bool) :
    TakesClasses ecmaFlavour (pythonFlavour isWord isSpace) := by
  constructor
  · intro cs unit
    simp [ecmaFlavour]
  · intro cs c
    simp [pythonFlavour]

theorem isPlain_of_isAscii (h : isAscii r = true) : r.isPlain = true := by
  induction r with
  | empty | one | plus | star => rfl
  | boundary | start | finish => cases h
  | seq r r' ih ih' =>
    obtain ⟨hr, hr'⟩ := Bool.and_eq_true_iff.mp h
    exact Bool.and_eq_true_iff.mpr ⟨ih hr, ih' hr'⟩
  | alt r r' ih ih' =>
    obtain ⟨hr, hr'⟩ := Bool.and_eq_true_iff.mp h
    exact Bool.and_eq_true_iff.mpr ⟨ih hr, ih' hr'⟩

theorem isPlain_of_portable (h : Portable r) : r.isPlain = true := by
  induction h with
  | ascii h => exact isPlain_of_isAscii h
  | plusAny h => exact Bool.and_eq_true_iff.mpr ⟨rfl, isPlain_of_isAscii h⟩
  | starAny h => exact Bool.and_eq_true_iff.mpr ⟨rfl, isPlain_of_isAscii h⟩
  | alt _ _ ih ih' => exact Bool.and_eq_true_iff.mpr ⟨ih, ih'⟩
  | last _ ih => exact Bool.and_eq_true_iff.mpr ⟨ih, rfl⟩

/-! ## ASCII among code units -/

/-- An ASCII text is found at the end of the code units where it is at the end of the text. -/
theorem exists_of_utf16_eq_append {front : List ℕ} (hx : IsAscii x)
    (h : utf16 text = front ++ utf16 x) : ∃ t, text = t ++ x ∧ utf16 t = front := by
  induction text generalizing front with
  | nil =>
    have hboth := List.append_eq_nil_iff.mp h.symm
    exact ⟨[], (utf16_eq_nil_iff.mp hboth.2).symm, hboth.1.symm⟩
  | cons c text ih =>
    rw [utf16_cons] at h
    rcases List.append_eq_append_iff.mp h with ⟨m, hfront, hrest⟩ | ⟨m, hunits, hrest⟩
    · obtain ⟨t, rfl, rfl⟩ := ih hrest
      exact ⟨c :: t, rfl, hfront.symm⟩
    · cases front with
      | nil =>
        rw [List.nil_append] at h
        exact ⟨[], (utf16_injective h), rfl⟩
      | cons unit front =>
        cases m with
        | nil =>
          rw [List.append_nil] at hunits
          have hsame : text = x := utf16_injective hrest.symm
          exact ⟨[c], by rw [← hsame]; rfl, by rw [← hunits]; simp⟩
        | cons unit' m =>
          -- the second half of a pair is no ASCII character
          exfalso
          rcases codeUnits_cases c with ⟨-, hc⟩ | ⟨-, high, low, hc, -, hlow, -⟩
          · simp [hc] at hunits
          · rw [hc, List.cons_append] at hunits
            obtain ⟨-, hunits⟩ := List.cons.inj hunits
            cases front with
            | nil =>
              obtain ⟨rfl, -⟩ := List.cons.inj hunits
              cases x with
              | nil => cases hrest
              | cons c' x =>
                have hc' := hx c' List.mem_cons_self
                rw [utf16_cons, codeUnits, if_pos (by omega)] at hrest
                obtain ⟨hunit, -⟩ := List.cons.inj hrest
                omega
            | cons unit'' front => simp at hunits

/-- An ASCII text begins the code units where it begins the text. -/
theorem utf16_prefix_iff (hx : IsAscii x) : utf16 x <+: utf16 text ↔ x <+: text := by
  constructor
  · intro h
    induction x generalizing text with
    | nil => exact List.nil_prefix
    | cons c x ih =>
      have hc := hx c List.mem_cons_self
      have hrest : IsAscii x := fun c' hc' => hx c' (List.mem_cons_of_mem c hc')
      rw [utf16_cons, codeUnits, if_pos (by omega), List.singleton_append] at h
      cases text with
      | nil => simp at h
      | cons c' text =>
        rw [utf16_cons] at h
        rcases codeUnits_cases c' with ⟨-, hc'⟩ | ⟨-, high, low, hc', ⟨hhigh, -⟩, -⟩
        · rw [hc', List.singleton_append, List.cons_prefix_cons] at h
          obtain rfl : c = c' := Char.toNat_inj.mp h.1
          exact List.cons_prefix_cons.mpr ⟨rfl, ih hrest h.2⟩
        · rw [hc', List.cons_append, List.cons_prefix_cons] at h
          omega
  · rintro ⟨t, rfl⟩
    exact ⟨utf16 t, (utf16_append x t).symm⟩

/-! ## Languages -/

theorem isAscii_append {y : List Char} (hx : IsAscii x) (hy : IsAscii y) : IsAscii (x ++ y) :=
  fun c hc => (List.mem_append.mp hc).elim (hx c) (hy c)

theorem isAscii_of_mem_language (hclasses : TakesClasses F G) (h : isAscii r = true)
    (hx : x ∈ r.language G) : IsAscii x := by
  induction r generalizing x with
  | empty =>
    obtain rfl : x = [] := hx
    exact fun c hc => (List.not_mem_nil hc).elim
  | one k =>
    cases k with
    | oneOf cs =>
      obtain ⟨c, hc, rfl⟩ := hx
      intro c' hc'
      obtain rfl := List.mem_singleton.mp hc'
      exact of_decide_eq_true (List.all_eq_true.mp h c' ((hclasses.characters cs c').mp hc))
    | space => cases h
    | any => cases h
  | plus | star | boundary | start | finish => cases h
  | seq r r' ih ih' =>
    obtain ⟨hr, hr'⟩ := Bool.and_eq_true_iff.mp h
    obtain ⟨u, hu, v, hv, rfl⟩ := mem_language_seq.mp hx
    exact isAscii_append (ih hr hu) (ih' hr' hv)
  | alt r r' ih ih' =>
    obtain ⟨hr, hr'⟩ := Bool.and_eq_true_iff.mp h
    exact (mem_language_alt.mp hx).elim (ih hr) (ih' hr')

/-- A pattern of ASCII characters spells the code units of what it spells. -/
theorem mem_language_isAscii (hclasses : TakesClasses F G) (h : isAscii r = true) {w : List ℕ} :
    w ∈ r.language F ↔ ∃ x ∈ r.language G, utf16 x = w := by
  induction r generalizing w with
  | empty =>
    constructor
    · rintro hw
      obtain rfl : w = [] := hw
      exact ⟨[], rfl, rfl⟩
    · rintro ⟨x, hx, rfl⟩
      obtain rfl : x = [] := hx
      rfl
  | one k =>
    cases k with
    | oneOf cs =>
      have hunits {c : Char} (hc : c ∈ cs) : utf16 [c] = [c.toNat] := by
        have hlt := of_decide_eq_true (List.all_eq_true.mp h c hc)
        rw [utf16_cons, codeUnits, if_pos (by omega)]
        rfl
      constructor
      · rintro ⟨unit, hunit, rfl⟩
        obtain ⟨c, hc, rfl⟩ := (hclasses.units cs unit).mp hunit
        exact ⟨[c], ⟨c, (hclasses.characters cs c).mpr hc, rfl⟩, hunits hc⟩
      · rintro ⟨x, ⟨c, hc, rfl⟩, rfl⟩
        have hmem := (hclasses.characters cs c).mp hc
        exact ⟨c.toNat, (hclasses.units cs c.toNat).mpr ⟨c, hmem, rfl⟩, hunits hmem⟩
    | space => cases h
    | any => cases h
  | plus | star | boundary | start | finish => cases h
  | seq r r' ih ih' =>
    obtain ⟨hr, hr'⟩ := Bool.and_eq_true_iff.mp h
    rw [mem_language_seq]
    constructor
    · rintro ⟨u, hu, v, hv, rfl⟩
      obtain ⟨x, hx, rfl⟩ := (ih hr).mp hu
      obtain ⟨y, hy, rfl⟩ := (ih' hr').mp hv
      exact ⟨x ++ y, mem_language_seq.mpr ⟨x, hx, y, hy, rfl⟩, utf16_append x y⟩
    · rintro ⟨z, hz, rfl⟩
      obtain ⟨x, hx, y, hy, rfl⟩ := mem_language_seq.mp hz
      exact ⟨utf16 x, (ih hr).mpr ⟨x, hx, rfl⟩, utf16 y, (ih' hr').mpr ⟨y, hy, rfl⟩,
        (utf16_append x y).symm⟩
  | alt r r' ih ih' =>
    obtain ⟨hr, hr'⟩ := Bool.and_eq_true_iff.mp h
    rw [mem_language_alt, ih hr, ih' hr', ← exists_or]
    simp only [mem_language_alt, or_and_right]

theorem acceptsAny_append {y : List Char} (h : AcceptsAny F G (x ++ y)) :
    (∀ c ∈ x, G.accepts .any c = true) ∧ ∀ unit ∈ utf16 x, F.accepts .any unit = true := by
  constructor
  · exact fun c hc => (h c (List.mem_append_left y hc)).1
  · intro unit hunit
    obtain ⟨c, hc, hmem⟩ := List.mem_flatMap.mp hunit
    exact (h c (List.mem_append_left y hc)).2 unit hmem

/-- A portable pattern spells the code units of a text exactly when it spells the text. -/
theorem utf16_mem_language_iff (hclasses : TakesClasses F G) (h : Portable r)
    (hany : AcceptsAny F G text) : utf16 text ∈ r.language F ↔ text ∈ r.language G := by
  -- what stands before an ASCII text is accepted in both flavours
  have hfront {r : Pattern} (h : isAscii r = true) {P : List ℕ → Prop} {Q : List Char → Prop}
      (hPQ : ∀ t, P (utf16 t) ↔ Q t) :
      (∃ u, (P u ∧ ∀ unit ∈ u, F.accepts .any unit = true) ∧ ∃ v ∈ r.language F,
        u ++ v = utf16 text) ↔
      ∃ t, (Q t ∧ ∀ c ∈ t, G.accepts .any c = true) ∧ ∃ x ∈ r.language G, t ++ x = text := by
    constructor
    · rintro ⟨u, ⟨hu, -⟩, v, hv, hsplit⟩
      obtain ⟨x, hx, rfl⟩ := (mem_language_isAscii hclasses h).mp hv
      have hascii := isAscii_of_mem_language hclasses h hx
      obtain ⟨t, rfl, rfl⟩ := exists_of_utf16_eq_append hascii hsplit.symm
      exact ⟨t, ⟨(hPQ t).mp hu, (acceptsAny_append hany).1⟩, x, hx, rfl⟩
    · rintro ⟨t, ⟨ht, -⟩, x, hx, rfl⟩
      exact ⟨utf16 t, ⟨(hPQ t).mpr ht, (acceptsAny_append hany).2⟩, utf16 x,
        (mem_language_isAscii hclasses h).mpr ⟨x, hx, rfl⟩, (utf16_append t x).symm⟩
  induction h with
  | ascii h =>
    rw [mem_language_isAscii hclasses h]
    constructor
    · rintro ⟨x, hx, heq⟩
      rwa [← utf16_injective heq]
    · exact fun htext => ⟨text, htext, rfl⟩
  | plusAny h => exact hfront h fun t => not_congr utf16_eq_nil_iff
  | starAny h =>
    have hboth := hfront h (P := fun _ => True) (Q := fun _ => True) fun _ => Iff.rfl
    simp only [true_and] at hboth
    exact hboth
  | alt _ _ ih ih' => exact or_congr ih ih'
  | last _ ih => simpa using ih

/-! ## Anchored patterns -/

/-- The end of a line in ECMAScript. -/
def lineTerminators : List Char := ['\n', '\r', '\u2028', '\u2029']

theorem acceptsAny_of_notMem {isWord isSpace : Char → Bool}
    (h : ∀ c ∈ text, c ∉ lineTerminators) :
    AcceptsAny ecmaFlavour (pythonFlavour isWord isSpace) text := by
  intro c hc
  have hnot := h c hc
  constructor
  · have hnewline : c ≠ '\n' := fun heq => hnot (heq ▸ List.mem_cons_self)
    exact bne_iff_ne.mpr hnewline
  · intro unit hunit
    have hunits : unit ∉ lineTerminators.map Char.toNat := by
      rcases codeUnits_cases c with ⟨-, hc⟩ | ⟨-, high, low, hc, ⟨hhigh, -⟩, hlow, -⟩
      · rw [hc, List.mem_singleton] at hunit
        rw [hunit]
        intro hmem
        obtain ⟨c', hc', heq⟩ := List.mem_map.mp hmem
        exact hnot (Char.toNat_inj.mp heq ▸ hc')
      · rw [hc] at hunit
        have hlarge : 0xD800 ≤ unit := by
          rcases List.mem_cons.mp hunit with rfl | hunit
          · exact hhigh
          · exact (List.mem_singleton.mp hunit) ▸ hlow
        intro hmem
        have hsmall : ∀ unit ∈ lineTerminators.map Char.toNat, unit < 0xD800 := by decide
        have := hsmall unit hmem
        omega
    have haccepts : ecmaFlavour.accepts .any unit =
        !(lineTerminators.map Char.toNat).contains unit := rfl
    rw [haccepts, List.contains_eq_mem, Bool.not_eq_true']
    exact decide_eq_false hunits

theorem isPlain_of_mem_chain {rs : List Pattern} (h : (chain rs).isPlain = true) :
    ∀ r ∈ rs, r.isPlain = true := by
  induction rs with
  | nil => exact List.forall_mem_nil _
  | cons r rs ih =>
    obtain ⟨hr, hrs⟩ := Bool.and_eq_true_iff.mp h
    exact List.forall_mem_cons.mpr ⟨hr, ih hrs⟩

section Anchored

variable {isWord isSpace : Char → Bool} {rs : List Pattern}

/-- Behind `^`, both flavours find a pattern of ASCII characters in the same texts. -/
theorem search_start_isAscii (h : isAscii r = true) :
    (seq start r).search ecmaFlavour (utf16 text) =
      (seq start r).matchesStart (pythonFlavour isWord isSpace) text := by
  have hclasses := takesClasses isWord isSpace
  have hplain := isPlain_of_isAscii h
  rw [search_start, Bool.eq_iff_iff, matchesStart_start hplain, matchesStart_start hplain]
  constructor
  · rintro ⟨w, hw, hbegins⟩
    obtain ⟨x, hx, rfl⟩ := (mem_language_isAscii hclasses h).mp hw
    exact ⟨x, hx, (utf16_prefix_iff (isAscii_of_mem_language hclasses h hx)).mp hbegins⟩
  · rintro ⟨x, hx, hbegins⟩
    exact ⟨utf16 x, (mem_language_isAscii hclasses h).mpr ⟨x, hx, rfl⟩,
      (utf16_prefix_iff (isAscii_of_mem_language hclasses h hx)).mpr hbegins⟩

/-- Between `^` and `$`, both flavours find a portable pattern in the same texts of one line. -/
theorem search_start_finish (h : Portable (chain rs)) (htext : ∀ c ∈ text, c ∉ lineTerminators) :
    (chain (start :: (rs ++ [finish]))).search ecmaFlavour (utf16 text) =
      (chain (start :: (rs ++ [finish]))).matchesStart (pythonFlavour isWord isSpace) text := by
  have hplain := isPlain_of_mem_chain (isPlain_of_portable h)
  have hunits (rest : List ℕ) : ecmaFlavour.isFinish rest = true ↔ rest = [] := List.isEmpty_iff
  have hcharacters (rest : List Char) (hrest : rest <:+ text) :
      (pythonFlavour isWord isSpace).isFinish rest = true ↔ rest = [] := by
    have hnewline : rest ≠ ['\n'] := by
      rintro rfl
      exact htext '\n' (hrest.subset (List.mem_singleton_self _)) List.mem_cons_self
    simp [pythonFlavour, hnewline]
  have hstart : chain (start :: (rs ++ [finish])) = seq start (chain (rs ++ [finish])) := rfl
  rw [hstart, search_start, ← hstart, Bool.eq_iff_iff,
    matchesStart_start_finish hplain fun rest _ => hunits rest,
    matchesStart_start_finish hplain hcharacters]
  exact utf16_mem_language_iff (takesClasses isWord isSpace) h (acceptsAny_of_notMem htext)

end Anchored

end RelyLoop.EcmaScript
