import RelyLoop.Normalizers.Pipeline
import RelyLoop.Text.Ascii
import Mathlib.Data.List.Dedup

/-!
# Contractions

The thirty contractions and their expansions, checked entry by entry: contractions cannot overlap,
and no expansion supplies a part of a contraction. All of their characters are ASCII.
-/

namespace RelyLoop.Normalizers

open Python Spaces Text

/-- What the pipeline relies on of the Unicode tables: lowercasing leaves nothing to lowercase,
and it changes a text only where it changes a character; on ASCII the tables are the usual ones;
no whitespace is a word character. -/
structure DocumentedTable (table : CharacterTable) : Prop where
  lower_lower : ∀ text, ∀ c ∈ table.lower text, table.lower [c] = [c]
  lower_of_forall : ∀ text, (∀ c ∈ text, table.lower [c] = [c]) → table.lower text = text
  lower_ascii : ∀ c : Char, c.toNat < 128 → c.isUpper = false → table.lower [c] = [c]
  isWord_ascii : ∀ c : Char, c.toNat < 128 → table.isWord c = asciiTable.isWord c
  isWord_space : ∀ c, isWhitespace c = true → table.isWord c = false

/-! ## ASCII -/

section Ascii

variable {c : Char}

theorem toNat_of_isWord (h : asciiTable.isWord c = true) : 48 ≤ c.toNat ∧ c.toNat ≤ 122 := by
  rcases Bool.or_eq_true_iff.mp h with hletter | hunderscore
  · rcases Bool.or_eq_true_iff.mp hletter with halpha | hdigit
    · rcases Bool.or_eq_true_iff.mp halpha with hupper | hlower
      · have hrange := toNat_of_isUpper hupper
        omega
      · have hrange := toNat_of_isLower hlower
        omega
    · have hrange := toNat_of_isDigit hdigit
      omega
  · obtain rfl := beq_iff_eq.mp hunderscore
    decide

theorem isWhitespace_of_toNat (hlow : 48 ≤ c.toNat) (hhigh : c.toNat ≤ 122) :
    isWhitespace c = false := by
  simp [isWhitespace, isSpace]
  omega

end Ascii

/-- The tables on ASCII are as documented. -/
theorem documentedTable_asciiTable : DocumentedTable asciiTable where
  lower_lower text c hc := by
    obtain ⟨a, -, rfl⟩ := List.mem_map.mp hc
    exact congrArg (fun c => [c]) (toLower_toLower a)
  lower_of_forall text h := by
    apply (List.map_congr_left ?_).trans (List.map_id text)
    intro c hc
    exact List.singleton_injective (h c hc)
  lower_ascii c _ hupper := congrArg (fun c => [c]) (toLower_of_isUpper hupper)
  isWord_ascii _ _ := rfl
  isWord_space c hc := by
    rw [Bool.eq_false_iff]
    intro hword
    obtain ⟨hlow, hhigh⟩ := toNat_of_isWord hword
    rw [isWhitespace_of_toNat hlow hhigh] at hc
    cases hc

/-! ## The contractions -/

theorem mem_contractionWords {word : List Char} :
    word ∈ contractionWords ↔ word ∈ contractionTable.map Prod.fst :=
  List.mem_insertionSort _

/-- The characters of the contractions and of their expansions. -/
def isContractionChar (c : Char) : Bool := c.isLower || c == '\'' || c == ' '

theorem contractions_facts : (contractionTable.all fun e =>
    e.1.all (fun c => isContractionChar c && !isWhitespace c) &&
      e.2.all (fun c => isContractionChar c && c != '\'') &&
      e.1.head?.any asciiTable.isWord && e.1.getLast?.any asciiTable.isWord &&
      e.2.head?.any asciiTable.isWord && e.2.getLast?.any asciiTable.isWord &&
      e.1.contains '\'' && expansion e.1 == e.2) = true := by
  decide +kernel

/-- The ends of the contractions behind the boundaries inside of them. -/
def contractionTails : List (List Char) :=
  ((contractionTable.map Prod.fst).flatMap fun w =>
    ((List.range w.length).filter fun i => 0 < i &&
      (w.take i).getLast?.any asciiTable.isWord != (w.drop i).head?.any asciiTable.isWord).map
        w.drop).dedup

theorem drop_mem_contractionTails {w : List Char} (hw : w ∈ contractionTable.map Prod.fst) {i : ℕ}
    (hi : i < w.length) (hpos : 0 < i)
    (hboundary : (w.take i).getLast?.any asciiTable.isWord ≠
      (w.drop i).head?.any asciiTable.isWord) : w.drop i ∈ contractionTails := by
  refine List.mem_dedup.mpr (List.mem_flatMap.mpr ⟨w, hw, List.mem_map.mpr ⟨i, ?_, rfl⟩⟩)
  rw [List.mem_filter, List.mem_range, Bool.and_eq_true, decide_eq_true_iff, bne_iff_ne]
  exact ⟨hi, hpos, hboundary⟩

/-- No contraction and no expansion stands at such an end, and none goes on behind it. -/
theorem apart_tails : ∀ tail ∈ contractionTails,
    ∀ w ∈ contractionTable.map Prod.fst ++ contractionTable.map Prod.snd,
      ¬w <+: tail ∧ (tail <+: w → (w.drop tail.length).head?.any asciiTable.isWord = true) := by
  decide +kernel

/-- No expansion ends as a contraction begins before a boundary inside of it. -/
theorem apart_heads : ∀ w ∈ contractionTable.map Prod.fst, ∀ i < w.length, 0 < i →
    (w.take i).getLast?.any asciiTable.isWord ≠ (w.drop i).head?.any asciiTable.isWord →
      ∀ e ∈ contractionTable.map Prod.snd, ¬w.take i <:+ e := by
  decide +kernel

theorem prefix_free_contractions : ∀ w ∈ contractionTable.map Prod.fst,
    ∀ w' ∈ contractionTable.map Prod.fst, w <+: w' → w = w' := by
  decide +kernel

variable {table : CharacterTable} {text word : List Char} {c : Char}

theorem expansion_of_mem {e : List Char × List Char} (he : e ∈ contractionTable) :
    expansion e.1 = e.2 := by
  have hfacts := List.all_eq_true.mp contractions_facts e he
  exact beq_iff_eq.mp (Bool.and_eq_true_iff.mp hfacts).2

theorem contraction_cases (hword : word ∈ contractionWords) :
    ∃ e ∈ contractionTable, e.1 = word ∧ e.2 = expansion word := by
  obtain ⟨e, he, rfl⟩ := List.mem_map.mp (mem_contractionWords.mp hword)
  exact ⟨e, he, rfl, (expansion_of_mem he).symm⟩

theorem expansion_mem (hword : word ∈ contractionWords) :
    expansion word ∈ contractionTable.map Prod.snd := by
  obtain ⟨e, he, -, hexpansion⟩ := contraction_cases hword
  exact List.mem_map.mpr ⟨e, he, hexpansion⟩

/-- What is known of a contraction and its expansion. -/
theorem contraction_spec (hword : word ∈ contractionWords) :
    (∀ c ∈ word, isContractionChar c = true ∧ isWhitespace c = false) ∧
      (∀ c ∈ expansion word, isContractionChar c = true ∧ c ≠ '\'') ∧
      word.head?.any asciiTable.isWord = true ∧ word.getLast?.any asciiTable.isWord = true ∧
      (expansion word).head?.any asciiTable.isWord = true ∧
      (expansion word).getLast?.any asciiTable.isWord = true ∧ '\'' ∈ word := by
  obtain ⟨e, he, rfl, hexpansion⟩ := contraction_cases hword
  rw [← hexpansion]
  have hfacts := (Bool.and_eq_true_iff.mp (List.all_eq_true.mp contractions_facts e he)).1
  simpa only [Bool.and_eq_true, List.all_eq_true, List.contains_iff_mem, bne_iff_ne,
    Bool.not_eq_true', and_assoc] using hfacts

theorem toNat_lt_of_isContractionChar (hc : isContractionChar c = true) :
    c.toNat < 128 ∧ c.isUpper = false := by
  simp only [isContractionChar, Bool.or_eq_true, beq_iff_eq] at hc
  rcases hc with (hlower | rfl) | rfl
  · obtain ⟨hlow, hhigh⟩ := toNat_of_isLower hlower
    exact ⟨by omega, isUpper_eq_false (Or.inr (by omega))⟩
  · decide
  · decide

theorem not_isContractionChar_of_mem (hc : c ∈ punctuationToStrip) :
    isContractionChar c = false := by
  have hall : punctuationToStrip.all (fun c => !isContractionChar c) = true := by decide
  simpa using List.all_eq_true.mp hall c hc

theorem DocumentedTable.isWord_of_isContractionChar (h : DocumentedTable table)
    (hc : isContractionChar c = true) : asciiTable.isWord c = table.isWord c :=
  (h.isWord_ascii c (toNat_lt_of_isContractionChar hc).1).symm

theorem separated_contractions (h : DocumentedTable table) :
    Separated table.isWord contractionWords := by
  have hascii : Separated asciiTable.isWord contractionWords := by
    constructor
    · exact List.ne_nil_of_mem (mem_contractionWords.mpr (List.mem_map.mpr
        ⟨_, List.mem_of_getElem? (i := 0) rfl, rfl⟩))
    · exact fun w hw => (contraction_spec hw).2.2.2.1
    · intro w hw w' hw'
      exact prefix_free_contractions w (mem_contractionWords.mp hw) w' (mem_contractionWords.mp hw')
    · intro w hw w' hw' i hi hpos hboundary
      have htail := drop_mem_contractionTails (mem_contractionWords.mp hw) hi hpos hboundary
      rw [← List.length_drop]
      exact apart_tails _ htail w' (List.mem_append_left _ (mem_contractionWords.mp hw'))
  apply hascii.congr
  intro w hw c hc
  exact h.isWord_of_isContractionChar ((contraction_spec hw).1 c hc).1

theorem settled_contractions (h : DocumentedTable table) :
    Settled table.isWord contractionWords expansion := by
  have hascii : Settled asciiTable.isWord contractionWords expansion := by
    constructor
    · exact fun w hw => (contraction_spec hw).2.2.1
    · exact fun w hw => (contraction_spec hw).2.2.2.2.1
    · exact fun w hw => (contraction_spec hw).2.2.2.2.2.1
    · intro w hw w' hw' hoccur
      have happ := hoccur.subset (contraction_spec hw).2.2.2.2.2.2
      exact ((contraction_spec hw').2.1 _ happ).2 rfl
    · intro w hw i hi hpos hboundary w' hw'
      have hw := mem_contractionWords.mp hw
      have hexpansion := expansion_mem hw'
      have htail := drop_mem_contractionTails hw hi hpos hboundary
      rw [← List.length_drop]
      exact ⟨apart_heads w hw i hi hpos hboundary _ hexpansion,
        apart_tails _ htail _ (List.mem_append_right _ hexpansion)⟩
  apply hascii.congr
  intro w hw c hc
  rcases List.mem_append.mp hc with hleft | hright
  · exact h.isWord_of_isContractionChar ((contraction_spec hw).1 c hleft).1
  · exact h.isWord_of_isContractionChar ((contraction_spec hw).2.1 c hright).1

theorem isLiteral_flavour (table : CharacterTable) : (flavour table).IsLiteral := by
  intro c a
  change [c].contains a = (a == c)
  rw [List.contains_cons, List.contains_nil, Bool.or_false]

/-- Stripping removes characters. -/
theorem sub_punctuationPattern (table : CharacterTable) (text : List Char) :
    punctuationPattern.sub (flavour table) (fun _ => []) text =
      text.filter fun c => !punctuationToStrip.contains c := by
  rw [punctuationPattern, sub_one]
  induction text with
  | nil => rfl
  | cons a text ih =>
    rw [List.flatMap_cons, ih, List.filter_cons]
    have haccepts : (flavour table).accepts (.oneOf punctuationToStrip) a =
      punctuationToStrip.contains a := rfl
    rw [haccepts]
    cases punctuationToStrip.contains a <;> rfl

end RelyLoop.Normalizers
