import RelyLoop.Normalizers.Contractions

/-!
# Normalizing twice

Each step leaves a text that it would not change again, and no later step of `STEP_ORDER` undoes
this. So the normalized text is done with every selected step.
-/

namespace RelyLoop.Normalizers

open Python Spaces Text

variable {table : CharacterTable} {text : List Char} {c : Char}

/-! ## Texts that a step is done with -/

/-- The texts that a step does not change. -/
def Done (table : CharacterTable) (step : NormalizerStep) (text : List Char) : Prop :=
  match step with
  | .lowercase => ∀ c ∈ text, table.lower [c] = [c]
  | .stripPunctuation => ∀ c ∈ text, c ∉ punctuationToStrip
  | .expandContractionsEn =>
    smartApostrophe ∉ text ∧ NoneBounded table.isWord contractionWords none text
  | .expandContractionsCustom => True
  | .collapseWhitespace => Collapsed isWhitespace ' ' text
  | .trim => Trimmed isWhitespace text

/-- A step does not change a text that it is done with. -/
theorem applyStep_of_done (h : DocumentedTable table) {step : NormalizerStep}
    (hdone : Done table step text) : applyStep table step text = text := by
  cases step with
  | lowercase => exact h.lower_of_forall text hdone
  | stripPunctuation =>
    rw [applyStep, sub_punctuationPattern, List.filter_eq_self]
    intro c hc
    simpa using hdone c hc
  | expandContractionsEn =>
    have hpre : text.map (fun c => if c = smartApostrophe then '\'' else c) = text := by
      apply (List.map_congr_left ?_).trans (List.map_id text)
      intro c hc
      apply if_neg
      rintro rfl
      exact hdone.1 hc
    rw [applyStep, hpre]
    exact sub_of_noneBounded (isLiteral_flavour table) (separated_contractions h)
      (settled_contractions h) hdone.2
  | expandContractionsCustom => rfl
  | collapseWhitespace =>
    rw [applyStep, sub_plus]
    exact collapseFrom_of_collapsed hdone (fun hfalse => by cases hfalse)
  | trim => exact trim_of_trimmed hdone

/-- Expanding adds only characters of expansions. -/
theorem mem_expand (h : DocumentedTable table)
    (hc : c ∈ contractionPattern.sub (flavour table) expansion text) :
    c ∈ text ∨ isContractionChar c = true := by
  revert c
  apply sub_rule (isLiteral_flavour table) (separated_contractions h)
    (P := fun text result => ∀ {c}, c ∈ result → c ∈ text ∨ isContractionChar c = true)
  · simp
  · intro a text result ih c hc
    rcases List.mem_cons.mp hc with rfl | hrest
    · exact Or.inl List.mem_cons_self
    · exact (ih hrest).imp_left (List.mem_cons_of_mem a)
  · intro w hw text result ih c hc
    rcases List.mem_append.mp hc with hnew | hrest
    · exact Or.inr ((contraction_spec hw).2.1 c hnew).1
    · exact (ih hrest).imp_left (List.mem_append_right w)

/-- A step other than lowercasing adds only characters of contractions and expansions. -/
theorem mem_applyStep (h : DocumentedTable table) {step : NormalizerStep}
    (hstep : step ≠ .lowercase) (hc : c ∈ applyStep table step text) :
    c ∈ text ∨ isContractionChar c = true := by
  cases step with
  | lowercase => exact absurd rfl hstep
  | stripPunctuation =>
    rw [applyStep, sub_punctuationPattern] at hc
    exact Or.inl (List.mem_of_mem_filter hc)
  | expandContractionsEn =>
    rcases mem_expand h hc with hpre | hnew
    · obtain ⟨a, ha, rfl⟩ := List.mem_map.mp hpre
      split
      case isTrue => exact Or.inr (by decide)
      case isFalse => exact Or.inl ha
    · exact Or.inr hnew
  | expandContractionsCustom => exact Or.inl hc
  | collapseWhitespace =>
    rw [applyStep, sub_plus] at hc
    rcases mem_of_mem_collapseFrom hc with rfl | hmem
    · exact Or.inr (by decide)
    · exact Or.inl hmem
  | trim => exact Or.inl ((trim_isInfix isWhitespace text).subset hc)

/-- A step is done with what it has written. -/
theorem done_applyStep (h : DocumentedTable table) (step : NormalizerStep) (text : List Char) :
    Done table step (applyStep table step text) := by
  cases step with
  | lowercase => exact h.lower_lower text
  | stripPunctuation =>
    intro c hc
    rw [applyStep, sub_punctuationPattern] at hc
    simpa using List.of_mem_filter hc
  | expandContractionsEn =>
    constructor
    · intro hsmart
      rcases mem_expand h hsmart with hpre | hnew
      · obtain ⟨a, -, ha⟩ := List.mem_map.mp hpre
        split at ha
        case isTrue => exact absurd ha (by decide)
        case isFalse hne => exact hne ha
      · exact absurd hnew (by decide)
    · exact noneBounded_sub (isLiteral_flavour table) (separated_contractions h)
        (settled_contractions h) _
  | expandContractionsCustom => trivial
  | collapseWhitespace =>
    rw [applyStep, sub_plus]
    exact collapsed_collapseFrom false text
  | trim => exact trimmed_trim isWhitespace text

/-! ## No later step undoes an earlier one -/

/-- `step` leaves what `earlier` is done with. -/
def Keeps (table : CharacterTable) (earlier step : NormalizerStep) : Prop :=
  ∀ text, Done table earlier text → Done table earlier (applyStep table step text)

variable {step : NormalizerStep}

theorem keeps_lowercase (h : DocumentedTable table) (hstep : step ≠ .lowercase) :
    Keeps table .lowercase step := by
  intro text hdone c hc
  rcases mem_applyStep h hstep hc with hmem | hnew
  · exact hdone c hmem
  · obtain ⟨hascii, hupper⟩ := toNat_lt_of_isContractionChar hnew
    exact h.lower_ascii c hascii hupper

theorem keeps_stripPunctuation (h : DocumentedTable table) (hstep : step ≠ .lowercase) :
    Keeps table .stripPunctuation step := by
  intro text hdone c hc hpunctuation
  rcases mem_applyStep h hstep hc with hmem | hnew
  · exact hdone c hmem hpunctuation
  · rw [not_isContractionChar_of_mem hpunctuation] at hnew
    cases hnew

/-- Whitespace bounds a word before and after it is collapsed or trimmed. -/
theorem keeps_expandContractionsEn (h : DocumentedTable table)
    (hstep : step ∈ [.expandContractionsCustom, .collapseWhitespace, .trim]) :
    Keeps table .expandContractionsEn step := by
  rintro text ⟨hsmart, hnone⟩
  constructor
  · intro hc
    rcases mem_applyStep h (by rintro rfl; simp at hstep) hc with hmem | hnew
    · exact hsmart hmem
    · exact absurd hnew (by decide)
  · cases step with
    | lowercase | stripPunctuation | expandContractionsEn => simp at hstep
    | expandContractionsCustom => exact hnone
    | collapseWhitespace =>
      rw [applyStep, sub_plus]
      apply hnone.collapse (by decide) h.isWord_space
      intro w hw
      exact ⟨ne_nil_of_head?_any (contraction_spec hw).2.2.1, fun c hc =>
        ((contraction_spec hw).1 c hc).2⟩
    | trim => exact hnone.trim h.isWord_space

theorem stepOrder_pairwise_keeps (h : DocumentedTable table) :
    stepOrder.Pairwise (Keeps table) := by
  constructor
  · intro step hstep
    exact keeps_lowercase h (by rintro rfl; simp at hstep)
  constructor
  · intro step hstep
    exact keeps_stripPunctuation h (by rintro rfl; simp at hstep)
  constructor
  · exact fun step hstep => keeps_expandContractionsEn h hstep
  constructor
  · exact fun step _ text _ => trivial
  constructor
  · intro step hstep text hdone
    obtain rfl := List.mem_singleton.mp hstep
    exact hdone.part (trim_isInfix isWhitespace text)
  · exact List.pairwise_singleton _ _

/-! ## The whole pipeline -/

variable {steps order : List NormalizerStep}

/-- Selected steps that are done with a text do not change it. -/
theorem applySelected_of_done (h : DocumentedTable table)
    (hdone : ∀ step ∈ order, step ∈ steps → Done table step text) :
    applySelected table steps order text = text := by
  induction order with
  | nil => rfl
  | cons step order ih =>
    obtain ⟨hstep, hrest⟩ := List.forall_mem_cons.mp hdone
    rw [applySelected, List.foldl_cons]
    split
    case isTrue hmem =>
      rw [applyStep_of_done h (hstep hmem)]
      exact ih hrest
    case isFalse => exact ih hrest

/-- Steps that each keep what another step is done with keep it together. -/
theorem Keeps.applySelected (hkeeps : ∀ t ∈ order, Keeps table step t)
    (hdone : Done table step text) :
    Done table step (applySelected table steps order text) := by
  induction order generalizing text with
  | nil => exact hdone
  | cons t order ih =>
    obtain ⟨ht, hrest⟩ := List.forall_mem_cons.mp hkeeps
    rw [Normalizers.applySelected, List.foldl_cons]
    apply ih hrest
    split
    case isTrue => exact ht text hdone
    case isFalse => exact hdone

/-- When no step undoes an earlier one, every selected step is done with the result. -/
theorem done_applySelected (h : DocumentedTable table) (horder : order.Pairwise (Keeps table))
    (hmem : step ∈ order) (hselected : step ∈ steps) :
    Done table step (applySelected table steps order text) := by
  induction order generalizing text with
  | nil => cases hmem
  | cons t order ih =>
    obtain ⟨ht, hrest⟩ := List.pairwise_cons.mp horder
    rw [applySelected, List.foldl_cons]
    rcases List.mem_cons.mp hmem with rfl | hlater
    · rw [if_pos hselected]
      exact Keeps.applySelected ht (done_applyStep h step text)
    · exact ih hrest hlater

/-- Normalizing a second time changes nothing. With both whitespace steps selected, the result has
no whitespace at its ends and nowhere twice in a row. -/
theorem normalizePipeline_settles (h : DocumentedTable table) (text : List Char)
    (steps : List NormalizerStep) :
    normalizePipeline table (normalizePipeline table text steps) steps =
        normalizePipeline table text steps ∧
      (.collapseWhitespace ∈ steps → .trim ∈ steps →
        (∀ c ∈ (normalizePipeline table text steps).head?, isWhitespace c = false) ∧
          (∀ c ∈ (normalizePipeline table text steps).getLast?, isWhitespace c = false) ∧
          (normalizePipeline table text steps).IsChain fun c d =>
            isWhitespace c = false ∨ isWhitespace d = false) := by
  have hdone : ∀ step ∈ steps, Done table step (normalizePipeline table text steps) := by
    intro step hstep
    have hmem : step ∈ stepOrder := by cases step <;> decide
    exact done_applySelected h (stepOrder_pairwise_keeps h) hmem hstep
  constructor
  · exact applySelected_of_done h fun step _ hstep => hdone step hstep
  · intro hcollapse htrim
    have htrimmed : Trimmed isWhitespace (normalizePipeline table text steps) := hdone .trim htrim
    have hcollapsed : Collapsed isWhitespace ' ' (normalizePipeline table text steps) :=
      hdone .collapseWhitespace hcollapse
    exact ⟨htrimmed.head, htrimmed.last, hcollapsed.apart⟩

/-- All six steps on a query with a smart apostrophe. -/
theorem normalizePipeline_settles_smartQuote :
    normalizePipeline asciiTable "  What\u2019s  UP? ".toList stepOrder = "what is up".toList ∧
      normalizePipeline asciiTable
          (normalizePipeline asciiTable "  What\u2019s  UP? ".toList stepOrder) stepOrder =
        normalizePipeline asciiTable "  What\u2019s  UP? ".toList stepOrder ∧
      (∀ c ∈ (normalizePipeline asciiTable "  What\u2019s  UP? ".toList stepOrder).head?,
        isWhitespace c = false) ∧
      (∀ c ∈ (normalizePipeline asciiTable "  What\u2019s  UP? ".toList stepOrder).getLast?,
        isWhitespace c = false) ∧
      (normalizePipeline asciiTable "  What\u2019s  UP? ".toList stepOrder).IsChain fun c d =>
        isWhitespace c = false ∨ isWhitespace d = false := by
  obtain ⟨htwice, hspaces⟩ := normalizePipeline_settles documentedTable_asciiTable
    "  What\u2019s  UP? ".toList stepOrder
  exact ⟨by decide +kernel, htwice, hspaces (by decide) (by decide)⟩

end RelyLoop.Normalizers
