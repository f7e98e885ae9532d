import RelyLoop.Normalizers.Contractions
import RelyLoop.Normalizers.Pipeline

/-!
# No query opens a local-params block

Solr reads a block of local parameters at the start of a value. Neutralizing puts a backslash before
it. A step of the pipeline may remove the backslash again, but none makes a text begin with what
opens a block unless it began so before.
-/

namespace RelyLoop.Normalizers

open Python Spaces Text

/-- The text begins with what opens a block, behind leading whitespace. -/
def OpensLocalParams (text : List Char) : Prop :=
  localParamsPrefix <+: text.dropWhile isWhitespace

instance : DecidablePred OpensLocalParams := fun text =>
  inferInstanceAs (Decidable (localParamsPrefix <+: text.dropWhile isWhitespace))

/-- Whitespace and the two characters that open a block. -/
def isOpening (c : Char) : Bool := isWhitespace c || localParamsPrefix.contains c

/-- Each character gives a piece of its own; of the opening characters, only the character itself
gives one. -/
def Piecewise (text : List Char) (pieces : List (List Char)) : Prop :=
  List.Forall₂ (fun c piece => piece ≠ [] ∧ ∀ d ∈ piece, isOpening d = true → piece = [c])
    text pieces

/-- `str.lower` maps each character to characters of its own, and those without case to
themselves. -/
def LowersPiecewise (table : CharacterTable) : Prop :=
  ∀ text, ∃ pieces, table.lower text = pieces.flatten ∧ Piecewise text pieces

variable {table : CharacterTable} {text text' : List Char} {pieces : List (List Char)} {c : Char}

theorem not_opens_nil : ¬OpensLocalParams [] := by decide

theorem opens_cons_of_space (hc : isWhitespace c = true) :
    OpensLocalParams (c :: text) ↔ OpensLocalParams text := by
  rw [OpensLocalParams, List.dropWhile_cons_of_pos hc]
  rfl

theorem opens_cons (hc : isWhitespace c = false) :
    OpensLocalParams (c :: text) ↔ c = '\x7b' ∧ text.head? = some '!' := by
  have hopening : localParamsPrefix = ['\x7b', '!'] := rfl
  rw [OpensLocalParams, List.dropWhile_cons_of_neg (by simp [hc]), hopening,
    List.cons_prefix_cons]
  cases text with
  | nil => simp
  | cons d text => simp [eq_comm]

theorem opens_append_of_space {space : List Char} (h : ∀ c ∈ space, isWhitespace c = true) :
    OpensLocalParams (space ++ text) ↔ OpensLocalParams text := by
  induction space with
  | nil => rfl
  | cons c space ih =>
    obtain ⟨hc, hrest⟩ := List.forall_mem_cons.mp h
    rw [List.cons_append, opens_cons_of_space hc, ih hrest]

/-- What opens a block contains a brace. -/
theorem mem_of_opens (h : OpensLocalParams text) : '\x7b' ∈ text := by
  have hmem : '\x7b' ∈ localParamsPrefix := by decide
  exact (List.dropWhile_suffix isWhitespace).subset (h.subset hmem)

/-- A longer text opens a block when its beginning does. -/
theorem opens_of_prefix (hbegin : text <+: text') (h : OpensLocalParams text) :
    OpensLocalParams text' := by
  obtain ⟨behind, rfl⟩ := hbegin
  induction text with
  | nil => exact absurd h not_opens_nil
  | cons c text ih =>
    cases hc : isWhitespace c with
    | true =>
      rw [opens_cons_of_space hc] at h
      rw [List.cons_append, opens_cons_of_space hc]
      exact ih h
    | false =>
      rw [opens_cons hc] at h
      rw [List.cons_append, opens_cons hc, List.head?_append, h.2]
      exact ⟨h.1, rfl⟩

/-! ## Neutralizing -/

/-- A neutralized text does not open a block. -/
theorem not_opens_neutralize (q : List Char) :
    ¬OpensLocalParams (neutralizeLeadingLocalParams q) := by
  rw [neutralizeLeadingLocalParams]
  split
  case isTrue =>
    have hlength : q.length - (q.dropWhile isWhitespace).length =
        (q.takeWhile isWhitespace).length := by
      have hsum := congrArg List.length 
        (List.takeWhile_append_dropWhile (p := isWhitespace) (l := q))
      rw [List.length_append] at hsum
      omega
    have htake : q.take (q.takeWhile isWhitespace).length = q.takeWhile isWhitespace :=
      (List.prefix_iff_eq_take.mp (List.takeWhile_prefix isWhitespace)).symm
    dsimp only
    rw [hlength, htake, opens_append_of_space fun c hc => List.mem_takeWhile_imp hc,
      opens_cons (by decide)]
    rintro ⟨hbrace, -⟩
    exact absurd hbrace (by decide)
  case isFalse h =>
    intro hopens
    exact h (List.isPrefixOf_iff_prefix.mpr hopens)

/-! ## The steps -/

theorem head?_of_piecewise (hpieces : Piecewise text pieces)
    (h : pieces.flatten.head? = some '!') : text.head? = some '!' := by
  cases hpieces with
  | nil => cases h
  | @cons c piece text pieces hpiece _ =>
    obtain ⟨hne, hself⟩ := hpiece
    cases piece with
    | nil => exact absurd rfl hne
    | cons d piece =>
      obtain rfl := Option.some.inj h
      obtain ⟨rfl, -⟩ := List.cons.inj (hself '!' List.mem_cons_self (by decide))
      rfl

/-- Changing each character by itself, and none into an opening one, opens no block. -/
theorem opens_of_piecewise (hpieces : Piecewise text pieces)
    (h : OpensLocalParams pieces.flatten) : OpensLocalParams text := by
  induction hpieces with
  | nil => exact h
  | @cons c piece text pieces hpiece hrest ih =>
    obtain ⟨hne, hself⟩ := hpiece
    cases piece with
    | nil => exact absurd rfl hne
    | cons d piece =>
      rw [List.flatten_cons, List.cons_append] at h
      cases hd : isWhitespace d with
      | true =>
        obtain ⟨rfl, rfl⟩ := List.cons.inj
          (hself d List.mem_cons_self (by rw [isOpening, hd, Bool.true_or]))
        rw [opens_cons_of_space hd] at h ⊢
        exact ih h
      | false =>
        obtain ⟨rfl, hmark⟩ := (opens_cons hd).mp h
        obtain ⟨rfl, rfl⟩ := List.cons.inj (hself '\x7b' List.mem_cons_self (by decide))
        exact (opens_cons hd).mpr ⟨rfl, head?_of_piecewise hrest hmark⟩

/-- Expanding contractions opens no block: an expansion begins with a letter. -/
theorem opens_of_expand (h : DocumentedTable table)
    (hopens : OpensLocalParams (contractionPattern.sub (flavour table) expansion text)) :
    OpensLocalParams text := by
  have hrule := sub_rule (isLiteral_flavour table) (separated_contractions h) (f := expansion)
    (P := fun text result => (OpensLocalParams result → OpensLocalParams text) ∧
      (result.head? = some '!' → text.head? = some '!'))
    ⟨id, id⟩ ?_ ?_ text
  · exact hrule.1 hopens
  · rintro a text result ⟨ih, hhead⟩
    constructor
    · cases ha : isWhitespace a with
      | true => rwa [opens_cons_of_space ha, opens_cons_of_space ha]
      | false =>
        rw [opens_cons ha, opens_cons ha]
        exact And.imp_right hhead
    · exact id
  · intro w hw text result _
    obtain ⟨-, -, -, -, hletter, -⟩ := contraction_spec hw
    obtain ⟨d, hd, hword⟩ : ∃ d, (expansion w).head? = some d ∧ asciiTable.isWord d = true :=
      (Option.any_eq_true _ (expansion w).head?).mp hletter
    obtain ⟨rest, hrest⟩ := List.head?_eq_some_iff.mp hd
    obtain ⟨hlow, hhigh⟩ := toNat_of_isWord hword
    rw [hrest, List.cons_append]
    constructor
    · rw [opens_cons (isWhitespace_of_toNat hlow hhigh)]
      rintro ⟨rfl, -⟩
      exact absurd hhigh (by decide)
    · intro hmark
      obtain rfl := Option.some.inj hmark
      exact absurd hlow (by decide)

theorem head?_of_collapse
    (h : (collapseFrom isWhitespace ' ' false text).head? = some '!') :
    text.head? = some '!' := by
  cases text with
  | nil => cases h
  | cons a text =>
    rw [collapseFrom] at h
    split at h
    case isTrue => cases h
    case isFalse => exact h

/-- Collapsing whitespace opens no block. -/
theorem opens_of_collapse {inRun : Bool}
    (h : OpensLocalParams (collapseFrom isWhitespace ' ' inRun text)) : OpensLocalParams text := by
  induction text generalizing inRun with
  | nil => exact h
  | cons a text ih =>
    rw [collapseFrom] at h
    split at h
    case isTrue ha =>
      rw [opens_cons_of_space ha]
      rw [opens_append_of_space (by cases inRun <;> simp; decide)] at h
      exact ih h
    case isFalse ha =>
      have hspace : isWhitespace a = false := by simpa using ha
      rw [opens_cons hspace] at h ⊢
      exact ⟨h.1, head?_of_collapse h.2⟩

/-- Trimming opens no block. -/
theorem opens_of_strip (h : OpensLocalParams (strip text)) : OpensLocalParams text := by
  have hkept : OpensLocalParams (text.dropWhile isWhitespace) :=
    opens_of_prefix (List.rdropWhile_prefix isWhitespace _) h
  have hsplit : text.takeWhile isWhitespace ++ text.dropWhile isWhitespace = text :=
    List.takeWhile_append_dropWhile
  rw [← hsplit]
  exact (opens_append_of_space fun c hc => List.mem_takeWhile_imp hc).mpr hkept

/-- Changing characters, and none into an opening one. -/
theorem piecewise_map {f : Char → Char} (h : ∀ c, isOpening (f c) = true → f c = c)
    (text : List Char) : Piecewise text (text.map fun c => [f c]) := by
  rw [Piecewise, List.forall₂_map_right_iff, List.forall₂_same]
  intro c _
  constructor
  · exact List.cons_ne_nil _ _
  · intro d hd hopening
    obtain rfl := List.mem_singleton.mp hd
    rw [h c hopening]

theorem flatten_map_singleton (f : Char → Char) (text : List Char) :
    (text.map fun c => [f c]).flatten = text.map f := by
  rw [← List.flatMap_def, ← List.map_eq_flatMap]

/-- No step makes a text open a block. -/
theorem opens_of_applyStep (h : DocumentedTable table) (hlower : LowersPiecewise table)
    {step : NormalizerStep} (hopens : OpensLocalParams (applyStep table step text)) :
    OpensLocalParams text := by
  cases step with
  | lowercase =>
    obtain ⟨pieces, hpieces, hpiecewise⟩ := hlower text
    rw [applyStep, hpieces] at hopens
    exact opens_of_piecewise hpiecewise hopens
  | stripPunctuation =>
    -- no brace is left, whatever stood before it
    rw [applyStep, sub_punctuationPattern] at hopens
    have hkept := List.of_mem_filter (mem_of_opens hopens)
    exact absurd hkept (by decide)
  | expandContractionsEn =>
    rw [applyStep] at hopens
    have hpre := opens_of_expand h hopens
    rw [← flatten_map_singleton] at hpre
    apply opens_of_piecewise (piecewise_map ?_ text) hpre
    intro c hopening
    split at hopening
    case isTrue => exact absurd hopening (by decide)
    case isFalse hne => exact if_neg hne
  | expandContractionsCustom => exact hopens
  | collapseWhitespace =>
    rw [applyStep, sub_plus] at hopens
    exact opens_of_collapse hopens
  | trim => exact opens_of_strip hopens

/-- No pipeline makes a text open a block. -/
theorem opens_of_applySelected (h : DocumentedTable table) (hlower : LowersPiecewise table)
    {steps order : List NormalizerStep}
    (hopens : OpensLocalParams (applySelected table steps order text)) :
    OpensLocalParams text := by
  induction order generalizing text with
  | nil => exact hopens
  | cons step order ih =>
    rw [applySelected, List.foldl_cons] at hopens
    have hfirst := ih hopens
    split at hfirst
    case isTrue => exact opens_of_applyStep h hlower hfirst
    case isFalse => exact hfirst

/-! ## What the template is given -/

variable {F : Type} {template : QueryTemplate} {params context : Dict String (Json F)}
  {queryText : List Char}

/-- The context holds the text that the label normalizes to. -/
theorem queryText_renderContext (h : renderContext table template params queryText = .ok context) :
    ∃ label steps, stepsForLabel (F := F) label = .ok steps ∧ context.get? "query_text" =
      some (.str (String.ofList (normalizePipeline table queryText steps))) := by
  rw [renderContext] at h
  dsimp only at h
  split at h
  case h_1 label _ =>
    cases hsteps : stepsForLabel (F := F) label with
    | error e =>
      rw [hsteps] at h
      cases h
    | ok steps =>
      rw [hsteps] at h
      refine ⟨label, steps, hsteps, ?_⟩
      change (if _ then _ else _) = _ at h
      split at h
      case isTrue =>
        obtain rfl := Except.ok.inj h
        rw [Dict.get?_set, if_pos rfl]
      case isFalse => cases h
  case h_2 => cases h

/-- Whatever the query and the label are, the text that the Solr template is given opens no block
of local parameters. -/
theorem solr_opens_no_localParams (h : DocumentedTable table) (hlower : LowersPiecewise table)
    (q : List Char) :
    (∀ label steps, stepsForLabel (F := F) label = .ok steps →
      ¬OpensLocalParams (normalizePipeline table (neutralizeLeadingLocalParams q) steps)) ∧
      ∀ template params context, solrContext (F := F) table template params q = .ok context →
        ∃ text, context.get? "query_text" = some (.str text) ∧ ¬OpensLocalParams text.toList := by
  have hnever (steps : List NormalizerStep) :
      ¬OpensLocalParams (normalizePipeline table (neutralizeLeadingLocalParams q) steps) :=
    fun hopens => not_opens_neutralize q (opens_of_applySelected h hlower hopens)
  constructor
  · exact fun label steps _ => hnever steps
  · intro template params context hcontext
    obtain ⟨label, steps, -, htext⟩ := queryText_renderContext hcontext
    refine ⟨_, htext, ?_⟩
    rw [String.toList_ofList]
    exact hnever steps

theorem lowersPiecewise_asciiTable : LowersPiecewise asciiTable := by
  intro text
  have hpieces : asciiTable.lower text = (text.map fun c => [c.toLower]).flatten :=
    (flatten_map_singleton Char.toLower text).symm
  refine ⟨_, hpieces, ?_⟩
  apply piecewise_map
  intro c hopening
  cases hupper : c.isUpper with
  | false => exact toLower_of_isUpper hupper
  | true =>
    -- a small letter opens nothing
    exfalso
    have hrange := toNat_of_isUpper hupper
    have hlower := toNat_toLower hupper
    rw [isOpening, isWhitespace_of_toNat (by omega) (by omega), Bool.false_or] at hopening
    have hmem : c.toLower ∈ ['\x7b', '!'] := by simpa [localParamsPrefix] using hopening
    simp only [List.mem_cons, List.not_mem_nil, or_false] at hmem
    rcases hmem with hbrace | hmark
    · rw [hbrace] at hlower
      have hcode : '\x7b'.toNat = 123 := rfl
      omega
    · rw [hmark] at hlower
      have hcode : '!'.toNat = 33 := rfl
      omega

/-- A template without parameters of its own. -/
def plainTemplate : QueryTemplate := ⟨"\x7b\x7b query_text \x7d\x7d", Dict.empty⟩

/-- The context for a query that would switch the parser. -/
def funcContext : Dict String (Json ℚ) :=
  Dict.empty.set "query_text" (.str "\\\x7b!func\x7dboost")

/-- A query that would switch the parser, with the label `lowercase+trim`. -/
theorem solr_opens_no_localParams_func :
    ¬OpensLocalParams (normalizePipeline asciiTable
        (neutralizeLeadingLocalParams " \x7b!func\x7dBoost".toList) [.lowercase, .trim]) ∧
      ∃ text, funcContext.get? "query_text" = some (.str text) ∧
        ¬OpensLocalParams text.toList := by
  obtain ⟨hlabels, hcontexts⟩ := solr_opens_no_localParams (F := ℚ) documentedTable_asciiTable
    lowersPiecewise_asciiTable " \x7b!func\x7dBoost".toList
  constructor
  · exact hlabels "lowercase+trim" [.lowercase, .trim] (by rfl)
  · exact hcontexts plainTemplate (Dict.empty.set "query_normalizer" (.str "lowercase+trim"))
      funcContext (by rfl)

end RelyLoop.Normalizers
