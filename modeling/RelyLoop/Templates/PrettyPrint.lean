import RelyLoop.Templates.JinjaJson

/-!
# Pretty-printed templates

`prettyPrintJinjaJson` sends a template through `JSON.parse` and `JSON.stringify`, with sentinels
for its expressions. What it prints is the same template, and printed as it is, unless objects
reorder or lose members, numbers are respelled, or a sentinel stands elsewhere in what is printed.
-/

namespace RelyLoop.Templates

open Python EcmaScript JsonTree

/-! ## The code -/

/-- Why nothing is printed. -/
inductive PrettyFailure where
  | emptyBody
  | invalidJson
  deriving DecidableEq

/-- The code units that `trim` removes. -/
def trimSpaces : List ℕ :=
  [9, 10, 11, 12, 13, 0x20, 0xA0, 0x1680, 0x2000, 0x2001, 0x2002, 0x2003, 0x2004, 0x2005, 0x2006,
    0x2007, 0x2008, 0x2009, 0x200A, 0x2028, 0x2029, 0x202F, 0x205F, 0x3000, 0xFEFF]

def isTrimSpace (u : UInt16) : Bool := trimSpaces.contains u.toNat

/-- The loop that puts the expressions back, by `split` and `join`. -/
def restoreFrom : ℕ → List JsString → JsString → JsString
  | _, [], formatted => formatted
  | i, expr :: placeholders, formatted =>
    restoreFrom (i + 1) placeholders (replaceAll (sentinelToken i) expr formatted)

/-- `prettyPrintJinjaJson`. -/
def prettyPrintJinjaJson (F : Type) [JsNumber F] (source : JsString) :
    Except PrettyFailure JsString :=
  if source.all isTrimSpace then .error .emptyBody
  else
    let (sentinelled, placeholders) := sentinelUnquotedJinja source
    match (parseJson sentinelled : Option (JsonTree JsString (JsAtom F))) with
    | none => .error .invalidJson
    | some parsed => .ok (restoreFrom 0 placeholders (stringify parsed))

/-! ## What it promises -/

/-- Both texts spell the same template: the same structure and order of keys, strings of the same
values, and numbers and expressions verbatim. -/
def SameTemplate (source out : JsString) : Prop :=
  ∃ template, readTemplate source = some template ∧ readTemplate out = some template

/-- What is printed is the same template, and printed as it is. -/
def Meets (F : Type) [JsNumber F] (source out : JsString) : Prop :=
  SameTemplate source out ∧ prettyPrintJinjaJson F out = .ok out

/-! ## Numbered templates -/

/-- A template, each key and atom with the number of expressions before it. -/
abbrev Numbered := JsonTree (ℕ × TemplateKey) (ℕ × TemplateAtom)

def numberedKey? (a : ℕ × TemplateAtom) : Option (ℕ × TemplateKey) := a.2.key?.map (a.1, ·)

def numberedAtom (key : ℕ × TemplateKey) : ℕ × TemplateAtom := (key.1, key.2.atom)

/-- The numbered template of some tokens. -/
def numbered (tokens : List (Token TemplateAtom)) : Option Numbered :=
  read numberedKey? (numberFrom 0 tokens)

/-- The template without its numbers. -/
def Numbered.forget (N : Numbered) : Template := N.map Prod.snd Prod.snd

/-- The JSON that the scanner makes of a template. -/
def Numbered.encode (N : Numbered) : JsonTree JsString Atom := N.map encodeKey encodeAtom

theorem map_snd_numberFrom (index : ℕ) (tokens : List (Token TemplateAtom)) :
    (numberFrom index tokens).map (Token.map Prod.snd) = tokens := by
  induction tokens generalizing index with
  | nil => rfl
  | cons token tokens ih =>
    cases token with
    | atom a =>
      cases a with
      | json a => exact congrArg (_ :: ·) (ih index)
      | expr text => exact congrArg (_ :: ·) (ih (index + 1))
    | _ => exact congrArg (_ :: ·) (ih index)

/-- Tokens are read as a template by their numbered one. -/
theorem read_tokens (tokens : List (Token TemplateAtom)) :
    read TemplateAtom.key? tokens = (numbered tokens).map Numbered.forget := by
  have hkey : ∀ a : ℕ × TemplateAtom, a.2.key? = (numberedKey? a).map Prod.snd := by
    intro a
    rw [numberedKey?]
    cases a.2.key? <;> rfl
  have hread := read_map hkey (numberFrom 0 tokens)
  rw [map_snd_numberFrom] at hread
  exact hread

/-- The tokens of the scanned text are read as JSON by the numbered template. -/
theorem read_encodeFrom (tokens : List (Token TemplateAtom)) :
    read Atom.key? (encodeFrom 0 tokens) = (numbered tokens).map Numbered.encode := by
  have hkey : ∀ a : ℕ × TemplateAtom, (encodeAtom a).key? = (numberedKey? a).map encodeKey := by
    rintro ⟨index, a⟩
    cases a with
    | json a => cases a <;> rfl
    | expr text => rfl
  exact read_map hkey (numberFrom 0 tokens)

theorem tokens_of_numbered {tokens : List (Token TemplateAtom)} {N : Numbered}
    (h : numbered tokens = some N) :
    N.tokens numberedAtom = numberFrom 0 tokens ∧ N.WellFormed := by
  refine tokens_of_read (fun a key hkey => ?_) h
  obtain ⟨index, a⟩ := a
  obtain ⟨key', hkey', rfl⟩ := Option.map_eq_some_iff.mp hkey
  cases a with
  | json a =>
    cases a with
    | str s =>
      obtain rfl := Option.some.inj hkey'
      rfl
    | _ => cases hkey'
  | expr text =>
    obtain rfl := Option.some.inj hkey'
    rfl

variable {F : Type} [JsNumber F]

/-- What is printed depends on the template alone. -/
theorem prettyPrint_eq_ok_iff {source out : JsString} :
    prettyPrintJinjaJson F source = .ok out ↔ ¬source.all isTrimSpace = true ∧
      ∃ tokens N, templateTokens source = some tokens ∧ numbered tokens = some N ∧
        out = restoreFrom 0 (expressions tokens) (stringify (evaluate N.encode :
          JsonTree JsString (JsAtom F))) := by
  obtain ⟨hlex, hexpressions⟩ := lex_scanFrom (source.length + 1) source 0 (source.length + 1)
    ((scanFrom 0 0 .outside source).1.length + 1) (Nat.lt_succ_self _) (Nat.lt_succ_self _)
    (Nat.lt_succ_self _)
  rw [prettyPrintJinjaJson, sentinelUnquotedJinja]
  by_cases hblank : source.all isTrimSpace = true
  · simp [hblank]
  · rw [if_neg hblank]
    dsimp only
    rw [parseJson, hlex, ← templateTokens]
    cases htokens : templateTokens source with
    | none => simp
    | some tokens =>
      rw [Option.map_some, Option.bind_some, read_encodeFrom, Option.map_map,
        hexpressions tokens htokens]
      cases hN : numbered tokens with
      | none => simp [hN]
      | some N => simp [hblank, hN, eq_comm]

/-! ## Sentinels -/

/-- A sentinel has none of the characters between keys and atoms. -/
theorem unmarked_sentinelToken (index : ℕ) : Unmarked (sentinelToken index) := by
  refine ⟨List.cons_ne_nil _ _, fun u hu hmem => ?_⟩
  have hall : ∀ u ∈ units "[]\x7b\x7d:, \n", u ∉ sentinelUnits ∧ u ≠ unit '"' :=
    @of_decide_eq_true _ (List.decidableBAll _ _) (by decide)
  obtain ⟨hsentinel, hquote⟩ := hall u hu
  rw [sentinelToken, List.mem_cons, List.mem_append, List.mem_singleton] at hmem
  rcases hmem with hmem | hmem | hmem
  · exact hquote hmem
  · exact hsentinel (mem_sentinel hmem)
  · exact hquote hmem

/-- A sentinel is printed as it is, in its quotes. -/
theorem quote_sentinel (index : ℕ) : quote (sentinel index) = sentinelToken index := by
  have hall : ∀ u ∈ sentinelUnits, u.toNat < 0xD800 ∧ quoteUnit u = [u] :=
    @of_decide_eq_true _ (List.decidableBAll _ _) (by decide)
  rw [quote, quoteUnits_eq_self fun u hu => hall u (mem_sentinel hu), sentinelToken]

theorem count_quote_sentinelToken (index : ℕ) :
    (sentinelToken index).count (unit '"') = 2 := by
  have hnot : unit '"' ∉ sentinel index := fun hmem => (isPlain_sentinel index _ hmem).1 rfl
  rw [sentinelToken, List.count_cons_self, List.count_append, List.count_eq_zero.mpr hnot]
  rfl

theorem sentinel_injective {i j : ℕ} (h : sentinel i = sentinel j) : i = j := by
  have hdigit : ∀ n : Fin 0x80, unitChar (unit (Char.ofNat n)) = Char.ofNat n := by decide
  have hback (n : ℕ) : ((Nat.toDigits 10 n).map unit).map unitChar = Nat.toDigits 10 n := by
    rw [List.map_map]
    refine (List.map_congr_left fun c hc => ?_).trans (List.map_id _)
    have hisDigit := Nat.isDigit_of_mem_toDigits (by decide) (by decide) hc
    have hlt := toNat_lt_of_isDigit hisDigit
    have hall := hdigit ⟨c.toNat, hlt⟩
    rwa [Char.ofNat_toNat] at hall
  rw [sentinel, sentinel] at h
  have hdigits := List.append_cancel_left (List.append_cancel_right h)
  have hsame := congrArg (List.map unitChar) hdigits
  rw [hback, hback] at hsame
  have hvalue := congrArg (fun digits => Nat.ofDigitChars 10 digits 0) hsame
  simpa using hvalue

/-- A sentinel is in no other one. -/
theorem not_infix_sentinelToken {i j : ℕ} (hne : i ≠ j) :
    ¬sentinelToken i <:+: sentinelToken j := by
  rintro ⟨x, y, h⟩
  have hcount := congrArg (List.count (unit '"')) h
  rw [List.count_append, List.count_append, count_quote_sentinelToken,
    count_quote_sentinelToken] at hcount
  have hx : x = [] := by
    cases x with
    | nil => rfl
    | cons u x =>
      rw [sentinelToken, sentinelToken, List.cons_append, List.cons_append] at h
      obtain ⟨rfl, -⟩ := List.cons.inj h
      rw [List.count_cons_self] at hcount
      omega
  subst hx
  have hy : unit '"' ∉ y := by
    rw [← List.count_eq_zero]
    rw [List.count_nil] at hcount
    omega
  have hnot : unit '"' ∉ sentinel i := fun hmem => (isPlain_sentinel i _ hmem).1 rfl
  rw [List.nil_append, sentinelToken, sentinelToken, List.cons_append, List.append_assoc] at h
  have hsame := (List.append_cons_inj_of_notMem hnot hy).mp (List.cons.inj h).2
  exact hne (sentinel_injective hsame.1)

/-- A text without a quote has no sentinel. -/
theorem not_infix_of_notMem {text : JsString} (h : unit '"' ∉ text) (index : ℕ) :
    ¬sentinelToken index <:+: text := by
  intro hoccur
  exact h (hoccur.subset List.mem_cons_self)

/-! ## Restoring -/

theorem restoreFrom_write {K A : Type} (keyText : K → JsString) (atomText : A → JsString)
    (placeholders : List JsString) (index level : ℕ) (tree : JsonTree K A) :
    restoreFrom index placeholders (write keyText atomText level tree) =
      write (fun key => restoreFrom index placeholders (keyText key))
        (fun a => restoreFrom index placeholders (atomText a)) level tree := by
  induction placeholders generalizing index keyText atomText with
  | nil => rfl
  | cons expr placeholders ih =>
    rw [restoreFrom, replaceAll_write _ _ (unmarked_sentinelToken index), ih]
    rfl

/-- A text without the sentinels is left as it is. -/
theorem restoreFrom_of_free {index : ℕ} {placeholders : List JsString} {text : JsString}
    (h : ∀ i, index ≤ i → i < index + placeholders.length → ¬sentinelToken i <:+: text) :
    restoreFrom index placeholders text = text := by
  induction placeholders generalizing index with
  | nil => rfl
  | cons expr placeholders ih =>
    rw [List.length_cons] at h
    rw [restoreFrom, replaceAll_of_absent (h index le_rfl (by omega))]
    exact ih fun i hle hlt => h i (by omega) (by omega)

/-- A sentinel becomes its expression, in which later sentinels are replaced. -/
theorem restoreFrom_sentinelToken {index i : ℕ} {placeholders : List JsString} {expr : JsString}
    (hle : index ≤ i) (h : placeholders[i - index]? = some expr) :
    restoreFrom index placeholders (sentinelToken i) =
      restoreFrom (i + 1) (placeholders.drop (i - index + 1)) expr := by
  induction placeholders generalizing index with
  | nil => cases h
  | cons expr' placeholders ih =>
    rw [restoreFrom]
    by_cases heq : index = i
    · subst heq
      rw [Nat.sub_self] at h ⊢
      obtain rfl := Option.some.inj h
      have hne : sentinelToken index ≠ [] := List.cons_ne_nil _ _
      have hreplace := replaceAll_append hne expr' []
      rw [List.append_nil, replaceAll_nil, List.append_nil] at hreplace
      rw [hreplace]
      rfl
    · have hsub : i - index = i - (index + 1) + 1 := by omega
      rw [hsub, List.getElem?_cons_succ] at h
      rw [replaceAll_of_absent (not_infix_sentinelToken heq), ih (by omega) h, hsub]
      rfl

/-- Where the text has a sentinel, what is printed has an opening brace. -/
def Differs (text printed : JsString) : Prop :=
  ∃ before i, before ++ sentinelToken i <+: text ∧ before ++ [unit '\x7b'] <+: printed

theorem Differs.replaceAll {text printed expr : JsString} (h : Differs text printed)
    (hexpr : expr.head? = some (unit '\x7b')) (index : ℕ) :
    Differs text (replaceAll (sentinelToken index) expr printed) := by
  obtain ⟨before, i, htext, after, rfl⟩ := h
  have hmark := unmarked_sentinelToken index
  have hbrace : unit '\x7b' ∈ units "[]\x7b\x7d:, \n" := by decide
  rw [List.append_assoc, List.singleton_append, hmark.replaceAll_append hbrace]
  by_cases hoccur : sentinelToken index <:+: before
  · obtain ⟨expr, rfl⟩ := List.head?_eq_some_iff.mp hexpr
    obtain ⟨u, v, rfl, hreplace⟩ :=
      replaceAll_of_infix hmark.ne_nil hoccur (unit '\x7b' :: expr)
    refine ⟨u, index, ?_, ?_⟩
    · refine List.IsPrefix.trans ⟨v ++ sentinelToken i, ?_⟩ htext
      simp only [List.append_assoc]
    · rw [hreplace, List.append_assoc, List.cons_append, List.cons_append]
      exact List.prefix_append_right_inj u |>.mpr (List.prefix_append [_] _)
  · rw [replaceAll_of_absent hoccur]
    refine ⟨before, i, htext, ?_⟩
    exact List.prefix_append_right_inj before |>.mpr (List.prefix_append [_] _)

theorem Differs.restoreFrom {text printed : JsString} (h : Differs text printed) (index : ℕ)
    {placeholders : List JsString}
    (hexprs : ∀ expr ∈ placeholders, expr.head? = some (unit '\x7b')) :
    Differs text (restoreFrom index placeholders printed) := by
  induction placeholders generalizing index printed with
  | nil => exact h
  | cons expr placeholders ih =>
    obtain ⟨hexpr, hexprs⟩ := List.forall_mem_cons.mp hexprs
    exact ih (h.replaceAll hexpr index) (index + 1) hexprs

/-- A text with a sentinel is not printed as it is. -/
theorem differs_restoreFrom {text : JsString} {index i : ℕ} {placeholders : List JsString}
    (hexprs : ∀ expr ∈ placeholders, expr.head? = some (unit '\x7b')) (hle : index ≤ i)
    (hlt : i < index + placeholders.length) (hoccur : sentinelToken i <:+: text) :
    Differs text (restoreFrom index placeholders text) := by
  induction placeholders generalizing index with
  | nil =>
    rw [List.length_nil] at hlt
    omega
  | cons expr placeholders ih =>
    obtain ⟨hexpr, hexprs⟩ := List.forall_mem_cons.mp hexprs
    rw [List.length_cons] at hlt
    have hne := (unmarked_sentinelToken index).ne_nil
    by_cases hfirst : sentinelToken index <:+: text
    · refine Differs.restoreFrom ?_ (index + 1) hexprs
      obtain ⟨expr, rfl⟩ := List.head?_eq_some_iff.mp hexpr
      obtain ⟨u, v, htext, hreplace⟩ := replaceAll_of_infix hne hfirst (unit '\x7b' :: expr)
      refine ⟨u, index, ?_, ?_⟩
      · rw [htext, ← List.append_assoc]
        exact List.prefix_append _ _
      · rw [hreplace]
        exact List.prefix_append_right_inj u |>.mpr (List.prefix_append [_] _)
    · have hne' : index ≠ i := by
        rintro rfl
        exact hfirst hoccur
      rw [RelyLoop.Templates.restoreFrom, replaceAll_of_absent hfirst]
      exact ih hexprs (by omega) (by omega)

end RelyLoop.Templates
