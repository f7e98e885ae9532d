import RelyLoop.Templates.PrettyPrint

/-!
# When the pretty-printer keeps a template

The same template is printed if objects keep their members, numbers are spelled as they are printed,
and no sentinel stands in a string literal, or in an expression before its own.
-/

namespace RelyLoop.Templates

open Python EcmaScript JsonTree

/-! ## What is kept -/

/-- In what the scanner makes of the template, the keys of each object are different, with array
indices first and ascending. -/
def MembersKept (source : JsString) : Prop :=
  ∀ tokens N, templateTokens source = some tokens → numbered tokens = some N → InOrder N.encode

/-- Each number is spelled as it is printed. -/
def NumbersKept (F : Type) [JsNumber F] (source : JsString) : Prop :=
  ∀ tokens token, templateTokens source = some tokens → .atom (.json (.number token)) ∈ tokens →
    JsNumber.text (JsNumber.ofToken token : F) = token

/-- No string literal, as it is printed, has the sentinel of an expression. -/
def LiteralsKept (source : JsString) : Prop :=
  ∀ tokens s, templateTokens source = some tokens → .atom (.json (.str s)) ∈ tokens →
    ∀ i < (expressions tokens).length, ¬sentinelToken i <:+: quote s

/-- No expression has the sentinel of a later one. -/
def ExpressionsKept (source : JsString) : Prop :=
  ∀ tokens k expr, templateTokens source = some tokens → (expressions tokens)[k]? = some expr →
    ∀ i, k < i → i < (expressions tokens).length → ¬sentinelToken i <:+: expr

/-- The template survives. -/
structure Survives (F : Type) [JsNumber F] (source : JsString) : Prop where
  members : MembersKept source
  numbers : NumbersKept F source
  literals : LiteralsKept source
  exprs : ExpressionsKept source

/-! ## Texts of atoms -/

/-- An atom of a template, printed as it is. -/
def TemplateAtom.text : TemplateAtom → JsString
  | json a => a.text
  | expr text => text

/-- The numbers of the atoms count the expressions before them. -/
theorem mem_numberFrom {index k : ℕ} {tokens : List (Token TemplateAtom)} {a : TemplateAtom}
    (h : .atom (k, a) ∈ numberFrom index tokens) : .atom a ∈ tokens ∧
      ∀ expr, a = .expr expr → index ≤ k ∧ (expressions tokens)[k - index]? = some expr := by
  induction tokens generalizing index with
  | nil => cases h
  | cons token tokens ih =>
    -- an atom behind the first token
    have hlater (h : .atom (k, a) ∈ numberFrom index tokens)
        (hrest : expressions (token :: tokens) = expressions tokens) :
        .atom a ∈ token :: tokens ∧ ∀ expr, a = .expr expr →
          index ≤ k ∧ (expressions (token :: tokens))[k - index]? = some expr := by
      obtain ⟨hmem, hat⟩ := ih h
      rw [hrest]
      exact ⟨List.mem_cons_of_mem _ hmem, hat⟩
    cases token with
    | atom a' =>
      cases a' with
      | json a' =>
        rcases List.mem_cons.mp h with heq | h
        · obtain ⟨rfl, rfl⟩ := Prod.mk.inj (Token.atom.inj heq)
          exact ⟨List.mem_cons_self, fun expr heq' => by cases heq'⟩
        · exact hlater h rfl
      | expr expr =>
        rcases List.mem_cons.mp h with heq | h
        · obtain ⟨rfl, rfl⟩ := Prod.mk.inj (Token.atom.inj heq)
          refine ⟨List.mem_cons_self, fun expr' heq' => ⟨le_rfl, ?_⟩⟩
          obtain rfl := TemplateAtom.expr.inj heq'
          rw [Nat.sub_self]
          rfl
        · obtain ⟨hmem, hat⟩ := ih h
          refine ⟨List.mem_cons_of_mem _ hmem, fun expr' heq' => ?_⟩
          obtain ⟨hle, hget⟩ := hat expr' heq'
          have hsub : k - index = k - (index + 1) + 1 := by omega
          rw [expressions, hsub, List.getElem?_cons_succ]
          exact ⟨by omega, hget⟩
    | _ =>
      rcases List.mem_cons.mp h with heq | h
      · cases heq
      · exact hlater h rfl

/-! ## Reading back -/

/-- An atom that is read as it is printed. -/
def TemplateAtom.Valid : TemplateAtom → Prop
  | json a => a.Valid
  | expr text => text.head? = some (unit '\x7b') ∧
    ∀ after, readExpr (text ++ after) = some (text, after)

/-- The atoms of a template are valid. -/
theorem valid_of_templateTokens {source : JsString} {tokens : List (Token TemplateAtom)}
    (h : templateTokens source = some tokens) : ∀ a, .atom a ∈ tokens → a.Valid := by
  refine forall_of_lex (fun text a rest hread => ?_) h
  rw [readTemplateAtom] at hread
  split at hread
  · rename_i expr rest' hexpr
    obtain ⟨rfl, rfl⟩ := Prod.mk.inj (Option.some.inj hread)
    obtain ⟨-, hhead, hafter⟩ := readExpr_spec hexpr
    exact ⟨hhead, hafter⟩
  · obtain ⟨⟨a', rest'⟩, hatom, heq⟩ := Option.map_eq_some_iff.mp hread
    obtain ⟨rfl, rfl⟩ := Prod.mk.inj heq
    exact valid_of_readAtom hatom

/-- Atoms of JSON do not begin like expressions. -/
theorem exists_text_eq_cons {a : Atom} (h : a.Valid) : ∃ u text, a.text = u :: text ∧
    u ≠ unit '\x7b' := by
  cases a with
  | null => exact ⟨_, _, rfl, by decide⟩
  | bool b =>
    cases b
    · exact ⟨_, _, rfl, by decide⟩
    · exact ⟨_, _, rfl, by decide⟩
  | number token =>
    cases token with
    | nil => exact absurd h.1 (by simp [readScalar_nil])
    | cons u token => exact ⟨u, token, rfl, (ne_of_isTokenUnit (h.2 u List.mem_cons_self)).2⟩
  | str s => exact ⟨_, _, rfl, by decide⟩

/-- A printed atom is read back. -/
theorem TemplateAtom.Valid.readTemplateAtom_text {a : TemplateAtom} (h : a.Valid) :
    a.text ≠ [] ∧ ∀ rest, Stops rest → readTemplateAtom (a.text ++ rest) = some (a, rest) := by
  cases a with
  | json a =>
    obtain ⟨u, text, htext, hu⟩ := exists_text_eq_cons h
    refine ⟨?_, fun rest hrest => ?_⟩
    · rw [TemplateAtom.text, htext]
      exact List.cons_ne_nil _ _
    · have hread := Atom.readAtom_text h hrest
      rw [TemplateAtom.text, readTemplateAtom, hread, htext, List.cons_append, readExpr_eq_none hu]
      rfl
  | expr text =>
    obtain ⟨hhead, hafter⟩ := h
    refine ⟨?_, fun rest _ => ?_⟩
    · rintro rfl
      cases hhead
    · rw [TemplateAtom.text, readTemplateAtom, hafter]

theorem readTemplateAtom_eq_none {u : UInt16} {rest : JsString} (hquote : u ≠ unit '"')
    (htoken : isTokenUnit u = false) (hexpr : readExpr (u :: rest) = none) :
    readTemplateAtom (u :: rest) = none := by
  rw [readTemplateAtom, hexpr, readAtom, if_neg hquote,
    List.takeWhile_cons_of_neg (by simp [htoken]), readScalar_nil]
  rfl

/-- Whitespace and punctuation are no atoms. -/
theorem readTemplateAtom_of_mark (u : UInt16) (rest : JsString)
    (hu : EcmaScript.isJsonSpace u = true ∨ punctuator? (A := TemplateAtom) u ≠ none)
    (hbrace : u = unit '\x7b' → rest.head? ≠ some (unit '\x7b')) :
    readTemplateAtom (u :: rest) = none := by
  have hexpr : readExpr (u :: rest) = none := by
    by_cases hopen : u = unit '\x7b'
    · cases rest with
      | nil => rfl
      | cons v rest => exact if_neg fun h => hbrace hopen (congrArg some h.2)
    · exact readExpr_eq_none hopen rest
  have hscalar : u ≠ unit '"' ∧ isTokenUnit u = false := by
    rcases hu with hspace | hpunctuator
    · simp only [EcmaScript.isJsonSpace, Bool.or_eq_true, decide_eq_true_eq, or_assoc] at hspace
      rcases hspace with rfl | rfl | rfl | rfl <;> decide
    · unfold punctuator? at hpunctuator
      split_ifs at hpunctuator with h h h h h h
      all_goals first | exact absurd rfl hpunctuator | (subst h; decide)
  exact readTemplateAtom_eq_none hscalar.1 hscalar.2 hexpr

/-- What is written for a template has its tokens. -/
theorem templateTokens_write {T : Template}
    (hvalid : ∀ a, .atom a ∈ T.tokens TemplateKey.atom → a.Valid) :
    templateTokens (write (fun key : TemplateKey => key.atom.text) TemplateAtom.text 0 T) =
      some (T.tokens TemplateKey.atom) := by
  have hspells := spells_of_write TemplateAtom.text TemplateKey.atom T
  exact lex_of_spells hspells (fun a ha => (hvalid a ha).readTemplateAtom_text)
    readTemplateAtom_of_mark (Nat.lt_succ_self _)

/-- Blank texts have no tokens. -/
theorem lex_of_blank {text : JsString} (h : text.all isTrimSpace = true) {fuel : ℕ}
    {tokens : List (Token TemplateAtom)} (htokens : lex readTemplateAtom fuel text = some tokens) :
    tokens = [] := by
  have hall : ∀ n ∈ trimSpaces, UInt16.ofNat n ≠ unit '"' ∧ UInt16.ofNat n ≠ unit '\x7b' ∧
      isTokenUnit (UInt16.ofNat n) = false ∧
      (punctuator? (A := Unit) (UInt16.ofNat n)).isNone = true := by decide
  induction text generalizing fuel tokens with
  | nil =>
    cases fuel with
    | zero => cases htokens
    | succ fuel => exact (Option.some.inj htokens).symm
  | cons u text ih =>
    cases fuel with
    | zero => cases htokens
    | succ fuel =>
      obtain ⟨hu, htext⟩ := Bool.and_eq_true_iff.mp h
      have hmark := hall _ (List.contains_iff_mem.mp hu)
      rw [UInt16.ofNat_toNat] at hmark
      obtain ⟨hquote, hbrace, htoken, hpunctuator⟩ := hmark
      have hnone : punctuator? (A := TemplateAtom) u = none := by
        rw [← Option.map_eq_none_iff, ← punctuator?_map fun _ => ()]
        exact Option.isNone_iff_eq_none.mp hpunctuator
      rw [lex_of_none (readTemplateAtom_eq_none hquote htoken (readExpr_eq_none hbrace text)),
        hnone] at htokens
      split at htokens
      · exact ih htext htokens
      · cases htokens

variable {F : Type} [JsNumber F]

/-! ## What is printed -/

/-- What is printed for an atom of a template. -/
def printedText (F : Type) [JsNumber F] (placeholders : List JsString) (a : ℕ × TemplateAtom) :
    JsString :=
  restoreFrom 0 placeholders (JsAtom.text ((encodeAtom a).value : JsAtom F))

theorem quote_encodeKey (key : ℕ × TemplateKey) :
    quote (encodeKey key) = JsAtom.text ((encodeAtom (numberedAtom key)).value : JsAtom F) := by
  obtain ⟨k, key⟩ := key
  cases key <;> rfl

/-- If its objects keep their members, a template is printed atom by atom. -/
theorem restoreFrom_stringify (placeholders : List JsString) {N : Numbered}
    (hwell : N.encode.WellFormed) (h : InOrder N.encode) :
    restoreFrom 0 placeholders (stringify (evaluate N.encode : JsonTree JsString (JsAtom F))) =
      write (fun key => printedText F placeholders (numberedAtom key)) (printedText F placeholders)
        0 N := by
  rw [evaluate_of_inOrder hwell h, stringify, Numbered.encode, write_map, write_map,
    restoreFrom_write]
  simp only [id_eq, quote_encodeKey (F := F)]
  rfl

theorem wellFormed_encode {tokens : List (Token TemplateAtom)} {N : Numbered}
    (hN : numbered tokens = some N) : N.encode.WellFormed := by
  have hread : read Atom.key? (encodeFrom 0 tokens) = some N.encode := by
    rw [read_encodeFrom, hN, Option.map_some]
  have htokens : N.encode.tokens Atom.str = encodeFrom 0 tokens ∧ N.encode.WellFormed := by
    refine tokens_of_read (fun a key hkey => ?_) hread
    cases a with
    | str s => exact congrArg Atom.str (Option.some.inj hkey).symm
    | _ => cases hkey
  exact htokens.2

theorem notMem_of_isTokenUnit {token : JsString} (htoken : ∀ u ∈ token, isTokenUnit u = true) :
    unit '"' ∉ token := fun hmem => (ne_of_isTokenUnit (htoken _ hmem)).1 rfl

/-- An atom that is kept, where it stands. -/
def Keeps (F : Type) [JsNumber F] (placeholders : List JsString) : ℕ × TemplateAtom → Prop
  | (_, .json (.number token)) => JsNumber.text (JsNumber.ofToken token : F) = token
  | (_, .json (.str s)) => ∀ i < placeholders.length, ¬sentinelToken i <:+: quote s
  | (_, .json _) => True
  | (k, .expr expr) => ∀ i, k < i → i < placeholders.length → ¬sentinelToken i <:+: expr

theorem Survives.keeps {source : JsString} (h : Survives F source)
    {tokens : List (Token TemplateAtom)} (htokens : templateTokens source = some tokens)
    {a : ℕ × TemplateAtom} (ha : .atom a ∈ numberFrom 0 tokens) :
    Keeps F (expressions tokens) a := by
  obtain ⟨k, a⟩ := a
  obtain ⟨hmem, hat⟩ := mem_numberFrom ha
  cases a with
  | json a =>
    cases a with
    | number token => exact h.numbers tokens token htokens hmem
    | str s => exact h.literals tokens s htokens hmem
    | _ => trivial
  | expr expr => exact h.exprs tokens k expr htokens (hat expr rfl).2

/-- A text without quotes is left as it is. -/
theorem restoreFrom_of_notMem (text : JsString) (h : unit '"' ∉ text) (index : ℕ)
    (placeholders : List JsString) : restoreFrom index placeholders text = text :=
  restoreFrom_of_free fun i _ _ => not_infix_of_notMem h i

/-- An atom that is kept is printed as it is. -/
theorem printedText_of_keeps {tokens : List (Token TemplateAtom)} {a : ℕ × TemplateAtom}
    (ha : .atom a ∈ numberFrom 0 tokens) (hvalid : a.2.Valid)
    (h : Keeps F (expressions tokens) a) : printedText F (expressions tokens) a = a.2.text := by
  obtain ⟨k, a⟩ := a
  obtain ⟨hmem, hat⟩ := mem_numberFrom ha
  rw [printedText]
  cases a with
  | json a =>
    cases a with
    | null => exact restoreFrom_of_notMem (units "null") (by decide) 0 _
    | bool b =>
      cases b
      · exact restoreFrom_of_notMem (units "false") (by decide) 0 _
      · exact restoreFrom_of_notMem (units "true") (by decide) 0 _
    | number token =>
      have hkept : JsNumber.text (JsNumber.ofToken token : F) = token := h
      rw [encodeAtom, Atom.value, JsAtom.text, hkept]
      exact restoreFrom_of_notMem token (notMem_of_isTokenUnit hvalid.2) 0 _
    | str s =>
      refine restoreFrom_of_free fun i _ hlt => ?_
      exact h i (by omega)
  | expr expr =>
    obtain ⟨-, hget⟩ := hat expr rfl
    rw [encodeAtom, Atom.value, JsAtom.text, quote_sentinel,
      restoreFrom_sentinelToken (Nat.zero_le k) hget]
    refine restoreFrom_of_free fun i hle hlt => h i hle ?_
    rw [List.length_drop] at hlt
    omega

/-- A template that survives is printed with its keys and atoms as they are. -/
theorem restoreFrom_stringify_of_survives {source : JsString} (h : Survives F source)
    {tokens : List (Token TemplateAtom)} (htokens : templateTokens source = some tokens)
    {N : Numbered} (hN : numbered tokens = some N) :
    restoreFrom 0 (expressions tokens)
        (stringify (evaluate N.encode : JsonTree JsString (JsAtom F))) =
      write (fun key : TemplateKey => key.atom.text) TemplateAtom.text 0 N.forget := by
  obtain ⟨hnumbers, hwell⟩ := tokens_of_numbered hN
  have htexts : N.All
      (fun key => printedText F (expressions tokens) (numberedAtom key) = (numberedAtom key).2.text)
      (fun a => printedText F (expressions tokens) a = a.2.text) := by
    refine all_of_tokens (Q := fun a => printedText F (expressions tokens) a = a.2.text) hwell
      fun a ha => ?_
    rw [hnumbers] at ha
    exact printedText_of_keeps ha (valid_of_templateTokens htokens _ (mem_numberFrom ha).1)
      (h.keeps htokens ha)
  rw [restoreFrom_stringify _ (wellFormed_encode hN) (h.members tokens N htokens hN),
    Numbered.forget, write_map]
  exact write_congr htexts 0

theorem tokens_of_read_template {tokens : List (Token TemplateAtom)} {T : Template}
    (h : read TemplateAtom.key? tokens = some T) : T.tokens TemplateKey.atom = tokens := by
  have hkey : ∀ (a : TemplateAtom) key, a.key? = some key → key.atom = a := by
    intro a key hkey
    cases a with
    | json a =>
      cases a with
      | str s =>
        obtain rfl := Option.some.inj hkey
        rfl
      | _ => cases hkey
    | expr text =>
      obtain rfl := Option.some.inj hkey
      rfl
  exact (tokens_of_read hkey h).1

theorem SameTemplate.templateTokens_eq {source out : JsString} (h : SameTemplate source out) :
    templateTokens source = templateTokens out := by
  obtain ⟨T, hT, hT'⟩ := h
  obtain ⟨tokens, htokens, hread⟩ := Option.bind_eq_some_iff.mp hT
  obtain ⟨tokens', htokens', hread'⟩ := Option.bind_eq_some_iff.mp hT'
  rw [htokens, htokens', ← tokens_of_read_template hread, ← tokens_of_read_template hread']

/-- A text that is printed for its own template is printed as it is. -/
theorem meets_of_sameTemplate {source out : JsString} (h : prettyPrintJinjaJson F source = .ok out)
    (hsame : SameTemplate source out) : Meets F source out := by
  refine ⟨hsame, ?_⟩
  obtain ⟨-, tokens, N, htokens, hN, hout⟩ := prettyPrint_eq_ok_iff.mp h
  have htokens' := htokens
  rw [hsame.templateTokens_eq] at htokens'
  refine prettyPrint_eq_ok_iff.mpr ⟨fun hblank => ?_, tokens, N, htokens', hN, hout⟩
  rw [lex_of_blank hblank htokens'] at hN
  cases hN

/-- Tokens tell the template that is printed. -/
theorem sameTemplate_of_templateTokens_eq {source out : JsString}
    (h : prettyPrintJinjaJson F source = .ok out)
    (heq : templateTokens source = templateTokens out) : SameTemplate source out := by
  obtain ⟨-, tokens, N, htokens, hN, -⟩ := prettyPrint_eq_ok_iff.mp h
  have hread : read TemplateAtom.key? tokens = some N.forget := by
    rw [read_tokens, hN, Option.map_some]
  refine ⟨N.forget, ?_, ?_⟩
  · rw [readTemplate, htokens, Option.bind_some, hread]
  · rw [readTemplate, ← heq, htokens, Option.bind_some, hread]

/-- A template that survives is printed as the same one, and then as it is. -/
theorem meets_of_survives {source out : JsString} (h : prettyPrintJinjaJson F source = .ok out)
    (hsurvives : Survives F source) : Meets F source out := by
  refine meets_of_sameTemplate h (sameTemplate_of_templateTokens_eq h ?_)
  obtain ⟨-, tokens, N, htokens, hN, rfl⟩ := prettyPrint_eq_ok_iff.mp h
  have hsame : N.forget.tokens TemplateKey.atom = tokens :=
    tokens_of_read_template (by rw [read_tokens, hN, Option.map_some])
  have hvalid : ∀ a, .atom a ∈ N.forget.tokens TemplateKey.atom → a.Valid := by
    rw [hsame]
    exact valid_of_templateTokens htokens
  rw [restoreFrom_stringify_of_survives hsurvives htokens hN, templateTokens_write hvalid, hsame,
    htokens]

end RelyLoop.Templates
