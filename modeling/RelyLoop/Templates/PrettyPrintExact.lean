import RelyLoop.EcmaScript.TreeTokens
import RelyLoop.Templates.PrettyPrintMeets

/-!
# What the pretty-printer needs

If the same template is printed, its members are kept, or an expression has the sentinel of a later
one. If its members are kept, so is every number, literal and expression.
-/

namespace RelyLoop.Templates

open Python EcmaScript JsonTree

/-! ## Texts that differ -/

/-- Behind an opening brace there is an expression or no atom. -/
theorem exists_expr_of_readTemplateAtom {text rest : JsString} {a : TemplateAtom}
    (h : readTemplateAtom (unit '\x7b' :: text) = some (a, rest)) : ∃ expr, a = .expr expr := by
  rw [readTemplateAtom] at h
  split at h
  · rename_i expr rest' hexpr
    exact ⟨expr, (Prod.mk.inj (Option.some.inj h)).1.symm⟩
  · have hatom : readAtom (unit '\x7b' :: text) = none := by
      rw [readAtom, if_neg (by decide), List.takeWhile_cons_of_neg (by decide), readScalar_nil]
      rfl
    rw [hatom] at h
    cases h

/-- An expression that differs is not read as it is. -/
theorem Differs.head_ne_expr {expr printed : JsString} (h : Differs expr printed)
    (hhead : expr.head? = some (unit '\x7b')) (rest : JsString) {fuel : ℕ}
    {found : List (Token TemplateAtom)}
    (hlex : lex readTemplateAtom fuel (printed ++ rest) = some found) :
    found.head? ≠ some (.atom (.expr expr)) := by
  obtain ⟨before, i, ⟨behind, rfl⟩, ⟨after, rfl⟩⟩ := h
  intro hfound
  have hbegin : ∃ text, before ++ [unit '\x7b'] ++ after ++ rest = unit '\x7b' :: text := by
    cases before with
    | nil => exact ⟨_, rfl⟩
    | cons u before =>
      obtain rfl := Option.some.inj hhead
      exact ⟨_, rfl⟩
  obtain ⟨text, htext⟩ := hbegin
  rw [htext] at hlex
  obtain ⟨rest', hread⟩ := readAtom_of_head hlex (by decide) hfound
  rw [readTemplateAtom] at hread
  split at hread
  · rename_i expr' rest'' hexpr
    obtain ⟨heq, rfl⟩ := Prod.mk.inj (Option.some.inj hread)
    obtain rfl := TemplateAtom.expr.inj heq
    obtain ⟨hspec, -⟩ := readExpr_spec hexpr
    rw [← htext, List.append_assoc, List.append_assoc, List.append_assoc,
      List.append_assoc] at hspec
    obtain ⟨hbrace, -⟩ := List.cons.inj (List.append_cancel_left hspec)
    exact absurd hbrace (by decide)
  · obtain ⟨_, -, heq⟩ := Option.map_eq_some_iff.mp hread
    cases (Prod.mk.inj heq).1

/-- A literal that differs is a sentinel, printed with an opening brace, or is not read at all. -/
theorem Differs.literal {s printed : JsString} (h : Differs (quote s) printed) (rest : JsString) :
    (∃ i, s = sentinel i) ∧ printed.head? = some (unit '\x7b') ∨
      ∀ fuel, lex readTemplateAtom fuel (printed ++ rest) = none := by
  obtain ⟨before, i, ⟨behind, hbehind⟩, ⟨after, rfl⟩⟩ := h
  cases before with
  | nil =>
    left
    have hread := readAtom_sentinelToken i behind
    rw [List.nil_append] at hbehind
    rw [hbehind, ← List.append_nil (quote s), readAtom_quote] at hread
    exact ⟨⟨i, Atom.str.inj (Prod.mk.inj (Option.some.inj hread)).1⟩, rfl⟩
  | cons u before =>
    right
    have hquote : u :: (before ++ sentinelToken i ++ behind) =
        unit '"' :: (quoteUnits s ++ [unit '"']) := hbehind
    obtain ⟨rfl, hunits⟩ := List.cons.inj hquote
    have hbegins : before ++ [unit '"'] <+: quoteUnits s := by
      have hlength := congrArg List.length hunits
      rw [sentinelToken] at hunits hlength
      simp only [List.length_append, List.length_cons, List.length_nil] at hlength
      have hbefore : before ++ [unit '"'] <+: quoteUnits s ++ [unit '"'] :=
        ⟨sentinel i ++ [unit '"'] ++ behind, by rw [← hunits]; simp⟩
      refine List.prefix_of_prefix_length_le hbefore (List.prefix_append _ _) ?_
      rw [List.length_append, List.length_singleton]
      omega
    obtain ⟨w, rfl, hw⟩ := exists_passes_of_prefix hbegins
    intro fuel
    have hatom := readAtom_of_passes hw (v := unit '\x7b') (by decide) (by decide) (after ++ rest)
    have htext : unit '"' :: (w ++ [unit '\\']) ++ [unit '\x7b'] ++ after ++ rest =
        unit '"' :: (w ++ unit '\\' :: unit '\x7b' :: (after ++ rest)) := by simp
    have hread : readTemplateAtom (unit '"' :: (w ++ unit '\\' :: unit '\x7b' :: (after ++ rest))) =
        none := by
      rw [readTemplateAtom, hatom, readExpr_eq_none (by decide)]
      rfl
    rw [htext]
    cases fuel with
    | zero => rfl
    | succ fuel =>
      rw [lex_of_none hread]
      rfl

/-! ## Templates that keep their members -/

theorem mem_of_mem_expressions {expr : JsString} {tokens : List (Token TemplateAtom)}
    (h : expr ∈ expressions tokens) : .atom (.expr expr) ∈ tokens := by
  induction tokens with
  | nil => cases h
  | cons token tokens ih =>
    cases token with
    | atom a =>
      cases a with
      | json a => exact List.mem_cons_of_mem _ (ih h)
      | expr text =>
        rcases List.mem_cons.mp h with rfl | h
        · exact List.mem_cons_self
        · exact List.mem_cons_of_mem _ (ih h)
    | _ => exact List.mem_cons_of_mem _ (ih h)

/-- Expressions begin with a brace. -/
theorem head?_of_mem_expressions {source : JsString} {tokens : List (Token TemplateAtom)}
    (htokens : templateTokens source = some tokens) :
    ∀ expr ∈ expressions tokens, expr.head? = some (unit '\x7b') :=
  fun _ h => (valid_of_templateTokens htokens _ (mem_of_mem_expressions h)).1

variable {F : Type} [JsNumber F]

/-- Numbers and constants have no quote. -/
theorem quote_notMem_text (v : JsAtom F) (h : ∀ s, v ≠ .str s) : unit '"' ∉ v.text := by
  cases v with
  | null => exact (by decide : unit '"' ∉ units "null")
  | bool b =>
    cases b
    · exact (by decide : unit '"' ∉ units "false")
    · exact (by decide : unit '"' ∉ units "true")
  | number x =>
    rw [JsAtom.text]
    rcases JsNumber.text_valid x with hnumber | hnull
    · exact notMem_of_isTokenUnit hnumber.2
    · rw [hnull]
      decide
  | str s => exact absurd rfl (h s)

/-- What is printed for an atom that is not kept is not read as the atom. -/
theorem head_ne_of_not_keeps {source : JsString} {tokens : List (Token TemplateAtom)}
    (htokens : templateTokens source = some tokens) {a : ℕ × TemplateAtom}
    (ha : .atom a ∈ numberFrom 0 tokens) (hbad : ¬Keeps F (expressions tokens) a) {rest : JsString}
    (hstops : Stops rest) {fuel : ℕ} {found : List (Token TemplateAtom)}
    (hlex : lex readTemplateAtom fuel (printedText F (expressions tokens) a ++ rest) = some found) :
    found.head? ≠ some (.atom a.2) := by
  obtain ⟨k, a⟩ := a
  obtain ⟨-, hat⟩ := mem_numberFrom ha
  have hheads := head?_of_mem_expressions htokens
  intro hfound
  cases a with
  | json a =>
    cases a with
    | null => exact hbad trivial
    | bool b => exact hbad trivial
    | number token =>
      -- a number is printed as another one, or as `null`
      obtain ⟨htext, hvalid⟩ :=
        JsAtom.text_written (.number (JsNumber.ofToken token) : JsAtom F)
      have hprinted : printedText F (expressions tokens) (k, .json (.number token)) =
          (TemplateAtom.json (JsAtom.number (JsNumber.ofToken token) : JsAtom F).written).text := by
        rw [TemplateAtom.text, htext]
        exact restoreFrom_of_notMem _
          (quote_notMem_text (.number (JsNumber.ofToken token)) fun s heq => by cases heq) 0 _
      obtain ⟨hne, hread⟩ := TemplateAtom.Valid.readTemplateAtom_text
        (a := .json (JsAtom.number (JsNumber.ofToken token) : JsAtom F).written) hvalid
      rw [hprinted] at hlex
      have hhead := head_of_readAtom (List.append_ne_nil_of_left_ne_nil hne rest)
        (hread rest hstops) hlex
      rw [hfound] at hhead
      have hwritten := TemplateAtom.json.inj (Token.atom.inj (Option.some.inj hhead))
      rw [JsAtom.written] at hwritten
      split at hwritten
      · cases hwritten
      · exact hbad (Atom.number.inj hwritten).symm
    | str s =>
      have hoccur : ∃ i < (expressions tokens).length, sentinelToken i <:+: quote s := by
        by_contra hnone
        push Not at hnone
        exact hbad hnone
      obtain ⟨i, hlt, hoccur⟩ := hoccur
      have hdiffers : Differs (quote s) (printedText F (expressions tokens) (k, .json (.str s))) :=
        differs_restoreFrom hheads (Nat.zero_le i) (by omega) hoccur
      rcases hdiffers.literal rest with ⟨-, hhead⟩ | hnone
      · obtain ⟨text, htext⟩ := List.head?_eq_some_iff.mp hhead
        rw [htext, List.cons_append] at hlex
        obtain ⟨rest', hread⟩ := readAtom_of_head hlex (by decide) hfound
        obtain ⟨expr, heq⟩ := exists_expr_of_readTemplateAtom hread
        cases heq
      · rw [hnone] at hlex
        cases hlex
  | expr expr =>
    obtain ⟨-, hget⟩ := hat expr rfl
    have hoccur : ∃ i, k < i ∧ i < (expressions tokens).length ∧ sentinelToken i <:+: expr := by
      by_contra hnone
      push Not at hnone
      exact hbad hnone
    obtain ⟨i, hlater, hlt, hoccur⟩ := hoccur
    have hprinted : printedText F (expressions tokens) (k, .expr expr) =
        restoreFrom (k + 1) ((expressions tokens).drop (k + 1)) expr := by
      rw [printedText, encodeAtom, Atom.value, JsAtom.text, quote_sentinel,
        restoreFrom_sentinelToken (Nat.zero_le k) hget, Nat.sub_zero]
    have hdiffers : Differs expr (printedText F (expressions tokens) (k, .expr expr)) := by
      rw [hprinted]
      refine differs_restoreFrom (fun e he => hheads e (List.mem_of_mem_drop he)) hlater ?_ hoccur
      rw [List.length_drop]
      omega
    exact hdiffers.head_ne_expr (hheads expr (List.mem_of_getElem? hget)) rest hlex hfound

/-- If its members are kept and the same template is printed, all its atoms are kept. -/
theorem keeps_of_sameTemplate {source : JsString} {tokens : List (Token TemplateAtom)}
    {N : Numbered} (htokens : templateTokens source = some tokens) (hN : numbered tokens = some N)
    (hmembers : InOrder N.encode)
    (hout : templateTokens (restoreFrom 0 (expressions tokens)
      (stringify (evaluate N.encode : JsonTree JsString (JsAtom F)))) = some tokens) :
    ∀ a, .atom a ∈ numberFrom 0 tokens → Keeps F (expressions tokens) a := by
  obtain ⟨hnumbers, -⟩ := tokens_of_numbered hN
  have hspells := spells_of_write (printedText F (expressions tokens)) numberedAtom N
  rw [hnumbers] at hspells
  rw [restoreFrom_stringify _ (wellFormed_encode hN) hmembers] at hout
  have hatom (a : ℕ × TemplateAtom) (ha : .atom a ∈ numberFrom 0 tokens)
      (hkeeps : Keeps F (expressions tokens) a) :
      printedText F (expressions tokens) a ≠ [] ∧ ∀ rest, Stops rest →
        readTemplateAtom (printedText F (expressions tokens) a ++ rest) = some (a.2, rest) := by
    have hvalid := valid_of_templateTokens htokens _ (mem_numberFrom ha).1
    rw [printedText_of_keeps ha hvalid hkeeps]
    exact hvalid.readTemplateAtom_text
  rcases lex_of_spells_or hspells hatom readTemplateAtom_of_mark (Nat.lt_succ_self _) hout with
    ⟨hall, -⟩ | ⟨a, rest, fuel, found, ha, hbad, hstops, hlex, hhead⟩
  · exact hall
  · exact absurd (hhead (map_snd_numberFrom 0 tokens).symm)
      (head_ne_of_not_keeps htokens ha hbad hstops hlex)

/-! ## Templates whose expressions are kept -/

/-- The key that is printed for a string. -/
def restoreKey : ℕ → List JsString → JsString → TemplateKey
  | _, [], s => .str s
  | index, expr :: placeholders, s =>
    if s = sentinel index then .expr expr else restoreKey (index + 1) placeholders s

/-- The atom that is printed for a value. -/
def restoreAtom (placeholders : List JsString) (v : JsAtom F) : TemplateAtom :=
  match v.written with
  | .str s => (restoreKey 0 placeholders s).atom
  | a => .json a

theorem restoreKey_sentinel {index i : ℕ} {placeholders : List JsString} {expr : JsString}
    (hle : index ≤ i) (h : placeholders[i - index]? = some expr) :
    restoreKey index placeholders (sentinel i) = .expr expr := by
  induction placeholders generalizing index with
  | nil => cases h
  | cons expr' placeholders ih =>
    rw [restoreKey]
    by_cases heq : i = index
    · subst heq
      rw [Nat.sub_self] at h
      obtain rfl := Option.some.inj h
      rw [if_pos rfl]
    · have hsub : i - index = i - (index + 1) + 1 := by omega
      rw [hsub, List.getElem?_cons_succ] at h
      rw [if_neg fun hsame => heq (sentinel_injective hsame), ih (by omega) h]

theorem restoreKey_of_ne {index : ℕ} {placeholders : List JsString} {s : JsString}
    (h : ∀ i, index ≤ i → i < index + placeholders.length → s ≠ sentinel i) :
    restoreKey index placeholders s = .str s := by
  induction placeholders generalizing index with
  | nil => rfl
  | cons expr placeholders ih =>
    rw [List.length_cons] at h
    rw [restoreKey, if_neg (h index le_rfl (by omega))]
    exact ih fun i hle hlt => h i (by omega) (by omega)

/-- A literal that has a sentinel is one, or is not read. -/
def Whole (placeholders : List JsString) (v : JsAtom F) : Prop :=
  ∀ s, v = .str s → ∀ i < placeholders.length, sentinelToken i <:+: quote s →
    ∃ j < placeholders.length, s = sentinel j

theorem restoreAtom_of_ne {v : JsAtom F} (h : ∀ s, v ≠ .str s) (placeholders : List JsString) :
    restoreAtom placeholders v = .json v.written := by
  cases v with
  | number x =>
    rw [restoreAtom, JsAtom.written]
    split_ifs <;> rfl
  | str s => exact absurd rfl (h s)
  | _ => rfl

/-- A whole value is printed as its atom. -/
theorem restoreFrom_text_of_whole {source : JsString} {tokens : List (Token TemplateAtom)}
    (htokens : templateTokens source = some tokens) (hexprs : ExpressionsKept source)
    {v : JsAtom F} (h : Whole (expressions tokens) v) :
    restoreFrom 0 (expressions tokens) v.text = (restoreAtom (expressions tokens) v).text ∧
      (restoreAtom (expressions tokens) v).Valid := by
  by_cases hstr : ∃ s, v = .str s
  · obtain ⟨s, rfl⟩ := hstr
    have hatom : restoreAtom (expressions tokens) (.str s : JsAtom F) =
        (restoreKey 0 (expressions tokens) s).atom := rfl
    rw [hatom, JsAtom.text]
    by_cases hsentinel : ∃ j < (expressions tokens).length, s = sentinel j
    · obtain ⟨j, hlt, rfl⟩ := hsentinel
      obtain ⟨expr, hget⟩ : ∃ expr, (expressions tokens)[j]? = some expr :=
        ⟨_, List.getElem?_eq_getElem hlt⟩
      have hmem := mem_of_mem_expressions (List.mem_of_getElem? hget)
      rw [restoreKey_sentinel (Nat.zero_le j) hget, quote_sentinel,
        restoreFrom_sentinelToken (Nat.zero_le j) hget]
      refine ⟨restoreFrom_of_free fun i hle hlt => ?_, valid_of_templateTokens htokens _ hmem⟩
      rw [List.length_drop] at hlt
      exact hexprs tokens j expr htokens hget i hle (by omega)
    · push Not at hsentinel
      rw [restoreKey_of_ne fun i _ hlt => hsentinel i (by omega)]
      refine ⟨restoreFrom_of_free fun i _ hlt hoccur => ?_, trivial⟩
      obtain ⟨j, hlt', heq⟩ := h s rfl i (by omega) hoccur
      exact hsentinel j hlt' heq
  · push Not at hstr
    obtain ⟨htext, hvalid⟩ := v.text_written
    rw [restoreAtom_of_ne hstr, TemplateAtom.text, htext]
    exact ⟨restoreFrom_of_notMem _ (quote_notMem_text v hstr) 0 _, hvalid⟩

/-- The rank of a key; an expression is no array index. -/
def templateRank : TemplateKey → ℕ
  | .str s => keyRank s
  | .expr _ => 2 ^ 32

theorem keyRank_sentinel (index : ℕ) : keyRank (sentinel index) = 2 ^ 32 := by
  have hnone (rest : List Char) : arrayIndex? (String.ofList ('_' :: rest)) = none :=
    arrayIndex?_eq_none String.toList_ofList rfl
  have hindex : keyIndex? (sentinel index) = none := by
    rw [keyIndex?]
    split
    · exact hnone _
    · rfl
  rw [keyRank, hindex]
  rfl

theorem templateRank_restoreKey (index : ℕ) (placeholders : List JsString) (s : JsString) :
    templateRank (restoreKey index placeholders s) = keyRank s := by
  induction placeholders generalizing index with
  | nil => rfl
  | cons expr placeholders ih =>
    rw [restoreKey]
    split
    · rename_i heq
      rw [heq, keyRank_sentinel, templateRank]
    · exact ih (index + 1)

/-- The order of keys can be read from those that are printed. -/
theorem pairwise_keyRank_iff (placeholders : List JsString) {keys : List JsString} :
    (keys.Pairwise fun key key' => keyRank key ≤ keyRank key') ↔
      ((keys.map (restoreKey 0 placeholders)).map templateRank).Pairwise (· ≤ ·) := by
  rw [List.map_map, List.pairwise_map]
  simp only [Function.comp_apply, templateRank_restoreKey]

theorem keyRank_encodeKey (key : ℕ × TemplateKey) :
    keyRank (encodeKey key) = templateRank key.2 := by
  obtain ⟨k, key⟩ := key
  cases key with
  | str s => rfl
  | expr expr => exact keyRank_sentinel k

mutual

/-- A value that is printed as the template kept its members. -/
theorem inOrder_of_restored (placeholders : List JsString) {N : Numbered}
    (hwell : N.WellFormed)
    (h : (evaluate (N.map encodeKey encodeAtom) : JsonTree JsString (JsAtom F)).map
      (restoreKey 0 placeholders) (restoreAtom placeholders) = N.map Prod.snd Prod.snd) :
    InOrder (N.map encodeKey encodeAtom) := by
  cases N with
  | atom a => trivial
  | array items => exact allInOrder_of_restored placeholders hwell (JsonTree.array.inj h)
  | object keys values =>
    rw [JsonTree.map, evaluate, JsonTree.map, JsonTree.map] at h
    obtain ⟨hkeys, hvalues⟩ := JsonTree.object.inj h
    obtain ⟨hlength, hall⟩ := hwell
    generalize hW : (evaluateAll (mapAll encodeKey encodeAtom values) :
      List (JsonTree JsString (JsAtom F))) = W at hkeys hvalues
    have hlengthW : W.length = keys.length := by
      rw [← hW, length_evaluateAll, mapAll_eq_map, List.length_map, hlength]
    have hle : (keys.map encodeKey).length = W.length := by rw [List.length_map, hlengthW]
    have hfst : ((keys.map encodeKey).zip W).map Prod.fst = keys.map encodeKey :=
      List.map_fst_zip hle.le
    have hcount : (ownEntries ((keys.map encodeKey).zip W)).length =
        ((keys.map encodeKey).zip W).length := by
      have hsame := congrArg List.length hkeys
      rw [List.length_map, List.length_map, List.length_map] at hsame
      rw [hsame, List.length_zip, List.length_map, hlengthW, Nat.min_self]
    have hnodup := nodup_of_length_ownEntries hcount
    -- the ranks of the keys can be read from the template
    have hsorted : (((keys.map encodeKey).zip W).map Prod.fst).Pairwise
        fun key key' => keyRank key ≤ keyRank key' := by
      have hranks := pairwise_ownEntries ((keys.map encodeKey).zip W)
      rw [pairwise_keyRank_iff placeholders, hkeys, List.map_map, List.pairwise_map] at hranks
      rw [hfst, List.pairwise_map]
      simpa only [keyRank_encodeKey, Function.comp_apply] using hranks
    rw [hfst] at hnodup
    rw [ownEntries_of_pairwise (by rwa [hfst]) hsorted, List.map_snd_zip hle.ge, ← hW] at hvalues
    rw [hfst] at hsorted
    exact ⟨hnodup, hsorted, allInOrder_of_restored placeholders hall hvalues⟩
termination_by sizeOf N

theorem allInOrder_of_restored (placeholders : List JsString) {items : List Numbered}
    (hwell : AllWellFormed items)
    (h : mapAll (restoreKey 0 placeholders) (restoreAtom placeholders)
      (evaluateAll (mapAll encodeKey encodeAtom items) : List (JsonTree JsString (JsAtom F))) =
        mapAll Prod.snd Prod.snd items) : AllInOrder (mapAll encodeKey encodeAtom items) := by
  cases items with
  | nil => trivial
  | cons item items =>
    obtain ⟨hitem, hitems⟩ := List.cons.inj h
    exact ⟨inOrder_of_restored placeholders hwell.1 hitem,
      allInOrder_of_restored placeholders hwell.2 hitems⟩
termination_by sizeOf items

end

theorem templateKey_atom_injective : Function.Injective TemplateKey.atom := by
  intro key key' h
  cases key with
  | str s =>
    cases key' with
    | str s' => exact congrArg _ (Atom.str.inj (TemplateAtom.json.inj h))
    | expr expr' => cases h
  | expr expr =>
    cases key' with
    | str s' => cases h
    | expr expr' => exact congrArg _ (TemplateAtom.expr.inj h)

/-- If its expressions are kept and the same template is printed, its members are kept. -/
theorem inOrder_of_sameTemplate {source : JsString} {tokens : List (Token TemplateAtom)}
    {N : Numbered} (htokens : templateTokens source = some tokens) (hN : numbered tokens = some N)
    (hexprs : ExpressionsKept source)
    (hout : templateTokens (restoreFrom 0 (expressions tokens)
      (stringify (evaluate N.encode : JsonTree JsString (JsAtom F)))) = some tokens) :
    InOrder N.encode := by
  have hwell := (tokens_of_numbered hN).2
  have hread : read TemplateAtom.key? tokens = some N.forget := by
    rw [read_tokens, hN, Option.map_some]
  have hwell' : (evaluate N.encode : JsonTree JsString (JsAtom F)).WellFormed :=
    wellFormed_evaluate N.encode
  generalize hV : (evaluate N.encode : JsonTree JsString (JsAtom F)) = V at hout hwell'
  have hspells := spells_of_write
    (fun v : JsAtom F => restoreFrom 0 (expressions tokens) v.text) JsAtom.str V
  rw [stringify, restoreFrom_write] at hout
  have hatom (v : JsAtom F) (_ : .atom v ∈ V.tokens JsAtom.str)
      (hwhole : Whole (expressions tokens) v) :
      restoreFrom 0 (expressions tokens) v.text ≠ [] ∧ ∀ rest, Stops rest →
        readTemplateAtom (restoreFrom 0 (expressions tokens) v.text ++ rest) =
          some (restoreAtom (expressions tokens) v, rest) := by
    obtain ⟨htext, hvalid⟩ := restoreFrom_text_of_whole htokens hexprs hwhole
    rw [htext]
    exact hvalid.readTemplateAtom_text
  rcases lex_of_spells_or hspells hatom readTemplateAtom_of_mark (Nat.lt_succ_self _) hout with
    ⟨-, hfound⟩ | ⟨v, rest, fuel, found, -, hbad, -, hlex, -⟩
  · have hmap : (V.map (restoreKey 0 (expressions tokens))
        (restoreAtom (expressions tokens))).tokens TemplateKey.atom =
          N.forget.tokens TemplateKey.atom := by
      rw [tokens_of_read_template hread]
      refine (tokens_map (fun key : JsString => ?_) V).trans hfound.symm
      rfl
    obtain ⟨hsame, -⟩ := tokens_append_inj templateKey_atom_injective hwell'.map hwell.map
      (congrArg (· ++ []) hmap)
    rw [← hV] at hsame
    exact inOrder_of_restored (expressions tokens) hwell hsame
  · rw [Whole] at hbad
    push Not at hbad
    obtain ⟨s, rfl, i, hlt, hoccur, hnot⟩ := hbad
    have hdiffers := differs_restoreFrom (head?_of_mem_expressions htokens) (Nat.zero_le i)
      (by omega) hoccur
    rcases Differs.literal hdiffers rest with ⟨⟨j, rfl⟩, -⟩ | hnone
    · rw [quote_sentinel] at hoccur
      have heq : i = j := by
        by_contra hne
        exact not_infix_sentinelToken hne hoccur
      exact absurd (congrArg sentinel heq.symm) (hnot i hlt)
    · rw [JsAtom.text, hnone] at hlex
      cases hlex

/-! ## When the same template is printed -/

theorem mem_numberFrom_of_mem (index : ℕ) {tokens : List (Token TemplateAtom)} {a : TemplateAtom}
    (h : .atom a ∈ tokens) : ∃ k, .atom (k, a) ∈ numberFrom index tokens := by
  rw [← map_snd_numberFrom index tokens] at h
  obtain ⟨token, htoken, heq⟩ := List.mem_map.mp h
  cases token with
  | atom a' =>
    obtain rfl := Token.atom.inj heq
    exact ⟨a'.1, htoken⟩
  | _ => cases heq

theorem mem_numberFrom_of_getElem? (index : ℕ) {k : ℕ} {tokens : List (Token TemplateAtom)}
    {expr : JsString} (h : (expressions tokens)[k]? = some expr) :
    .atom (index + k, .expr expr) ∈ numberFrom index tokens := by
  induction tokens generalizing index k with
  | nil => cases h
  | cons token tokens ih =>
    cases token with
    | atom a =>
      cases a with
      | json a => exact List.mem_cons_of_mem _ (ih index h)
      | expr text =>
        cases k with
        | zero =>
          obtain rfl := Option.some.inj h
          exact List.mem_cons_self
        | succ k =>
          have hlater := ih (index + 1) h
          rw [Nat.add_right_comm, Nat.add_assoc] at hlater
          exact List.mem_cons_of_mem _ hlater
    | _ => exact List.mem_cons_of_mem _ (ih index h)

theorem survives_of_keeps {source : JsString} {tokens : List (Token TemplateAtom)}
    (htokens : templateTokens source = some tokens) (hmembers : MembersKept source)
    (h : ∀ a, .atom a ∈ numberFrom 0 tokens → Keeps F (expressions tokens) a) :
    Survives F source := by
  have hsame {tokens' : List (Token TemplateAtom)} (h' : templateTokens source = some tokens') :
      tokens' = tokens := by rwa [htokens, Option.some.injEq, eq_comm] at h'
  refine ⟨hmembers, fun tokens' token h' hmem => ?_, fun tokens' s h' hmem => ?_,
    fun tokens' k expr h' hget => ?_⟩
  · obtain rfl := hsame h'
    obtain ⟨k, hk⟩ := mem_numberFrom_of_mem 0 hmem
    exact h _ hk
  · obtain rfl := hsame h'
    obtain ⟨k, hk⟩ := mem_numberFrom_of_mem 0 hmem
    exact h _ hk
  · obtain rfl := hsame h'
    have hk := h _ (mem_numberFrom_of_getElem? 0 hget)
    rwa [Nat.zero_add] at hk

/-- Numbers that are printed as they are spelled. -/
def SpelledNumber := {token : JsString // (Atom.number token).Valid}

instance (token : JsString) : Decidable (Atom.number token).Valid :=
  @instDecidableAnd _ _ inferInstance (List.decidableBAll _ _)

theorem valid_zero : (Atom.number (units "0")).Valid := by decide

instance : JsNumber SpelledNumber where
  ofToken token := if h : (Atom.number token).Valid then ⟨token, h⟩ else ⟨units "0", valid_zero⟩
  text x := x.1
  text_valid x := Or.inl x.2

/-- The same template is printed, and then as it is, if it survives; and only then, if its members
or its expressions are kept. -/
theorem prettyPrintJinjaJson_meets {source out : JsString}
    (h : prettyPrintJinjaJson F source = .ok out) :
    (Survives F source → Meets F source out) ∧
      (MembersKept source ∨ ExpressionsKept source → Meets F source out → Survives F source) := by
  refine ⟨meets_of_survives h, fun hkept hmeets => ?_⟩
  obtain ⟨-, tokens, N, htokens, hN, rfl⟩ := prettyPrint_eq_ok_iff.mp h
  have hout := htokens
  rw [hmeets.1.templateTokens_eq] at hout
  have hmembers : InOrder N.encode := by
    rcases hkept with hmembers | hexprs
    · exact hmembers tokens N htokens hN
    · exact inOrder_of_sameTemplate htokens hN hexprs hout
  refine survives_of_keeps htokens (fun tokens' N' htokens' hN' => ?_)
    (keeps_of_sameTemplate htokens hN hmembers hout)
  rw [htokens, Option.some.injEq] at htokens'
  subst htokens'
  rw [hN, Option.some.injEq] at hN'
  rwa [← hN']

/-- An expression with the sentinels of two later ones, and members behind them. -/
def undoingExpr : JsString :=
  units "\x7b\x7b\"__JINJA_PLACEHOLDER_2__\",\"a\":" ++
    units "\"__JINJA_PLACEHOLDER_3__\",\"q\":\x7b\"r\":\x7b\x7d\x7d"

/-- An object with two members `a` and two members `q`, which loses one of each. -/
def undoingTemplate : JsString :=
  units "\x7b\"a\":\x7b\x7b\x7b\x7b\x7d\x7d,\"a\":" ++ undoingExpr ++
    units ",\"q\":\x7b\"r\":\x7b\x7d\x7d,\"q\":\x7b\"r\":\x7b\x7d\x7d" ++
    units ",\"b\":\x7b\x7b\x7d\x7d,\"c\":" ++ undoingExpr ++ units "\x7d"

/-- If neither is kept, the same template may still be printed: what its objects lose, sentinels in
its expressions bring in. -/
theorem exists_meets_not_survives : ∃ source out,
    prettyPrintJinjaJson SpelledNumber source = .ok out ∧ Meets SpelledNumber source out ∧
      ¬Survives SpelledNumber source := by
  have hprinted : ((prettyPrintJinjaJson SpelledNumber undoingTemplate).toOption.map fun out =>
      decide (templateTokens undoingTemplate = templateTokens out)) = some true := by decide +kernel
  have hsentinel : ((templateTokens undoingTemplate).map fun tokens =>
      decide ((expressions tokens)[1]? = some undoingExpr ∧ 2 < (expressions tokens).length ∧
        sentinelToken 2 <:+: undoingExpr)) = some true := by decide +kernel
  obtain ⟨tokens, htokens, hdecide⟩ := Option.map_eq_some_iff.mp hsentinel
  obtain ⟨hget, hlt, hoccur⟩ := of_decide_eq_true hdecide
  cases hout : prettyPrintJinjaJson SpelledNumber undoingTemplate with
  | error failure =>
    rw [hout] at hprinted
    cases hprinted
  | ok out =>
    rw [hout] at hprinted
    have hsame := of_decide_eq_true (Option.some.inj hprinted)
    refine ⟨undoingTemplate, out, hout,
      meets_of_sameTemplate hout (sameTemplate_of_templateTokens_eq hout hsame), fun h => ?_⟩
    exact h.exprs tokens 1 undoingExpr htokens hget 2 (by decide) hlt hoccur

/-- `{"boost":x,"size":10}`, with an expression `x`. -/
def boostTemplate : JsString := units "\x7b\"boost\":\x7b\x7bx\x7d\x7d,\"size\":10\x7d"

/-- Its tokens. -/
def boostTokens : List (Token TemplateAtom) :=
  [.lbrace, .atom (.json (.str (units "boost"))), .colon,
    .atom (.expr (units "\x7b\x7bx\x7d\x7d")), .comma, .atom (.json (.str (units "size"))), .colon,
    .atom (.json (.number (units "10"))), .rbrace]

theorem survives_boostTemplate : Survives SpelledNumber boostTemplate := by
  have htokens : templateTokens boostTemplate = some boostTokens := by decide +kernel
  refine survives_of_keeps htokens (fun tokens N h hN => ?_) fun a ha => ?_
  · obtain rfl : boostTokens = tokens := Option.some.inj (htokens.symm.trans h)
    obtain rfl := Option.some.inj hN
    exact ⟨by decide +kernel, by decide +kernel, trivial, trivial, trivial⟩
  · simp only [boostTokens, numberFrom, Token.map, List.mem_cons, Token.atom.injEq, reduceCtorEq,
      false_or, or_false, List.not_mem_nil] at ha
    rcases ha with rfl | rfl | rfl | rfl
    · exact (by decide +kernel : ∀ i < (expressions boostTokens).length,
        ¬sentinelToken i <:+: quote (units "boost"))
    · exact fun i hle hlt => absurd hlt (by simp [boostTokens, expressions]; omega)
    · exact (by decide +kernel : ∀ i < (expressions boostTokens).length,
        ¬sentinelToken i <:+: quote (units "size"))
    · exact (by decide +kernel : (JsNumber.text
        (JsNumber.ofToken (units "10") : SpelledNumber)) = units "10")

theorem boostTemplate_meets : ∃ out, prettyPrintJinjaJson SpelledNumber boostTemplate = .ok out ∧
    Meets SpelledNumber boostTemplate out := by
  have h : prettyPrintJinjaJson SpelledNumber boostTemplate =
      .ok (units "\x7b\n  \"boost\": \x7b\x7bx\x7d\x7d,\n  \"size\": 10\n\x7d") := by decide +kernel
  exact ⟨_, h, (prettyPrintJinjaJson_meets h).1 survives_boostTemplate⟩

/-- `["__JINJA_PLACEHOLDER_0__",x]`, with an expression `x`. -/
def sentinelLiteral : JsString := units "[\"__JINJA_PLACEHOLDER_0__\",\x7b\x7bx\x7d\x7d]"

/-- The literal is printed as the expression. -/
theorem not_meets_sentinelLiteral : ∃ out,
    prettyPrintJinjaJson SpelledNumber sentinelLiteral = .ok out ∧
      ¬Meets SpelledNumber sentinelLiteral out :=
  ⟨units "[\n  \x7b\x7bx\x7d\x7d,\n  \x7b\x7bx\x7d\x7d\n]", by decide +kernel,
    fun h => absurd h.1.templateTokens_eq (by decide +kernel)⟩

end RelyLoop.Templates
