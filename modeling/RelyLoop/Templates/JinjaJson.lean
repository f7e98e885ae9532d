import RelyLoop.EcmaScript.JsonValues

/-!
# Templates of JSON and Jinja

A template is JSON with expressions in double braces for some of its keys and values. The scanner of
the pretty-printer puts a string for each of them: the tokens of its text are those of the template,
with these strings.
-/

namespace RelyLoop.Templates

open Python EcmaScript JsonTree

/-! ## Templates -/

/-- The text of an expression up to the first two closing braces, and the rest behind them. -/
def closeExpr : JsString → Option (JsString × JsString)
  | u :: v :: text =>
    if u = unit '\x7d' ∧ v = unit '\x7d' then some ([u, v], text)
    else (closeExpr (v :: text)).map fun (body, rest) => (u :: body, rest)
  | _ => none

/-- An expression in double braces, and the rest of the text. -/
def readExpr : JsString → Option (JsString × JsString)
  | u :: v :: text =>
    if u = unit '\x7b' ∧ v = unit '\x7b' then
      (closeExpr text).map fun (body, rest) => (u :: v :: body, rest)
    else none
  | _ => none

/-- An atom of JSON, or an expression. -/
inductive TemplateAtom where
  | json (a : Atom)
  | expr (text : JsString)
  deriving DecidableEq

/-- A key: a string, or an expression. -/
inductive TemplateKey where
  | str (s : JsString)
  | expr (text : JsString)

/-- The key that an atom is. -/
def TemplateAtom.key? : TemplateAtom → Option TemplateKey
  | json (.str s) => some (.str s)
  | json _ => none
  | expr text => some (.expr text)

/-- The atom that a key is. -/
def TemplateKey.atom : TemplateKey → TemplateAtom
  | str s => .json (.str s)
  | expr text => .expr text

/-- A template. -/
abbrev Template := JsonTree TemplateKey TemplateAtom

/-- An atom of a template, and the rest of the text. -/
def readTemplateAtom (text : JsString) : Option (TemplateAtom × JsString) :=
  match readExpr text with
  | some (expr, rest) => some (.expr expr, rest)
  | none => (readAtom text).map fun (a, rest) => (.json a, rest)

/-- The tokens of a template. -/
def templateTokens (source : JsString) : Option (List (Token TemplateAtom)) :=
  lex readTemplateAtom (source.length + 1) source

/-- The template that a text spells. -/
def readTemplate (source : JsString) : Option Template :=
  (templateTokens source).bind (read TemplateAtom.key?)

/-! ## The scanner -/

/-- `__JINJA_PLACEHOLDER_N__`. -/
def sentinel (index : ℕ) : JsString :=
  units "__JINJA_PLACEHOLDER_" ++ (Nat.toDigits 10 index).map unit ++ units "__"

/-- The sentinel with its quotes. -/
def sentinelToken (index : ℕ) : JsString := unit '"' :: (sentinel index ++ [unit '"'])

/-- Where the scanner is, by its flags `inString` and `escape`. -/
inductive Place where
  | outside
  | inString
  | escape

/-- `out.push(…)`. -/
def push (w : JsString) (result : JsString × List JsString) : JsString × List JsString :=
  (w ++ result.1, result.2)

/-- The loop of `sentinelUnquotedJinja`, where some characters still belong to an expression. -/
def scanFrom : ℕ → ℕ → Place → JsString → JsString × List JsString
  | _, _, _, [] => ([], [])
  | skip + 1, index, place, _ :: text => scanFrom skip index place text
  | 0, index, .escape, ch :: text => push [ch] (scanFrom 0 index .inString text)
  | 0, index, .inString, ch :: text =>
    if ch = unit '\\' then push [ch] (scanFrom 0 index .escape text)
    else if ch = unit '"' then push [ch] (scanFrom 0 index .outside text)
    else push [ch] (scanFrom 0 index .inString text)
  | 0, index, .outside, ch :: text =>
    if ch = unit '"' then push [ch] (scanFrom 0 index .inString text)
    else
      match readExpr (ch :: text) with
      | some (expr, _) =>
        let (out, placeholders) := scanFrom (expr.length - 1) (index + 1) .outside text
        (sentinelToken index ++ out, expr :: placeholders)
      | none => push [ch] (scanFrom 0 index .outside text)

/-- `sentinelUnquotedJinja`. -/
def sentinelUnquotedJinja (source : JsString) : JsString × List JsString :=
  scanFrom 0 0 .outside source

/-! ## Expressions -/

/-- An expression ends at its first closing braces, whatever follows. -/
theorem closeExpr_spec {text body rest : JsString} (h : closeExpr text = some (body, rest)) :
    text = body ++ rest ∧ body ≠ [] ∧ ∀ after, closeExpr (body ++ after) = some (body, after) := by
  induction text using closeExpr.induct generalizing body rest with
  | case1 u v text hclose =>
    rw [closeExpr, if_pos hclose] at h
    obtain ⟨rfl, rfl⟩ := Prod.mk.inj (Option.some.inj h)
    refine ⟨rfl, List.cons_ne_nil _ _, fun after => ?_⟩
    rw [List.cons_append, List.singleton_append, closeExpr, if_pos hclose]
  | case2 u v text hclose ih =>
    rw [closeExpr, if_neg hclose] at h
    obtain ⟨⟨body, rest⟩, hbody, heq⟩ := Option.map_eq_some_iff.mp h
    obtain ⟨rfl, rfl⟩ := Prod.mk.inj heq
    obtain ⟨htext, hne, hafter⟩ := ih hbody
    refine ⟨congrArg (u :: ·) htext, List.cons_ne_nil _ _, fun after => ?_⟩
    obtain ⟨w, body, rfl⟩ := List.exists_cons_of_ne_nil hne
    obtain ⟨rfl, -⟩ := List.cons.inj htext
    have hnext := hafter after
    rw [List.cons_append] at hnext
    rw [List.cons_append, List.cons_append, closeExpr, if_neg hclose, hnext, Option.map_some]
  | case3 text hshort =>
    rw [closeExpr.eq_def] at h
    split at h
    · rename_i u v text
      exact absurd rfl (hshort u v text)
    · cases h

/-- An expression is read as it is, whatever follows. -/
theorem readExpr_spec {text expr rest : JsString} (h : readExpr text = some (expr, rest)) :
    text = expr ++ rest ∧ expr.head? = some (unit '\x7b') ∧
      ∀ after, readExpr (expr ++ after) = some (expr, after) := by
  rw [readExpr.eq_def] at h
  split at h
  · rename_i u v text
    split at h
    · rename_i hopen
      obtain ⟨⟨body, rest⟩, hbody, heq⟩ := Option.map_eq_some_iff.mp h
      obtain ⟨rfl, rfl⟩ := Prod.mk.inj heq
      obtain ⟨rfl, -, hafter⟩ := closeExpr_spec hbody
      refine ⟨rfl, congrArg some hopen.1, fun after => ?_⟩
      rw [List.cons_append, List.cons_append, readExpr, if_pos hopen, hafter, Option.map_some]
    · cases h
  · cases h

theorem readExpr_eq_none {u : UInt16} (hu : u ≠ unit '\x7b') (text : JsString) :
    readExpr (u :: text) = none := by
  rw [readExpr.eq_def]
  split
  · rename_i heq
    obtain ⟨rfl, -⟩ := List.cons.inj heq
    exact if_neg fun h => hu h.1
  · rfl

/-! ## What the scanner copies -/

@[simp] theorem push_push (w w' : JsString) (result : JsString × List JsString) :
    push w (push w' result) = push (w ++ w') result := by
  rw [push, push, push, List.append_assoc]

/-- An expression is skipped. -/
theorem scanFrom_length (index : ℕ) (place : Place) (w text : JsString) :
    scanFrom w.length index place (w ++ text) = scanFrom 0 index place text := by
  induction w with
  | nil => rfl
  | cons u w ih =>
    rw [List.length_cons, List.cons_append, scanFrom]
    exact ih

/-- Code units that begin neither strings nor expressions are copied. -/
theorem scanFrom_append (index : ℕ) {w : JsString}
    (h : ∀ u ∈ w, u ≠ unit '"' ∧ u ≠ unit '\x7b') (text : JsString) :
    scanFrom 0 index .outside (w ++ text) = push w (scanFrom 0 index .outside text) := by
  induction w with
  | nil => rfl
  | cons u w ih =>
    obtain ⟨⟨hquote, hbrace⟩, hw⟩ := List.forall_mem_cons.mp h
    rw [List.cons_append, scanFrom, if_neg hquote, readExpr_eq_none hbrace]
    dsimp only
    rw [ih hw, push_push, List.singleton_append]

/-- A string is copied up to its closing quote. -/
theorem scanFrom_inString (index : ℕ) {text body rest : JsString}
    (h : closeString text = some (body, rest)) :
    scanFrom 0 index .inString text = push (body ++ [unit '"']) (scanFrom 0 index .outside rest) ∧
      text = body ++ unit '"' :: rest ∧
      ∀ after, closeString (body ++ unit '"' :: after) = some (body, after) := by
  induction text using closeString.induct generalizing body rest with
  | case1 => cases h
  | case2 text =>
    rw [closeString.eq_def] at h
    obtain ⟨rfl, rfl⟩ := Prod.mk.inj (Option.some.inj h)
    refine ⟨rfl, rfl, fun after => ?_⟩
    rw [List.nil_append, closeString.eq_def]
    exact if_pos rfl
  | case3 hne => cases h
  | case4 v text hne ih =>
    have hcons := inside_escape v text
    rw [List.cons_append, List.singleton_append] at hcons
    rw [hcons] at h
    obtain ⟨⟨body, rest⟩, hbody, heq⟩ := Option.map_eq_some_iff.mp h
    obtain ⟨rfl, rfl⟩ := Prod.mk.inj heq
    obtain ⟨hscan, rfl, hafter⟩ := ih hbody
    refine ⟨?_, rfl, fun after => ?_⟩
    · rw [scanFrom, if_pos rfl, scanFrom, hscan, push_push, push_push]
      rfl
    · have hnext := inside_escape v (body ++ unit '"' :: after)
      rw [hafter] at hnext
      exact hnext
  | case5 u text hquote hbackslash ih =>
    have hcons := inside_singleton hquote hbackslash text
    rw [List.singleton_append] at hcons
    rw [hcons] at h
    obtain ⟨⟨body, rest⟩, hbody, heq⟩ := Option.map_eq_some_iff.mp h
    obtain ⟨rfl, rfl⟩ := Prod.mk.inj heq
    obtain ⟨hscan, rfl, hafter⟩ := ih hbody
    refine ⟨?_, rfl, fun after => ?_⟩
    · rw [scanFrom, if_neg hbackslash, if_neg hquote, hscan, push_push]
      rfl
    · have hnext := inside_singleton hquote hbackslash (body ++ unit '"' :: after)
      rw [hafter] at hnext
      exact hnext

/-- A string that is not closed is copied to the end. -/
theorem scanFrom_inString_none (index : ℕ) {text : JsString} (h : closeString text = none) :
    scanFrom 0 index .inString text = (text, []) := by
  induction text using closeString.induct with
  | case1 => rfl
  | case2 text =>
    rw [closeString.eq_def] at h
    cases h
  | case3 hne => rfl
  | case4 v text hne ih =>
    have hcons := inside_escape v text
    rw [List.cons_append, List.singleton_append] at hcons
    rw [hcons, Option.map_eq_none_iff] at h
    rw [scanFrom, if_pos rfl, scanFrom, ih h]
    rfl
  | case5 u text hquote hbackslash ih =>
    have hcons := inside_singleton hquote hbackslash text
    rw [List.singleton_append] at hcons
    rw [hcons, Option.map_eq_none_iff] at h
    rw [scanFrom, if_neg hbackslash, if_neg hquote, ih h]
    rfl

/-! ## The tokens of the scanned text -/

/-- The tokens, each atom with the number of expressions before it. -/
def numberFrom : ℕ → List (Token TemplateAtom) → List (Token (ℕ × TemplateAtom))
  | _, [] => []
  | index, .atom (.expr text) :: tokens =>
    .atom (index, .expr text) :: numberFrom (index + 1) tokens
  | index, token :: tokens => token.map (index, ·) :: numberFrom index tokens

/-- The expressions of tokens. -/
def expressions : List (Token TemplateAtom) → List JsString
  | [] => []
  | .atom (.expr text) :: tokens => text :: expressions tokens
  | _ :: tokens => expressions tokens

/-- The atom that the scanner puts for one of a template. -/
def encodeAtom : ℕ × TemplateAtom → Atom
  | (_, .json a) => a
  | (index, .expr _) => .str (sentinel index)

/-- The key that the scanner puts for one of a template. -/
def encodeKey : ℕ × TemplateKey → JsString
  | (_, .str s) => s
  | (index, .expr _) => sentinel index

/-- The tokens with the atoms that the scanner puts. -/
def encodeFrom (index : ℕ) (tokens : List (Token TemplateAtom)) : List (Token Atom) :=
  (numberFrom index tokens).map (Token.map encodeAtom)

section Punctuation

variable {token : Token TemplateAtom} (h : ∀ a, token ≠ .atom a)

include h in
theorem encodeFrom_cons (index : ℕ) (tokens : List (Token TemplateAtom)) :
    encodeFrom index (token :: tokens) =
      token.map (fun a => encodeAtom (index, a)) :: encodeFrom index tokens := by
  cases token with
  | atom a => exact absurd rfl (h a)
  | _ => rfl

include h in
theorem expressions_cons (tokens : List (Token TemplateAtom)) :
    expressions (token :: tokens) = expressions tokens := by
  cases token with
  | atom a => exact absurd rfl (h a)
  | _ => rfl

end Punctuation

/-- The code units of sentinels. -/
def sentinelUnits : JsString := units "__JINJA_PLACEHOLDER_0123456789"

theorem toNat_lt_of_isDigit {c : Char} (h : c.isDigit = true) : c.toNat < 0x80 := by
  simp only [Char.isDigit, Bool.and_eq_true, decide_eq_true_eq] at h
  have hle : c.toNat ≤ '9'.toNat := h.2
  exact Nat.lt_of_le_of_lt hle (by decide)

theorem mem_sentinel {index : ℕ} {u : UInt16} (h : u ∈ sentinel index) : u ∈ sentinelUnits := by
  have hstart : units "__JINJA_PLACEHOLDER_" ⊆ sentinelUnits := by decide
  have hend : units "__" ⊆ sentinelUnits := by decide
  have hdigit : ∀ n : Fin 0x80, (Char.ofNat n).isDigit = true →
      unit (Char.ofNat n) ∈ sentinelUnits := by decide
  rw [sentinel, List.mem_append, List.mem_append] at h
  rcases h with (h | h) | h
  · exact hstart h
  · obtain ⟨c, hc, rfl⟩ := List.mem_map.mp h
    have hisDigit := Nat.isDigit_of_mem_toDigits (by decide) (by decide) hc
    have hall := hdigit ⟨c.toNat, toNat_lt_of_isDigit hisDigit⟩
    rw [Char.ofNat_toNat] at hall
    exact hall hisDigit
  · exact hend h

theorem isPlain_sentinel (index : ℕ) : IsPlain (sentinel index) := by
  have hall : ∀ u ∈ sentinelUnits, u ≠ unit '"' ∧ u ≠ unit '\\' ∧ ¬u.toNat < 0x20 :=
    @of_decide_eq_true _ (List.decidableBAll _ _) (by decide)
  exact fun u hu => hall u (mem_sentinel hu)

/-- A sentinel is read as a string. -/
theorem readAtom_sentinelToken (index : ℕ) (rest : JsString) :
    readAtom (sentinelToken index ++ rest) = some (.str (sentinel index), rest) := by
  have hplain := isPlain_sentinel index
  have hunescape := hplain.unescapeUnits_append []
  rw [List.append_nil] at hunescape
  rw [sentinelToken, List.cons_append, List.append_assoc, List.singleton_append, readAtom,
    if_pos rfl, closeString_append hplain.inside]
  simp [hunescape, unescapeUnits]

/-- The scanned text begins like the source, or with a quote. -/
theorem stops_scanFrom {rest : JsString} (h : Stops rest) (index : ℕ) :
    Stops (scanFrom 0 index .outside rest).1 := by
  cases rest with
  | nil => exact h
  | cons u rest =>
    have hu : isTokenUnit u = false := h u rfl
    intro v hv
    rw [scanFrom] at hv
    split at hv
    · obtain rfl := Option.some.inj hv
      exact hu
    · split at hv
      · obtain rfl := Option.some.inj hv
        decide
      · obtain rfl := Option.some.inj hv
        exact hu

theorem ne_of_isTokenUnit {u : UInt16} (h : isTokenUnit u = true) :
    u ≠ unit '"' ∧ u ≠ unit '\x7b' := by
  constructor
  · rintro rfl
    exact absurd h (by decide)
  · rintro rfl
    exact absurd h (by decide)

/-- A run of code units of numbers and constants is copied, and is one of the scanned text. -/
theorem scanFrom_takeWhile (index : ℕ) (text : JsString) :
    scanFrom 0 index .outside text = push (text.takeWhile isTokenUnit)
        (scanFrom 0 index .outside (text.dropWhile isTokenUnit)) ∧
      Stops (scanFrom 0 index .outside (text.dropWhile isTokenUnit)).1 := by
  have htoken : ∀ u ∈ text.takeWhile isTokenUnit, isTokenUnit u = true :=
    fun u hu => List.mem_takeWhile_imp hu
  have hcopy := scanFrom_append index (fun u hu => ne_of_isTokenUnit (htoken u hu))
    (text.dropWhile isTokenUnit)
  rw [List.takeWhile_append_dropWhile] at hcopy
  refine ⟨hcopy, stops_scanFrom (fun u hu => ?_) index⟩
  have hhead := List.head?_dropWhile_not isTokenUnit text
  rw [Option.mem_def] at hu
  rw [hu] at hhead
  simpa using hhead

/-- An atom of the source is one of the scanned text. -/
theorem readAtom_scanFrom {u : UInt16} {text rest : JsString} {a : Atom} (index : ℕ)
    (hexpr : readExpr (u :: text) = none) (h : readAtom (u :: text) = some (a, rest)) :
    rest.length ≤ text.length ∧ ∃ w, w ≠ [] ∧
      scanFrom 0 index .outside (u :: text) = push w (scanFrom 0 index .outside rest) ∧
      readAtom (w ++ (scanFrom 0 index .outside rest).1) =
        some (a, (scanFrom 0 index .outside rest).1) := by
  rw [readAtom] at h
  split at h
  · rename_i hquote
    split at h
    · cases h
    · rename_i body rest' hclose
      obtain ⟨s, hs, heq⟩ := Option.map_eq_some_iff.mp h
      obtain ⟨rfl, rfl⟩ := Prod.mk.inj heq
      obtain ⟨hscan, rfl, hafter⟩ := scanFrom_inString index hclose
      refine ⟨by simp; omega, unit '"' :: (body ++ [unit '"']), List.cons_ne_nil _ _, ?_, ?_⟩
      · rw [scanFrom, if_pos hquote, hscan, push_push, hquote]
        rfl
      · rw [List.cons_append, List.append_assoc, List.singleton_append, readAtom, if_pos rfl,
          hafter]
        simp only [hs, Option.map_some]
  · rename_i hquote
    obtain ⟨a', hread, heq⟩ := Option.map_eq_some_iff.mp h
    obtain ⟨rfl, rfl⟩ := Prod.mk.inj heq
    obtain ⟨hscan, hstops⟩ := scanFrom_takeWhile index (u :: text)
    have hne : (u :: text).takeWhile isTokenUnit ≠ [] := by
      intro hnil
      rw [hnil] at hread
      cases hread
    refine ⟨?_, _, hne, hscan, readAtom_token hread (fun v hv => List.mem_takeWhile_imp hv) hstops⟩
    have hlength := congrArg List.length
      (List.takeWhile_append_dropWhile (p := isTokenUnit) (l := u :: text))
    have hpos := List.length_pos_of_ne_nil hne
    rw [List.length_append, List.length_cons] at hlength
    omega

/-- Where the source has no atom, the scanned text has none. -/
theorem readAtom_scanFrom_none {u : UInt16} {text : JsString} (index : ℕ)
    (hexpr : readExpr (u :: text) = none) (h : readAtom (u :: text) = none) :
    readAtom (scanFrom 0 index .outside (u :: text)).1 = none ∧
      (u = unit '"' ∧ (scanFrom 0 index .outside (u :: text)).1.head? = some u ∨
        scanFrom 0 index .outside (u :: text) = push [u] (scanFrom 0 index .outside text)) := by
  rw [readAtom] at h
  split at h
  · rename_i hquote
    rw [scanFrom, if_pos hquote]
    cases hclose : closeString text with
    | none =>
      rw [scanFrom_inString_none index hclose]
      refine ⟨?_, Or.inl ⟨hquote, rfl⟩⟩
      rw [push, List.singleton_append, readAtom, if_pos hquote, hclose]
    | some result =>
      obtain ⟨body, rest⟩ := result
      rw [hclose] at h
      have hnone : unescapeUnits body = none := Option.map_eq_none_iff.mp h
      obtain ⟨hscan, -, hafter⟩ := scanFrom_inString index hclose
      rw [hscan, push_push]
      refine ⟨?_, Or.inl ⟨hquote, rfl⟩⟩
      rw [push, List.singleton_append, List.cons_append, List.append_assoc, List.singleton_append,
        readAtom, if_pos hquote, hafter]
      simp only [hnone, Option.map_none]
  · rename_i hquote
    have hread := Option.map_eq_none_iff.mp h
    obtain ⟨hscan, hstops⟩ := scanFrom_takeWhile index (u :: text)
    have hcopy : scanFrom 0 index .outside (u :: text) =
        push [u] (scanFrom 0 index .outside text) := by
      rw [scanFrom, if_neg hquote, hexpr]
    refine ⟨?_, Or.inr hcopy⟩
    have htoken : ∀ v ∈ (u :: text).takeWhile isTokenUnit, isTokenUnit v = true :=
      fun v hv => List.mem_takeWhile_imp hv
    have htake := (takeWhile_token htoken hstops).1
    have hsame : u :: (scanFrom 0 index .outside text).1 = (u :: text).takeWhile isTokenUnit ++
        (scanFrom 0 index .outside ((u :: text).dropWhile isTokenUnit)).1 :=
      congrArg Prod.fst (hcopy.symm.trans hscan)
    rw [← hsame] at htake
    rw [hcopy, push, List.singleton_append, readAtom, if_neg hquote, htake, hread, Option.map_none]

/-- The scanned text has the tokens of the template, with sentinels for its expressions. -/
theorem lex_scanFrom (n : ℕ) : ∀ (source : JsString) (index fuel fuel' : ℕ), source.length < n →
    source.length < fuel → (scanFrom 0 index .outside source).1.length < fuel' →
    lex readAtom fuel' (scanFrom 0 index .outside source).1 =
        (lex readTemplateAtom fuel source).map (encodeFrom index) ∧
      ∀ tokens, lex readTemplateAtom fuel source = some tokens →
        (scanFrom 0 index .outside source).2 = expressions tokens := by
  induction n with
  | zero => exact fun source index fuel fuel' h => absurd h (Nat.not_lt_zero _)
  | succ n ih =>
    intro source index fuel fuel' hn hfuel hfuel'
    obtain ⟨fuel, rfl⟩ := Nat.exists_eq_succ_of_ne_zero (Nat.ne_of_gt (Nat.zero_lt_of_lt hfuel))
    obtain ⟨fuel', rfl⟩ := Nat.exists_eq_succ_of_ne_zero (Nat.ne_of_gt (Nat.zero_lt_of_lt hfuel'))
    cases source with
    | nil =>
      refine ⟨rfl, fun tokens h => ?_⟩
      obtain rfl := Option.some.inj h
      rfl
    | cons u text =>
      have hsource : u :: text ≠ [] := List.cons_ne_nil u text
      cases hexpr : readExpr (u :: text) with
      | some result =>
        obtain ⟨expr, rest⟩ := result
        obtain ⟨htext, hhead, -⟩ := readExpr_spec hexpr
        obtain ⟨expr', rfl⟩ := List.head?_eq_some_iff.mp hhead
        rw [List.cons_append] at htext
        obtain ⟨rfl, rfl⟩ := List.cons.inj htext
        have hscan : scanFrom 0 index .outside (unit '\x7b' :: (expr' ++ rest)) =
            (sentinelToken index ++ (scanFrom 0 (index + 1) .outside rest).1,
              (unit '\x7b' :: expr') :: (scanFrom 0 (index + 1) .outside rest).2) := by
          rw [scanFrom, if_neg (by decide), hexpr]
          dsimp only
          rw [List.length_cons, Nat.add_sub_cancel, scanFrom_length]
        have hread : readTemplateAtom (unit '\x7b' :: (expr' ++ rest)) =
            some (.expr (unit '\x7b' :: expr'), rest) := by
          rw [readTemplateAtom, hexpr]
        rw [hscan] at hfuel' ⊢
        simp only [List.length_cons, List.length_append] at hn hfuel hfuel'
        obtain ⟨hlex, hexpressions⟩ := ih rest (index + 1) fuel fuel' (by omega) (by omega) (by
          simp [sentinelToken] at hfuel'
          omega)
        rw [lex_of_atom (by simp [sentinelToken]) (readAtom_sentinelToken index _),
          lex_of_atom hsource hread, hlex, Option.map_map, Option.map_map]
        refine ⟨rfl, fun tokens htokens => ?_⟩
        obtain ⟨tokens', htokens', rfl⟩ := Option.map_eq_some_iff.mp htokens
        exact congrArg _ (hexpressions tokens' htokens')
      | none =>
        cases hatom : readAtom (u :: text) with
        | some result =>
          obtain ⟨a, rest⟩ := result
          obtain ⟨hlength, w, hne, hscan, hread'⟩ := readAtom_scanFrom index hexpr hatom
          have hread : readTemplateAtom (u :: text) = some (.json a, rest) := by
            rw [readTemplateAtom, hexpr, hatom]
            rfl
          have hpos := List.length_pos_of_ne_nil hne
          rw [hscan, push] at hfuel' ⊢
          simp only [List.length_cons, List.length_append] at hn hfuel hfuel'
          obtain ⟨hlex, hexpressions⟩ := ih rest index fuel fuel' (by omega) (by omega) (by omega)
          rw [lex_of_atom (List.append_ne_nil_of_left_ne_nil hne _) hread',
            lex_of_atom hsource hread, hlex, Option.map_map, Option.map_map]
          refine ⟨rfl, fun tokens htokens => ?_⟩
          obtain ⟨tokens', htokens', rfl⟩ := Option.map_eq_some_iff.mp htokens
          exact hexpressions tokens' htokens'
        | none =>
          have hread : readTemplateAtom (u :: text) = none := by
            rw [readTemplateAtom, hexpr, hatom]
            rfl
          obtain ⟨hread', ⟨rfl, hhead⟩ | hscan⟩ := readAtom_scanFrom_none index hexpr hatom
          · obtain ⟨out, hout⟩ := List.head?_eq_some_iff.mp hhead
            rw [hout] at hread'
            rw [hout, lex_of_none hread', lex_of_none hread]
            exact ⟨rfl, fun tokens h => by cases h⟩
          · rw [hscan, push, List.singleton_append] at hread' hfuel' ⊢
            simp only [List.length_cons] at hn hfuel hfuel'
            obtain ⟨hlex, hexpressions⟩ := ih text index fuel fuel' (by omega) (by omega) (by omega)
            rw [lex_of_none hread', lex_of_none hread]
            by_cases hspace : isJsonSpace u = true
            · rw [if_pos hspace, if_pos hspace]
              exact ⟨hlex, hexpressions⟩
            · rw [if_neg hspace, if_neg hspace, punctuator?_map (fun a => encodeAtom (index, a)),
                hlex]
              cases htoken : punctuator? (A := TemplateAtom) u with
              | none => exact ⟨rfl, fun tokens h => by cases h⟩
              | some token =>
                have hne (a : TemplateAtom) : token ≠ .atom a := by
                  rintro rfl
                  exact punctuator?_ne_atom htoken
                rw [Option.map_some, Option.bind_some, Option.bind_some, Option.map_map,
                  Option.map_map]
                refine ⟨?_, fun tokens htokens => ?_⟩
                · refine congrArg (fun f => (lex readTemplateAtom fuel text).map f)
                    (funext fun t => ?_)
                  exact (encodeFrom_cons hne index t).symm
                · obtain ⟨tokens', htokens', rfl⟩ := Option.map_eq_some_iff.mp htokens
                  rw [expressions_cons hne]
                  exact hexpressions tokens' htokens'

end RelyLoop.Templates
