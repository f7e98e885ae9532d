import Mathlib.Data.List.Basic

/-!
# Regular expressions

Patterns as both `re` of Python and `RegExp` of ECMAScript read them: classes, groups,
alternatives, greedy repetitions of a class, word boundaries and anchors. A flavour says over
which alphabet a pattern runs and what its classes mean there. The matcher lists the ends of
a match in the order in which a backtracking engine finds them, so that the first one is the
match.
-/

namespace RelyLoop.Text

/-- A class of characters. -/
inductive CharClass where
  | oneOf (cs : List Char)
  /-- `\s`. -/
  | space
  /-- `.`. -/
  | any
  deriving DecidableEq

/-- A regular expression. -/
inductive Pattern where
  | empty
  | one (k : CharClass)
  /-- `k+`. -/
  | plus (k : CharClass)
  /-- `k*`. -/
  | star (k : CharClass)
  /-- `\b`. -/
  | boundary
  /-- `^`. -/
  | start
  /-- `$`. -/
  | finish
  | seq (r r' : Pattern)
  | alt (r r' : Pattern)
  deriving DecidableEq

namespace Pattern

/-! ## Reading a pattern -/

/-- The terms of an alternative. -/
def chain (rs : List Pattern) : Pattern := rs.foldr seq empty

/-- `r|r'|…`. -/
def anyOf : List Pattern → Pattern
  | [] => empty
  | [r] => r
  | r :: rs => alt r (anyOf rs)

/-- The value of a hexadecimal digit. -/
def hexDigitValue (c : Char) : Option ℕ :=
  if c.isDigit then some (c.toNat - '0'.toNat)
  else if 'a' ≤ c ∧ c ≤ 'f' then some (c.toNat - 'a'.toNat + 10)
  else if 'A' ≤ c ∧ c ≤ 'F' then some (c.toNat - 'A'.toNat + 10)
  else none

/-- The character of the four digits of `\u`. -/
def readCodeUnit (digits : List Char) : Option Char := do
  let values ← digits.mapM hexDigitValue
  return Char.ofNat (values.foldl (fun n d => n * 16 + d) 0)

/-- The characters of a class up to its `]`. A range is not read. -/
def readClass : List Char → Option (List Char × List Char)
  | [] => none
  | ']' :: rest => some ([], rest)
  | '-' :: _ => none
  | '\\' :: c :: rest =>
    if c.isAlphanum then none else (readClass rest).map fun (cs, rest) => (c :: cs, rest)
  | c :: rest => (readClass rest).map fun (cs, rest) => (c :: cs, rest)

/-- What stands behind a backslash outside of a class. -/
def readEscape : List Char → Option (CharClass × List Char)
  | 's' :: rest => some (.space, rest)
  | 'u' :: rest => (readCodeUnit (rest.take 4)).map fun c => (.oneOf [c], rest.drop 4)
  | c :: rest => if c.isAlphanum then none else some (.oneOf [c], rest)
  | [] => none

/-- A class, or a single character. -/
def readAtom : List Char → Option (CharClass × List Char)
  | '[' :: rest => (readClass rest).map fun (cs, rest) => (.oneOf cs, rest)
  | '\\' :: rest => readEscape rest
  | '.' :: rest => some (.any, rest)
  | c :: rest => if "+*?\x7b\x7d]".toList.contains c then none else some (.oneOf [c], rest)
  | [] => none

/-- An atom with its quantifier. -/
def readRepeated (text : List Char) : Option (Pattern × List Char) :=
  (readAtom text).map fun (k, rest) =>
    match rest with
    | '+' :: rest => (plus k, rest)
    | '*' :: rest => (star k, rest)
    | rest => (one k, rest)

/-- An open group: its alternatives and the terms of the last one, the latest first. -/
structure Level where
  alternatives : List Pattern
  terms : List Pattern

/-- The group as it is closed. -/
def Level.close (level : Level) : Pattern :=
  anyOf ((chain level.terms.reverse :: level.alternatives).reverse)

/-- One more term. -/
def Level.push (level : Level) (r : Pattern) : Level := { level with terms := r :: level.terms }

/-- The pattern of a text, read inside the given groups. -/
def readFrom : ℕ → List Char → Level → List Level → Option Pattern
  | 0, _, _, _ => none
  | _ + 1, [], level, outer => if outer.isEmpty then some level.close else none
  | fuel + 1, '|' :: rest, level, outer =>
    readFrom fuel rest ⟨chain level.terms.reverse :: level.alternatives, []⟩ outer
  | fuel + 1, '(' :: rest, level, outer => readFrom fuel rest ⟨[], []⟩ (level :: outer)
  | _ + 1, ')' :: _, _, [] => none
  | fuel + 1, ')' :: rest, level, parent :: outer =>
    readFrom fuel rest (parent.push level.close) outer
  | fuel + 1, '^' :: rest, level, outer => readFrom fuel rest (level.push start) outer
  | fuel + 1, '$' :: rest, level, outer => readFrom fuel rest (level.push finish) outer
  | fuel + 1, '\\' :: 'b' :: rest, level, outer => readFrom fuel rest (level.push boundary) outer
  | fuel + 1, text, level, outer =>
    match readRepeated text with
    | none => none
    | some (r, rest) => readFrom fuel rest (level.push r) outer

/-- The pattern of a text, `none` where the text is outside of the fragment. -/
def read (text : List Char) : Option Pattern := readFrom (text.length + 1) text ⟨[], []⟩ []

end Pattern

/-! ## Matching -/

/-- What the parts of a pattern mean over an alphabet. -/
structure Flavour (α : Type) where
  accepts : CharClass → α → Bool
  isWord : α → Bool
  /-- Whether `$` holds before the given text. -/
  isFinish : List α → Bool

/-- A position in a text: what stands before it and the text from there on. -/
structure Position (α : Type) where
  before : Option α
  rest : List α

/-- The flavour of `re`, with the tables for `\w` and `\s`. -/
def pythonFlavour (isWord isSpace : Char → Bool) : Flavour Char where
  accepts
    | .oneOf cs, c => cs.contains c
    | .space, c => isSpace c
    | .any, c => c != '\n'
  isWord := isWord
  isFinish rest := rest == [] || rest == ['\n']

variable {α : Type}

/-- Exactly one side of a position is a word character. -/
def Position.atBoundary (F : Flavour α) (p : Position α) : Bool :=
  p.before.any F.isWord != p.rest.head?.any F.isWord

/-- The ends of one or more accepted characters, the longest run first. -/
def run (accepts : α → Bool) : List α → List (Position α)
  | [] => []
  | a :: rest => if accepts a then run accepts rest ++ [⟨some a, rest⟩] else []

namespace Pattern

/-- The ends of a match that begins at a position, in the order of preference. -/
def ends (F : Flavour α) : Pattern → Position α → List (Position α)
  | empty, p => [p]
  | one k, p =>
    match p.rest with
    | [] => []
    | a :: rest => if F.accepts k a then [⟨some a, rest⟩] else []
  | plus k, p => run (F.accepts k) p.rest
  | star k, p => run (F.accepts k) p.rest ++ [p]
  | boundary, p => if p.atBoundary F then [p] else []
  | start, p => if p.before.isNone then [p] else []
  | finish, p => if F.isFinish p.rest then [p] else []
  | seq r r', p => (ends F r p).flatMap (ends F r')
  | alt r r', p => ends F r p ++ ends F r' p

/-- How much of the text the match at a position takes. -/
def matchLength (F : Flavour α) (r : Pattern) (p : Position α) : Option ℕ :=
  (r.ends F p).head?.map fun q => p.rest.length - q.rest.length

/-- Replaces the matches from a position on, where some characters still belong to the match
before it. A match of no characters is left alone. -/
def subFrom (F : Flavour α) (r : Pattern) (replacement : List α → List α) :
    ℕ → Option α → List α → List α
  | _, _, [] => []
  | skip + 1, _, a :: rest => subFrom F r replacement skip (some a) rest
  | 0, before, a :: rest =>
    match r.matchLength F ⟨before, a :: rest⟩ with
    | some (n + 1) =>
      replacement ((a :: rest).take (n + 1)) ++ subFrom F r replacement n (some a) rest
    | _ => a :: subFrom F r replacement 0 (some a) rest

/-- Every match from left to right, replaced. -/
def sub (F : Flavour α) (r : Pattern) (replacement : List α → List α) (text : List α) : List α :=
  subFrom F r replacement 0 none text

/-- A match that begins at the start of the text. -/
def matchesStart (F : Flavour α) (r : Pattern) (text : List α) : Bool :=
  !(r.ends F ⟨none, text⟩).isEmpty

end Pattern

/-- All positions of a text that have a character behind them. -/
def positions : Option α → List α → List (Position α)
  | _, [] => []
  | before, a :: rest => ⟨before, a :: rest⟩ :: positions (some a) rest

namespace Pattern

/-- A match that begins anywhere. -/
def search (F : Flavour α) (r : Pattern) (text : List α) : Bool :=
  (positions none text ++ [(⟨text.getLast?, []⟩ : Position α)]).any fun p => !(r.ends F p).isEmpty

end Pattern

/-! ## One class -/

section Classes

variable {F : Flavour α} {k : CharClass}

attribute [local simp] Pattern.ends in
theorem matchLength_one {before : Option α} {a : α} {rest : List α} :
    (Pattern.one k).matchLength F ⟨before, a :: rest⟩ =
      if F.accepts k a then some 1 else none := by
  by_cases h : F.accepts k a = true <;> simp [Pattern.matchLength, h]

/-- A pattern of one character is replaced character by character. -/
theorem sub_one (replaced text : List α) :
    (Pattern.one k).sub F (fun _ => replaced) text =
      text.flatMap fun a => if F.accepts k a then replaced else [a] := by
  have hfrom : ∀ before, (Pattern.one k).subFrom F (fun _ => replaced) 0 before text =
      text.flatMap fun a => if F.accepts k a then replaced else [a] := by
    induction text with
    | nil => exact fun _ => rfl
    | cons a rest ih =>
      intro before
      rw [Pattern.subFrom, matchLength_one, List.flatMap_cons]
      cases F.accepts k a with
      | true => exact congrArg (replaced ++ ·) (ih (some a))
      | false => exact congrArg (a :: ·) (ih (some a))
  exact hfrom none

/-- The text without its runs of accepted characters, each of which leaves one `c`. The flag says
whether the text continues a run. -/
def collapseFrom (accepts : α → Bool) (c : α) : Bool → List α → List α
  | _, [] => []
  | inRun, a :: rest =>
    if accepts a then (if inRun then [] else [c]) ++ collapseFrom accepts c true rest
    else a :: collapseFrom accepts c false rest

theorem head?_run {accepts : α → Bool} {a : α} (rest : List α) (h : accepts a = true) :
    (run accepts (a :: rest)).head?.map Position.rest = some (rest.dropWhile accepts) := by
  induction rest generalizing a with
  | nil => simp [run, h]
  | cons b rest ih =>
    rw [run, if_pos h, List.head?_append]
    cases hb : accepts b with
    | true =>
      obtain ⟨q, hq, hrest⟩ := Option.map_eq_some_iff.mp (ih hb)
      rw [hq, Option.some_or, Option.map_some, hrest, List.dropWhile_cons_of_pos hb]
    | false =>
      rw [run, if_neg (by simp [hb]), List.dropWhile_cons_of_neg (by simp [hb])]
      rfl

theorem matchLength_plus {before : Option α} {a : α} {rest : List α} :
    (Pattern.plus k).matchLength F ⟨before, a :: rest⟩ =
      if F.accepts k a then some ((rest.takeWhile (F.accepts k)).length + 1) else none := by
  rw [Pattern.matchLength, Pattern.ends]
  split
  case isTrue h =>
    obtain ⟨q, hq, hrest⟩ := Option.map_eq_some_iff.mp (head?_run rest h)
    have hsplit : rest.takeWhile (F.accepts k) ++ rest.dropWhile (F.accepts k) = rest :=
      List.takeWhile_append_dropWhile
    have hlength := congrArg List.length hsplit
    rw [List.length_append] at hlength
    rw [hq, Option.map_some, hrest, List.length_cons]
    congr 1
    omega
  case isFalse h =>
    rw [run, if_neg h]
    rfl

/-- Runs of a class are replaced as a whole. -/
theorem sub_plus (c : α) (text : List α) :
    (Pattern.plus k).sub F (fun _ => [c]) text = collapseFrom (F.accepts k) c false text := by
  have hfrom : ∀ before,
      (Pattern.plus k).subFrom F (fun _ => [c]) 0 before text =
        collapseFrom (F.accepts k) c false text ∧
      (Pattern.plus k).subFrom F (fun _ => [c]) (text.takeWhile (F.accepts k)).length before
        text = collapseFrom (F.accepts k) c true text := by
    induction text with
    | nil => exact fun _ => ⟨rfl, rfl⟩
    | cons a rest ih =>
      intro before
      obtain ⟨hfresh, hrun⟩ := ih (some a)
      cases h : F.accepts k a with
      | true =>
        constructor
        · rw [Pattern.subFrom, matchLength_plus, if_pos h, collapseFrom, if_pos h, ← hrun]
          rfl
        · rw [List.takeWhile_cons_of_pos h, List.length_cons, Pattern.subFrom, hrun, collapseFrom,
            if_pos h]
          rfl
      | false =>
        have hcopy : (Pattern.plus k).subFrom F (fun _ => [c]) 0 before (a :: rest) =
            a :: collapseFrom (F.accepts k) c false rest := by
          rw [Pattern.subFrom, matchLength_plus, if_neg (by simp [h]), ← hfresh]
        constructor
        · rw [hcopy, collapseFrom, if_neg (by simp [h])]
        · rw [List.takeWhile_cons_of_neg (by simp [h]), List.length_nil, hcopy, collapseFrom,
            if_neg (by simp [h])]
  exact (hfrom none).1

variable {accepts accepts' : α → Bool} {c : α}

/-- Characters outside of the class stay. -/
theorem filter_collapseFrom {keeps : α → Bool} (hc : keeps c = false)
    (h : ∀ a, accepts a = true → keeps a = false) (inRun : Bool) (text : List α) :
    (collapseFrom accepts c inRun text).filter keeps = text.filter keeps := by
  induction text generalizing inRun with
  | nil => rfl
  | cons a rest ih =>
    rw [collapseFrom]
    split
    case isTrue ha =>
      rw [List.filter_append, ih, List.filter_cons_of_neg (by simp [h a ha])]
      cases inRun <;> simp [hc]
    case isFalse ha =>
      cases hkeeps : keeps a with
      | true => rw [List.filter_cons_of_pos hkeeps, List.filter_cons_of_pos hkeeps, ih]
      | false =>
        rw [List.filter_cons_of_neg (by simp [hkeeps]), List.filter_cons_of_neg (by simp [hkeeps]),
          ih]

/-- Of the class, only the replacement is left. -/
theorem mem_collapseFrom {a : α} {inRun : Bool} {text : List α}
    (h : a ∈ collapseFrom accepts c inRun text) : a = c ∨ accepts a = false := by
  induction text generalizing inRun with
  | nil => cases h
  | cons b rest ih =>
    rw [collapseFrom] at h
    split at h
    case isTrue =>
      rcases List.mem_append.mp h with hhead | hrest
      · cases inRun with
        | true => cases hhead
        | false => exact Or.inl (List.mem_singleton.mp hhead)
      · exact ih hrest
    case isFalse hb =>
      rcases List.mem_cons.mp h with rfl | hrest
      · exact Or.inr (by simpa using hb)
      · exact ih hrest

/-- Nothing but the replacement is new. -/
theorem mem_of_mem_collapseFrom {a : α} {inRun : Bool} {text : List α}
    (h : a ∈ collapseFrom accepts c inRun text) : a = c ∨ a ∈ text := by
  induction text generalizing inRun with
  | nil => cases h
  | cons b rest ih =>
    rw [collapseFrom] at h
    split at h
    case isTrue =>
      rcases List.mem_append.mp h with hhead | hrest
      · cases inRun with
        | true => cases hhead
        | false => exact Or.inl (List.mem_singleton.mp hhead)
      · exact (ih hrest).imp_right (List.mem_cons_of_mem b)
    case isFalse =>
      rcases List.mem_cons.mp h with rfl | hrest
      · exact Or.inr List.mem_cons_self
      · exact (ih hrest).imp_right (List.mem_cons_of_mem b)

theorem collapseFrom_congr {inRun : Bool} {text : List α}
    (h : ∀ a ∈ text, accepts a = accepts' a) :
    collapseFrom accepts c inRun text = collapseFrom accepts' c inRun text := by
  induction text generalizing inRun with
  | nil => rfl
  | cons a rest ih =>
    obtain ⟨ha, hrest⟩ := List.forall_mem_cons.mp h
    rw [collapseFrom, collapseFrom, ha, ih hrest, ih hrest]

end Classes

end RelyLoop.Text
