import RelyLoop.Text.Patterns
import Mathlib.Data.List.Count

/-!
# Replacing bounded words

The substitution of `\b(w|w'|…)\b`: at most one of the words stands between boundaries at a
position, and the scan replaces it or copies a character.
-/

namespace RelyLoop.Text

/-- A text, character for character. -/
def Pattern.literal (word : List Char) : Pattern :=
  chain (word.map fun c => one (.oneOf [c]))

/-- `\b(w|w'|…)\b`. -/
def Pattern.boundedWord (words : List (List Char)) : Pattern :=
  chain [boundary, anyOf (words.map literal), boundary]

/-- Single characters stand for themselves. -/
def Flavour.IsLiteral (F : Flavour Char) : Prop :=
  ∀ c a, F.accepts (.oneOf [c]) a = (a == c)

variable {α : Type}

theorem getLast?_cons_or (a : α) (w : List α) (before : Option α) :
    (a :: w).getLast?.or before = w.getLast?.or (some a) := by
  rw [List.getLast?_cons]
  cases w.getLast? <;> rfl

/-- The position behind a word. -/
def Position.skip (p : Position α) (word : List α) : Position α :=
  ⟨word.getLast?.or p.before, p.rest.drop word.length⟩

/-- A word stands at a position, between boundaries. -/
def Flavour.bounded (F : Flavour Char) (p : Position Char) (word : List Char) : Bool :=
  p.atBoundary F && word.isPrefixOf p.rest && (p.skip word).atBoundary F

/-- Words that begin and end with a word character, none of which is the beginning of another or
could stand between boundaries across the end of another. -/
structure Separated (isWord : Char → Bool) (words : List (List Char)) : Prop where
  nonempty : words ≠ []
  last_isWord : ∀ w ∈ words, w.getLast?.any isWord = true
  prefix_free : ∀ w ∈ words, ∀ w' ∈ words, w <+: w' → w = w'
  apart : ∀ w ∈ words, ∀ w' ∈ words, ∀ i < w.length, 0 < i →
    (w.take i).getLast?.any isWord ≠ (w.drop i).head?.any isWord →
      ¬w' <+: w.drop i ∧
        (w.drop i <+: w' → (w'.drop (w.length - i)).head?.any isWord = true)

theorem Separated.length_pos {isWord : Char → Bool} {words : List (List Char)} {w : List Char}
    (h : Separated isWord words) (hw : w ∈ words) : 0 < w.length := by
  cases w with
  | nil => exact absurd (h.last_isWord [] hw) (by simp)
  | cons a w => exact Nat.succ_pos _

/-! ## The match at a position -/

section Match

variable {F : Flavour Char} {words : List (List Char)} {p : Position Char} {w : List Char}

theorem ends_literal (hF : F.IsLiteral) (word : List Char) (p : Position Char) :
    (Pattern.literal word).ends F p =
      if word.isPrefixOf p.rest then [p.skip word] else [] := by
  induction word generalizing p with
  | nil => simp [Pattern.literal, Pattern.chain, Pattern.ends, Position.skip]
  | cons c word ih =>
    have hchain : Pattern.literal (c :: word) =
        .seq (.one (.oneOf [c])) (Pattern.literal word) := rfl
    rw [hchain, Pattern.ends, Pattern.ends]
    cases hrest : p.rest with
    | nil => simp
    | cons a rest =>
      simp only [hF c a, List.isPrefixOf_cons_cons]
      cases hac : (a == c) with
      | false =>
        have hca : (c == a) = false := by rw [Bool.beq_comm, hac]
        simp [hca]
      | true =>
        obtain rfl := beq_iff_eq.mp hac
        simp only [if_true, List.flatMap_singleton, ih, beq_self_eq_true, Bool.true_and]
        have hskip : (⟨some a, rest⟩ : Position Char).skip word = p.skip (a :: word) := by
          rw [Position.skip, Position.skip, hrest, getLast?_cons_or]
          rfl
        rw [hskip]

theorem ends_anyOf (F : Flavour Char) {rs : List Pattern} (hrs : rs ≠ []) (p : Position Char) :
    (Pattern.anyOf rs).ends F p = rs.flatMap fun r => r.ends F p := by
  induction rs with
  | nil => exact absurd rfl hrs
  | cons r rs ih =>
    cases rs with
    | nil => simp [Pattern.anyOf]
    | cons r' rs =>
      rw [List.flatMap_cons, ← ih (List.cons_ne_nil _ _)]
      rfl

theorem ends_boundedWord (hF : F.IsLiteral) (hwords : words ≠ []) (p : Position Char) :
    (Pattern.boundedWord words).ends F p = (words.filter (F.bounded p)).map p.skip := by
  have hchain : Pattern.boundedWord words =
      .seq .boundary (.seq (.anyOf (words.map .literal)) (.seq .boundary .empty)) := rfl
  have hrs : words.map Pattern.literal ≠ [] := by simpa using hwords
  rw [hchain, Pattern.ends, Pattern.ends]
  cases hp : p.atBoundary F with
  | false =>
    have hnone : words.filter (F.bounded p) = [] := by
      refine List.filter_eq_nil_iff.mpr fun w _ => ?_
      simp [Flavour.bounded, hp]
    simp [hnone]
  | true =>
    rw [if_pos rfl, List.flatMap_singleton, Pattern.ends, ends_anyOf F hrs]
    clear hwords hrs hchain
    induction words with
    | nil => rfl
    | cons w words ih =>
      rw [List.map_cons, List.flatMap_cons, List.flatMap_append, ih, ends_literal hF,
        List.filter_cons]
      cases hw : w.isPrefixOf p.rest with
      | false => simp [Flavour.bounded, hw]
      | true =>
        cases hend : (p.skip w).atBoundary F with
        | false => simp [Flavour.bounded, hw, hp, hend, Pattern.ends]
        | true => simp [Flavour.bounded, hw, hp, hend, Pattern.ends]

theorem Flavour.prefix_of_bounded (h : F.bounded p w = true) : w <+: p.rest := by
  rw [Flavour.bounded, Bool.and_eq_true, Bool.and_eq_true] at h
  exact List.isPrefixOf_iff_prefix.mp h.1.2

theorem matchLength_boundedWord (hF : F.IsLiteral) (hwords : words ≠ []) (p : Position Char) :
    (Pattern.boundedWord words).matchLength F p =
      (words.find? (F.bounded p)).map List.length := by
  rw [Pattern.matchLength, ends_boundedWord hF hwords, List.head?_map, List.head?_filter,
    Option.map_map]
  cases hfind : words.find? (F.bounded p) with
  | none => rfl
  | some w =>
    have hbounded : F.bounded p w = true := List.find?_some hfind
    have hle := (Flavour.prefix_of_bounded hbounded).length_le
    simp only [Option.map_some, Function.comp_apply, Position.skip, List.length_drop]
    congr 1
    omega

/-- At a position at most one word is bounded. -/
theorem find?_bounded (hwords : Separated F.isWord words) (hw : w ∈ words)
    (h : F.bounded p w = true) : words.find? (F.bounded p) = some w := by
  cases hfind : words.find? (F.bounded p) with
  | none => exact absurd h (by simpa using List.find?_eq_none.mp hfind w hw)
  | some w' =>
    have hw' : w' ∈ words := List.mem_of_find?_eq_some hfind
    have hbounded : F.bounded p w' = true := List.find?_some hfind
    have hbegins := Flavour.prefix_of_bounded h
    have hbegins' := Flavour.prefix_of_bounded hbounded
    rcases Nat.le_total w.length w'.length with hle | hle
    · rw [hwords.prefix_free w hw w' hw' (List.prefix_of_prefix_length_le hbegins hbegins' hle)]
    · rw [hwords.prefix_free w' hw' w hw (List.prefix_of_prefix_length_le hbegins' hbegins hle)]

end Match

/-! ## The scan -/

section Scan

/-- The characters of a match are skipped. -/
theorem subFrom_skip (F : Flavour α) (r : Pattern) (f : List α → List α) (w t : List α)
    (before : Option α) :
    r.subFrom F f w.length before (w ++ t) = r.subFrom F f 0 (w.getLast?.or before) t := by
  induction w generalizing before with
  | nil => rfl
  | cons a w ih =>
    rw [List.length_cons, List.cons_append, Pattern.subFrom, ih, getLast?_cons_or]

variable {F G : Flavour Char} {words : List (List Char)} {f : List Char → List Char}
  {w t : List Char} {before : Option Char}

theorem subFrom_hit (hF : F.IsLiteral) (hwords : Separated F.isWord words) (hw : w ∈ words)
    (h : F.bounded ⟨before, w ++ t⟩ w = true) :
    (Pattern.boundedWord words).subFrom F f 0 before (w ++ t) =
      f w ++ (Pattern.boundedWord words).subFrom F f 0 w.getLast? t := by
  have hlength := matchLength_boundedWord hF hwords.nonempty ⟨before, w ++ t⟩
  rw [find?_bounded hwords hw h, Option.map_some] at hlength
  cases w with
  | nil => exact absurd (hwords.last_isWord [] hw) (by simp)
  | cons a w =>
    rw [List.length_cons, List.cons_append] at hlength
    have htake : (a :: (w ++ t)).take (w.length + 1) = a :: w := by simp
    have hlast : (a :: w).getLast? = w.getLast?.or (some a) := by
      rw [← getLast?_cons_or a w none, Option.or_none]
    rw [List.cons_append, Pattern.subFrom, hlength]
    simp only [htake, subFrom_skip, hlast]

theorem subFrom_miss (hF : F.IsLiteral) (hwords : words ≠ []) {a : Char} {rest : List Char}
    (h : words.find? (F.bounded ⟨before, a :: rest⟩) = none) :
    (Pattern.boundedWord words).subFrom F f 0 before (a :: rest) =
      a :: (Pattern.boundedWord words).subFrom F f 0 (some a) rest := by
  rw [Pattern.subFrom, matchLength_boundedWord hF hwords, h]
  rfl

/-- What holds of a text and its substitution if it holds of the empty texts, when a character is
copied and when a word is replaced. -/
theorem sub_rule (hF : F.IsLiteral) (hwords : Separated F.isWord words)
    {P : List Char → List Char → Prop} (hnil : P [] [])
    (hcopy : ∀ a text result, P text result → P (a :: text) (a :: result))
    (hreplace : ∀ w ∈ words, ∀ text result, P text result → P (w ++ text) (f w ++ result))
    (text : List Char) : P text ((Pattern.boundedWord words).sub F f text) := by
  have hfrom : ∀ n (text : List Char) (before : Option Char), text.length ≤ n →
      P text ((Pattern.boundedWord words).subFrom F f 0 before text) := by
    intro n
    induction n with
    | zero =>
      intro text before hn
      rw [List.eq_nil_of_length_eq_zero (Nat.le_zero.mp hn)]
      exact hnil
    | succ n ih =>
      intro text before hn
      cases text with
      | nil => exact hnil
      | cons a rest =>
        cases hfind : words.find? (F.bounded ⟨before, a :: rest⟩) with
        | none =>
          rw [subFrom_miss hF hwords.nonempty hfind]
          exact hcopy a rest _ (ih rest (some a) (by simpa using hn))
        | some w =>
          have hw : w ∈ words := List.mem_of_find?_eq_some hfind
          have hbounded : F.bounded ⟨before, a :: rest⟩ w = true := List.find?_some hfind
          obtain ⟨t, ht⟩ : w <+: a :: rest := Flavour.prefix_of_bounded hbounded
          have hpos : 0 < w.length := hwords.length_pos hw
          have hlength := congrArg List.length ht
          rw [List.length_append] at hlength
          have hle : t.length ≤ n := by omega
          rw [← ht] at hbounded ⊢
          rw [subFrom_hit hF hwords hw hbounded]
          exact hreplace w hw t _ (ih t _ hle)
  exact hfrom text.length text none (Nat.le_refl _)

end Scan

end RelyLoop.Text
