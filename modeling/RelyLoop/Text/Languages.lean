import RelyLoop.Text.Patterns
import Mathlib.Computability.Language

/-!
# Languages of patterns

A pattern without assertions spells a set of texts: a match ends where a spelled text ends. Between
`^` and `$` a pattern asks whether it spells the whole text.
-/

namespace RelyLoop.Text

variable {α : Type}

namespace Pattern

/-- No assertion occurs. -/
def isPlain : Pattern → Bool
  | empty => true
  | one _ => true
  | plus _ => true
  | star _ => true
  | boundary => false
  | start => false
  | finish => false
  | seq r r' => r.isPlain && r'.isPlain
  | alt r r' => r.isPlain && r'.isPlain

/-- The texts that a pattern without assertions spells. -/
def language (F : Flavour α) : Pattern → Language α
  | empty => 1
  | one k => {w | ∃ a, F.accepts k a = true ∧ w = [a]}
  | plus k => {w | w ≠ [] ∧ ∀ a ∈ w, F.accepts k a = true}
  | star k => {w | ∀ a ∈ w, F.accepts k a = true}
  | boundary => 0
  | start => 0
  | finish => 0
  | seq r r' => r.language F * r'.language F
  | alt r r' => r.language F + r'.language F

section Membership

variable {F : Flavour α} {k : CharClass} {r r' : Pattern} {w : List α}

@[simp] theorem mem_language_empty : w ∈ (empty : Pattern).language F ↔ w = [] := Iff.rfl

@[simp] theorem mem_language_one :
    w ∈ (one k).language F ↔ ∃ a, F.accepts k a = true ∧ w = [a] := Iff.rfl

@[simp] theorem mem_language_plus :
    w ∈ (plus k).language F ↔ w ≠ [] ∧ ∀ a ∈ w, F.accepts k a = true := Iff.rfl

@[simp] theorem mem_language_star :
    w ∈ (star k).language F ↔ ∀ a ∈ w, F.accepts k a = true := Iff.rfl

@[simp] theorem mem_language_seq : w ∈ (seq r r').language F ↔
    ∃ u ∈ r.language F, ∃ v ∈ r'.language F, u ++ v = w := Language.mem_mul

@[simp] theorem mem_language_alt :
    w ∈ (alt r r').language F ↔ w ∈ r.language F ∨ w ∈ r'.language F := Iff.rfl

end Membership

end Pattern

open Pattern

/-! ## Where a match ends -/

section Ends

variable {F : Flavour α} {r : Pattern} {rs : List Pattern} {p : Position α} {text rest : List α}

/-- A run ends behind some accepted characters. -/
theorem exists_mem_run {accepts : α → Bool} : (∃ q ∈ run accepts text, q.rest = rest) ↔
    ∃ w, (w ≠ [] ∧ ∀ a ∈ w, accepts a = true) ∧ text = w ++ rest := by
  induction text with
  | nil =>
    constructor
    · rintro ⟨q, hq, -⟩
      cases hq
    · rintro ⟨w, ⟨hne, -⟩, hsplit⟩
      exact absurd (List.append_eq_nil_iff.mp hsplit.symm).1 hne
  | cons a text ih =>
    rw [run]
    constructor
    · rintro ⟨q, hq, hrest⟩
      split at hq
      case isTrue ha =>
        rcases List.mem_append.mp hq with hlonger | hshort
        · obtain ⟨w, ⟨-, hw⟩, rfl⟩ := ih.mp ⟨q, hlonger, hrest⟩
          exact ⟨a :: w, ⟨List.cons_ne_nil a w, List.forall_mem_cons.mpr ⟨ha, hw⟩⟩, rfl⟩
        · obtain rfl := List.mem_singleton.mp hshort
          exact ⟨[a], ⟨List.cons_ne_nil a [], by simpa using ha⟩, by rw [← hrest]; rfl⟩
      case isFalse => cases hq
    · rintro ⟨w, ⟨hne, hw⟩, hsplit⟩
      cases w with
      | nil => exact absurd rfl hne
      | cons b w =>
        obtain ⟨rfl, rfl⟩ := List.cons.inj hsplit
        obtain ⟨ha, hrestAccepted⟩ := List.forall_mem_cons.mp hw
        rw [if_pos ha]
        cases w with
        | nil => exact ⟨⟨some a, rest⟩, List.mem_append_right _ List.mem_cons_self, rfl⟩
        | cons b w =>
          obtain ⟨q, hq, hend⟩ := ih.mpr ⟨b :: w, ⟨List.cons_ne_nil b w, hrestAccepted⟩, rfl⟩
          exact ⟨q, List.mem_append_left _ hq, hend⟩

/-- A match ends where a spelled text ends. -/
theorem exists_mem_ends (hplain : r.isPlain = true) : (∃ q ∈ r.ends F p, q.rest = rest) ↔
    ∃ w ∈ r.language F, p.rest = w ++ rest := by
  induction r generalizing p rest with
  | empty => simp [Pattern.ends]
  | one k =>
    obtain ⟨before, text⟩ := p
    cases text with
    | nil => simp [Pattern.ends]
    | cons a text =>
      rw [Pattern.ends]
      dsimp only
      constructor
      · rintro ⟨q, hq, hrest⟩
        split at hq
        case isTrue ha =>
          obtain rfl := List.mem_singleton.mp hq
          exact ⟨[a], ⟨a, ha, rfl⟩, congrArg (a :: ·) hrest⟩
        case isFalse => cases hq
      · rintro ⟨w, ⟨b, hb, rfl⟩, hsplit⟩
        obtain ⟨rfl, rfl⟩ := List.cons.inj hsplit
        rw [if_pos hb]
        exact ⟨_, List.mem_singleton_self _, rfl⟩
  | plus k => exact exists_mem_run
  | star k =>
    rw [Pattern.ends]
    constructor
    · rintro ⟨q, hq, hrest⟩
      rcases List.mem_append.mp hq with hrun | hnone
      · obtain ⟨w, ⟨-, hw⟩, hsplit⟩ := exists_mem_run.mp ⟨q, hrun, hrest⟩
        exact ⟨w, hw, hsplit⟩
      · obtain rfl := List.mem_singleton.mp hnone
        exact ⟨[], List.forall_mem_nil _, hrest⟩
    · rintro ⟨w, hw, hsplit⟩
      by_cases hne : w = []
      · rw [hne, List.nil_append] at hsplit
        exact ⟨p, List.mem_append_right _ (List.mem_singleton_self p), hsplit⟩
      · obtain ⟨q, hq, hrest⟩ := exists_mem_run.mpr ⟨w, ⟨hne, hw⟩, hsplit⟩
        exact ⟨q, List.mem_append_left _ hq, hrest⟩
  | boundary => cases hplain
  | start => cases hplain
  | finish => cases hplain
  | seq r r' ih ih' =>
    obtain ⟨hr, hr'⟩ := Bool.and_eq_true_iff.mp hplain
    rw [Pattern.ends]
    constructor
    · rintro ⟨q, hq, hrest⟩
      obtain ⟨m, hm, hq⟩ := List.mem_flatMap.mp hq
      obtain ⟨u, hu, hleft⟩ := (ih hr).mp ⟨m, hm, rfl⟩
      obtain ⟨v, hv, hright⟩ := (ih' hr').mp ⟨q, hq, hrest⟩
      exact ⟨u ++ v, mem_language_seq.mpr ⟨u, hu, v, hv, rfl⟩, by
        rw [hleft, hright, List.append_assoc]⟩
    · rintro ⟨w, hw, hsplit⟩
      obtain ⟨u, hu, v, hv, rfl⟩ := mem_language_seq.mp hw
      rw [List.append_assoc] at hsplit
      obtain ⟨m, hm, hmiddle⟩ := (ih hr).mpr ⟨u, hu, hsplit⟩
      obtain ⟨q, hq, hrest⟩ := (ih' hr').mpr ⟨v, hv, hmiddle⟩
      exact ⟨q, List.mem_flatMap.mpr ⟨m, hm, hq⟩, hrest⟩
  | alt r r' ih ih' =>
    obtain ⟨hr, hr'⟩ := Bool.and_eq_true_iff.mp hplain
    have hleft : (∃ q ∈ r.ends F p, q.rest = rest) ↔ ∃ w ∈ r.language F, p.rest = w ++ rest := ih hr
    have hright : (∃ q ∈ r'.ends F p, q.rest = rest) ↔
        ∃ w ∈ r'.language F, p.rest = w ++ rest := ih' hr'
    simpa only [Pattern.ends, List.mem_append, or_and_right, exists_or, mem_language_alt]
      using or_congr hleft hright

/-! ## Anchored patterns -/

theorem matchesStart_iff : r.matchesStart F text = true ↔ ∃ q, q ∈ r.ends F ⟨none, text⟩ := by
  rw [Pattern.matchesStart, Bool.not_eq_true', List.isEmpty_eq_false_iff_exists_mem]

/-- `^r` asks for a spelled text at the start. -/
theorem matchesStart_start (hplain : r.isPlain = true) :
    (seq start r).matchesStart F text = true ↔ ∃ w ∈ r.language F, w <+: text := by
  rw [matchesStart_iff]
  constructor
  · rintro ⟨q, hq⟩
    obtain ⟨m, hm, hq⟩ := List.mem_flatMap.mp hq
    obtain rfl := List.mem_singleton.mp hm
    obtain ⟨w, hw, hsplit⟩ := (exists_mem_ends hplain).mp ⟨q, hq, rfl⟩
    exact ⟨w, hw, q.rest, hsplit.symm⟩
  · rintro ⟨w, hw, rest, hsplit⟩
    obtain ⟨q, hq, -⟩ := (exists_mem_ends (F := F) (p := ⟨none, text⟩) hplain).mpr
      ⟨w, hw, hsplit.symm⟩
    exact ⟨q, List.mem_flatMap.mpr ⟨_, List.mem_singleton.mpr rfl, hq⟩⟩

theorem exists_mem_ends_chain_finish (hplain : ∀ r ∈ rs, r.isPlain = true) :
    (∃ q, q ∈ (chain (rs ++ [finish])).ends F p) ↔
      ∃ w ∈ (chain rs).language F, ∃ rest, p.rest = w ++ rest ∧ F.isFinish rest = true := by
  induction rs generalizing p with
  | nil =>
    constructor
    · rintro ⟨q, hq⟩
      obtain ⟨m, hm, -⟩ := List.mem_flatMap.mp hq
      rw [Pattern.ends] at hm
      split at hm
      case isTrue hend => exact ⟨[], rfl, p.rest, rfl, hend⟩
      case isFalse => cases hm
    · rintro ⟨w, hw, rest, hsplit, hend⟩
      obtain rfl : w = [] := hw
      rw [← List.nil_append rest, ← hsplit] at hend
      refine ⟨p, List.mem_flatMap.mpr ⟨p, ?_, List.mem_singleton_self p⟩⟩
      rw [Pattern.ends, if_pos hend]
      exact List.mem_singleton_self p
  | cons r rs ih =>
    obtain ⟨hr, hrs⟩ := List.forall_mem_cons.mp hplain
    constructor
    · rintro ⟨q, hq⟩
      obtain ⟨m, hm, hq⟩ := List.mem_flatMap.mp hq
      obtain ⟨u, hu, hleft⟩ := (exists_mem_ends hr).mp ⟨m, hm, rfl⟩
      obtain ⟨v, hv, rest, hright, hfinish⟩ := (ih hrs).mp ⟨q, hq⟩
      exact ⟨u ++ v, mem_language_seq.mpr ⟨u, hu, v, hv, rfl⟩, rest, by
        rw [hleft, hright, List.append_assoc], hfinish⟩
    · rintro ⟨w, hw, rest, hsplit, hfinish⟩
      obtain ⟨u, hu, v, hv, rfl⟩ := mem_language_seq.mp hw
      rw [List.append_assoc] at hsplit
      obtain ⟨m, hm, hmiddle⟩ := (exists_mem_ends hr).mpr ⟨u, hu, hsplit⟩
      obtain ⟨q, hq⟩ := (ih hrs).mpr ⟨v, hv, rest, hmiddle, hfinish⟩
      exact ⟨q, List.mem_flatMap.mpr ⟨m, hm, hq⟩⟩

/-- `^r$` asks whether the text is spelled, when `$` holds at its end only. -/
theorem matchesStart_start_finish (hplain : ∀ r ∈ rs, r.isPlain = true)
    (hfinish : ∀ rest, rest <:+ text → (F.isFinish rest = true ↔ rest = [])) :
    (chain (start :: (rs ++ [finish]))).matchesStart F text = true ↔
      text ∈ (chain rs).language F := by
  have hstart : (∃ q, q ∈ (chain (start :: (rs ++ [finish]))).ends F ⟨none, text⟩) ↔
      ∃ q, q ∈ (chain (rs ++ [finish])).ends F ⟨none, text⟩ := by
    constructor
    · rintro ⟨q, hq⟩
      obtain ⟨m, hm, hq⟩ := List.mem_flatMap.mp hq
      obtain rfl := List.mem_singleton.mp hm
      exact ⟨q, hq⟩
    · rintro ⟨q, hq⟩
      exact ⟨q, List.mem_flatMap.mpr ⟨_, List.mem_singleton.mpr rfl, hq⟩⟩
  rw [matchesStart_iff, hstart, exists_mem_ends_chain_finish hplain]
  constructor
  · rintro ⟨w, hw, rest, hsplit, hend⟩
    have hnil := (hfinish rest ⟨w, hsplit.symm⟩).mp hend
    rw [hnil, List.append_nil] at hsplit
    rwa [show text = w from hsplit]
  · intro hmem
    exact ⟨text, hmem, [], (List.append_nil text).symm,
      (hfinish [] (List.nil_suffix)).mpr rfl⟩

/-- A pattern that begins with `^` is found only at the start. -/
theorem search_start : (seq start r).search F text = (seq start r).matchesStart F text := by
  have hlater (a : α) (rest : List α) : (seq start r).ends F ⟨some a, rest⟩ = [] := rfl
  have hpositions (a : α) (text : List α) : (positions (some a) text).any
      (fun p => !((seq start r).ends F p).isEmpty) = false := by
    induction text generalizing a with
    | nil => rfl
    | cons b text ih =>
      rw [positions, List.any_cons, hlater, ih]
      rfl
  cases text with
  | nil => exact Bool.or_false _
  | cons a text =>
    rw [search, positions, List.cons_append, List.any_cons, List.any_append, hpositions,
      List.any_cons, List.getLast?_cons, hlater]
    exact Bool.or_false _

end Ends

end RelyLoop.Text
