import RelyLoop.Text.Resubstitution
import Mathlib.Data.List.Chain
import Mathlib.Data.List.DropRight

/-!
# Collapsing and trimming

Runs of a class of characters are collapsed to one of its characters, and the class is stripped
at both ends. Neither joins what the class separates, so no bounded word comes about.
-/

namespace RelyLoop.Text

variable {α : Type} {accepts : α → Bool} {c : α} {inRun : Bool} {text : List α}

/-! ## Collapsed texts -/

/-- Of the class only `c` occurs, and never twice in a row. -/
structure Collapsed (accepts : α → Bool) (c : α) (text : List α) : Prop where
  eq_of_accepts : ∀ a ∈ text, accepts a = true → a = c
  apart : text.IsChain fun a b => accepts a = false ∨ accepts b = false

theorem Collapsed.part {part : List α} (h : Collapsed accepts c text) (hpart : part <:+: text) :
    Collapsed accepts c part where
  eq_of_accepts a ha := h.eq_of_accepts a (hpart.subset ha)
  apart := h.apart.infix hpart

theorem Collapsed.tail {a : α} (h : Collapsed accepts c (a :: text)) :
    Collapsed accepts c text := h.part (List.infix_cons (List.infix_refl text))

/-- Behind a character of the class a run goes on with none. -/
theorem head?_collapseFrom_true (text : List α) :
    ∀ a ∈ (collapseFrom accepts c true text).head?, accepts a = false := by
  induction text with
  | nil => simp [collapseFrom]
  | cons b rest ih =>
    intro a ha
    rw [collapseFrom] at ha
    split at ha
    case isTrue => exact ih a (by simpa using ha)
    case isFalse hb =>
      obtain rfl : b = a := by simpa using ha
      simpa using hb

theorem collapsed_collapseFrom (inRun : Bool) (text : List α) :
    Collapsed accepts c (collapseFrom accepts c inRun text) := by
  constructor
  · intro a ha haccepts
    rcases mem_collapseFrom ha with rfl | hnot
    · rfl
    · rw [hnot] at haccepts
      cases haccepts
  · induction text generalizing inRun with
    | nil => exact .nil
    | cons b rest ih =>
      rw [collapseFrom]
      split
      case isTrue hb =>
        cases inRun with
        | true => exact ih true
        | false =>
          refine List.isChain_cons.mpr ⟨fun a ha => ?_, ih true⟩
          exact Or.inr (head?_collapseFrom_true rest a ha)
      case isFalse hb =>
        refine List.isChain_cons.mpr ⟨fun a _ => ?_, ih false⟩
        exact Or.inl (by simpa using hb)

/-- A collapsed text is not changed. -/
theorem collapseFrom_of_collapsed (h : Collapsed accepts c text)
    (hrun : inRun = true → ∀ a ∈ text.head?, accepts a = false) :
    collapseFrom accepts c inRun text = text := by
  induction text generalizing inRun with
  | nil => rfl
  | cons a rest ih =>
    have hnext := (List.isChain_cons.mp h.apart).1
    rw [collapseFrom]
    split
    case isTrue ha =>
      obtain rfl := h.eq_of_accepts a List.mem_cons_self ha
      cases inRun with
      | true =>
        have hnot := hrun rfl a rfl
        rw [ha] at hnot
        cases hnot
      | false =>
        rw [ih h.tail fun _ b hb => (hnext b hb).resolve_left (by simp [ha])]
        rfl
    case isFalse => rw [ih h.tail (fun hfalse => by cases hfalse)]

/-! ## Trimmed texts -/

/-- Neither end is of the class. -/
structure Trimmed (accepts : α → Bool) (text : List α) : Prop where
  head : ∀ a ∈ text.head?, accepts a = false
  last : ∀ a ∈ text.getLast?, accepts a = false

/-- The text without the class at both ends. -/
def trim (accepts : α → Bool) (text : List α) : List α :=
  (text.dropWhile accepts).rdropWhile accepts

theorem trim_isInfix (accepts : α → Bool) (text : List α) : trim accepts text <:+: text :=
  (List.rdropWhile_prefix accepts _).isInfix.trans (List.dropWhile_suffix accepts).isInfix

theorem head?_dropWhile (accepts : α → Bool) (text : List α) :
    ∀ a ∈ (text.dropWhile accepts).head?, accepts a = false := by
  intro a ha
  have hstop := List.head?_dropWhile_not accepts text
  rw [Option.mem_def.mp ha] at hstop
  simpa using hstop

theorem trimmed_trim (accepts : α → Bool) (text : List α) : Trimmed accepts (trim accepts text) := by
  constructor
  · intro a ha
    obtain ⟨behind, hbegins⟩ := List.rdropWhile_prefix accepts (text.dropWhile accepts)
    apply head?_dropWhile accepts text a
    rw [Option.mem_def, ← hbegins]
    unfold trim at ha
    cases hkept : (text.dropWhile accepts).rdropWhile accepts with
    | nil =>
      rw [hkept] at ha
      cases ha
    | cons b kept =>
      rw [hkept] at ha
      exact ha
  · intro a ha
    by_cases hkept : trim accepts text = []
    · rw [hkept] at ha
      cases ha
    · rw [List.getLast?_eq_some_getLast hkept] at ha
      have hlast := List.rdropWhile_last_not accepts _ hkept
      obtain rfl := Option.some.inj ha
      exact Bool.eq_false_iff.mpr hlast

theorem trim_of_trimmed (h : Trimmed accepts text) : trim accepts text = text := by
  have hhead : text.dropWhile accepts = text := by
    cases text with
    | nil => rfl
    | cons a rest => exact List.dropWhile_cons_of_neg (by simp [h.head a rfl])
  rw [trim, hhead, List.rdropWhile_eq_self_iff]
  intro hne
  simp [h.last _ (List.getLast?_eq_some_getLast hne)]

/-! ## Bounded words -/

/-- A piece at the start of a collapsed text that has none of the class was there before. -/
theorem exists_of_collapseFrom_prefix (hc : accepts c = true) {w v : List α}
    (hw : ∀ a ∈ w, accepts a = false) (h : collapseFrom accepts c false text = w ++ v) :
    ∃ v', text = w ++ v' ∧
      ∀ isWord : α → Bool, (∀ a, accepts a = true → isWord a = false) →
        v'.head?.any isWord = v.head?.any isWord := by
  induction w generalizing text with
  | nil =>
    refine ⟨text, rfl, fun isWord hapart => ?_⟩
    rw [← List.nil_append v, ← h]
    cases text with
    | nil => rfl
    | cons a rest =>
      rw [collapseFrom]
      split
      case isTrue ha => simp [hapart a ha, hapart c hc]
      case isFalse => rfl
  | cons b w ih =>
    obtain ⟨hb, hrest⟩ := List.forall_mem_cons.mp hw
    cases text with
    | nil => cases h
    | cons a rest =>
      rw [collapseFrom] at h
      split at h
      case isTrue ha =>
        obtain ⟨rfl, -⟩ := List.cons.inj h
        rw [hc] at hb
        cases hb
      case isFalse =>
        obtain ⟨rfl, hw'⟩ := List.cons.inj h
        obtain ⟨v', rfl, hv'⟩ := ih hrest hw'
        exact ⟨v', rfl, hv'⟩

theorem any_or_congr {isWord : α → Bool} {last before before' : Option α}
    (h : before.any isWord = before'.any isWord) :
    (last.or before).any isWord = (last.or before').any isWord := by
  cases last with
  | none => rwa [Option.none_or, Option.none_or]
  | some a => rfl

/-- A piece of a collapsed text that has none of the class was there before, between characters
of the same kinds. -/
theorem exists_of_collapseFrom {isWord : α → Bool} (hc : accepts c = true)
    (hapart : ∀ a, accepts a = true → isWord a = false) {u w v : List α} (hne : w ≠ [])
    (hw : ∀ a ∈ w, accepts a = false) (before : Option α)
    (hrun : inRun = true → before.any isWord = false)
    (h : collapseFrom accepts c inRun text = u ++ (w ++ v)) :
    ∃ u' v', text = u' ++ (w ++ v') ∧
      (u'.getLast?.or before).any isWord = (u.getLast?.or before).any isWord ∧
        v'.head?.any isWord = v.head?.any isWord := by
  induction text generalizing inRun u before with
  | nil =>
    have hempty : u ++ (w ++ v) = [] := h.symm
    simp only [List.append_eq_nil_iff] at hempty
    exact absurd hempty.2.1 hne
  | cons a rest ih =>
    rw [collapseFrom] at h
    split at h
    case isTrue ha =>
      have hspace : (some a).any isWord = false := hapart a ha
      cases inRun with
      | true =>
        obtain ⟨u', v', rfl, hu, hv⟩ := ih (some a) (fun _ => hspace) h
        refine ⟨a :: u', v', rfl, ?_, hv⟩
        rw [getLast?_cons_or, hu]
        exact any_or_congr (hspace.trans (hrun rfl).symm)
      | false =>
        cases u with
        | nil =>
          cases w with
          | nil => exact absurd rfl hne
          | cons b w =>
            obtain ⟨rfl, -⟩ := List.cons.inj h
            have hb := hw c List.mem_cons_self
            rw [hc] at hb
            cases hb
        | cons b u =>
          obtain ⟨rfl, hrest⟩ := List.cons.inj h
          obtain ⟨u', v', rfl, hu, hv⟩ := ih (some a) (fun _ => hspace) hrest
          refine ⟨a :: u', v', rfl, ?_, hv⟩
          rw [getLast?_cons_or, getLast?_cons_or, hu]
          exact any_or_congr (hspace.trans (hapart c hc).symm)
    case isFalse =>
      cases u with
      | nil =>
        cases w with
        | nil => exact absurd rfl hne
        | cons b w =>
          obtain ⟨rfl, hrest⟩ := List.cons.inj h
          obtain ⟨v', rfl, hv⟩ :=
            exists_of_collapseFrom_prefix hc (List.forall_mem_cons.mp hw).2 hrest
          exact ⟨[], v', rfl, rfl, hv isWord hapart⟩
      | cons b u =>
        obtain ⟨rfl, hrest⟩ := List.cons.inj h
        obtain ⟨u', v', rfl, hu, hv⟩ := ih (some a) (fun hfalse => by cases hfalse) hrest
        refine ⟨a :: u', v', rfl, ?_, hv⟩
        rw [getLast?_cons_or, getLast?_cons_or, hu]

section Bounded

variable {isWord isSpace : Char → Bool} {words : List (List Char)} {text : List Char}

/-- Words without characters of the class stay unbounded when runs are collapsed. -/
theorem NoneBounded.collapse {space : Char} (h : NoneBounded isWord words none text)
    (hspace : isSpace space = true) (hapart : ∀ a, isSpace a = true → isWord a = false)
    (hwords : ∀ w ∈ words, w ≠ [] ∧ ∀ a ∈ w, isSpace a = false) :
    NoneBounded isWord words none (collapseFrom isSpace space false text) := by
  intro w hw u v hsplit
  obtain ⟨u', v', htext, hu, hv⟩ := exists_of_collapseFrom hspace hapart
    (hwords w hw).1 (hwords w hw).2 none (fun hfalse => by cases hfalse) hsplit
  have hbeside := h w hw u' v' htext
  rwa [hu, hv] at hbeside

/-- Words without characters of the class stay unbounded when the ends are trimmed. -/
theorem NoneBounded.trim (h : NoneBounded isWord words none text)
    (hapart : ∀ a, isSpace a = true → isWord a = false) :
    NoneBounded isWord words none (trim isSpace text) := by
  intro w hw u v hsplit
  have hfront : text.takeWhile isSpace ++ text.dropWhile isSpace = text :=
    List.takeWhile_append_dropWhile
  have hback : (text.dropWhile isSpace).rdropWhile isSpace ++
      (text.dropWhile isSpace).rtakeWhile isSpace = text.dropWhile isSpace :=
    List.rdropWhile_append_rtakeWhile
  rw [RelyLoop.Text.trim] at hsplit
  rw [hsplit] at hback
  have hbeside := h w hw (text.takeWhile isSpace ++ u)
    (v ++ (text.dropWhile isSpace).rtakeWhile isSpace)
    (by rw [List.append_assoc, ← List.append_assoc w, ← List.append_assoc u, hback, hfront])
  have hfrontSpace : (text.takeWhile isSpace).getLast?.any isWord = false := by
    rw [Option.any_eq_false]
    intro a ha
    exact hapart a (List.mem_takeWhile_imp (List.mem_of_getLast? ha))
  have hbackSpace : ((text.dropWhile isSpace).rtakeWhile isSpace).head?.any isWord = false := by
    rw [Option.any_eq_false]
    intro a ha
    exact hapart a (List.mem_rtakeWhile_imp (List.mem_of_head? ha))
  rw [List.getLast?_append, Option.or_none, List.head?_append] at hbeside
  rw [Option.or_none]
  apply hbeside.imp
  · intro hleft
    rwa [any_or_congr (hfrontSpace.trans Option.any_none.symm), Option.or_none] at hleft
  · intro hright
    rwa [any_or_congr (hbackSpace.trans Option.any_none.symm), Option.or_none] at hright

end Bounded

end RelyLoop.Text
