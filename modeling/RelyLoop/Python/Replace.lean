import Mathlib.Data.List.Infix

/-!
# `str.replace`

Every occurrence of a part is replaced, from left to right. A replacement that is apart from the
part leaves no occurrence, and a character that is not in the part splits the work.
-/

namespace RelyLoop.Python

variable {α : Type} [DecidableEq α]

/-- `text.replace(part, new)`, where some characters still belong to the occurrence before. -/
def replaceFrom (part new : List α) : ℕ → List α → List α
  | _, [] => []
  | skip + 1, _ :: rest => replaceFrom part new skip rest
  | 0, c :: rest =>
    if part.isPrefixOf (c :: rest) then new ++ replaceFrom part new (part.length - 1) rest
    else c :: replaceFrom part new 0 rest

/-- `text.replace(part, new)`. -/
def replaceAll (part new text : List α) : List α := replaceFrom part new 0 text

/-- How often a part occurs, overlaps included. -/
def occurrences (part : List α) : List α → ℕ
  | [] => 0
  | c :: rest => (if part.isPrefixOf (c :: rest) then 1 else 0) + occurrences part rest

variable {part new text rest w : List α} {c first : α}

theorem replaceFrom_length (u v : List α) :
    replaceFrom part new u.length (u ++ v) = replaceAll part new v := by
  induction u with
  | nil => rfl
  | cons c u ih =>
    rw [List.length_cons, List.cons_append, replaceFrom]
    exact ih

@[simp] theorem replaceAll_nil (part new : List α) : replaceAll part new [] = [] := by
  rw [replaceAll, replaceFrom]

/-- An occurrence is replaced. -/
theorem replaceAll_append (hpart : part ≠ []) (new rest : List α) :
    replaceAll part new (part ++ rest) = new ++ replaceAll part new rest := by
  obtain ⟨c, part, rfl⟩ := List.exists_cons_of_ne_nil hpart
  have hbegin : (c :: part).isPrefixOf (c :: (part ++ rest)) = true :=
    List.isPrefixOf_iff_prefix.mpr (List.prefix_append (c :: part) rest)
  rw [replaceAll, List.cons_append, replaceFrom, if_pos hbegin, List.length_cons,
    Nat.add_sub_cancel, replaceFrom_length]

/-- A character with no occurrence is copied. -/
theorem replaceAll_cons (h : ¬part <+: c :: rest) :
    replaceAll part new (c :: rest) = c :: replaceAll part new rest := by
  rw [replaceAll, replaceFrom, if_neg (by rwa [List.isPrefixOf_iff_prefix])]
  rfl

/-- A text is empty, begins with the part, or begins with a character that is copied. -/
theorem replace_cases (part text : List α) : text = [] ∨ (∃ rest, text = part ++ rest) ∨
    ∃ c rest, text = c :: rest ∧ ¬part <+: c :: rest := by
  cases text with
  | nil => exact Or.inl rfl
  | cons c rest =>
    by_cases hbegin : part <+: c :: rest
    · obtain ⟨after, hafter⟩ := hbegin
      exact Or.inr (Or.inl ⟨after, hafter.symm⟩)
    · exact Or.inr (Or.inr ⟨c, rest, rfl, hbegin⟩)

/-- Nothing happens before the first character of the part. -/
theorem replaceAll_append_of_not_mem (hfirst : part.head? = some first) (hw : first ∉ w)
    (new rest : List α) : replaceAll part new (w ++ rest) = w ++ replaceAll part new rest := by
  induction w with
  | nil => rfl
  | cons c w ih =>
    rw [List.mem_cons, not_or] at hw
    obtain ⟨hc, hw⟩ := hw
    have hnot : ¬part <+: c :: (w ++ rest) := by
      intro hbegin
      obtain ⟨part, rfl⟩ := List.head?_eq_some_iff.mp hfirst
      exact hc (List.cons_prefix_cons.mp hbegin).1
    rw [List.cons_append, replaceAll_cons hnot, ih hw, List.cons_append]

theorem replaceAll_of_not_mem (hfirst : part.head? = some first) (hw : first ∉ w)
    (new : List α) : replaceAll part new w = w := by
  have h := replaceAll_append_of_not_mem hfirst hw new []
  rwa [replaceAll_nil, List.append_nil] at h

omit [DecidableEq α] in
/-- A part ends before a character that it does not have. -/
theorem prefix_of_not_mem (hc : c ∉ w) {u : List α} (h : w <+: u ++ c :: rest) : w <+: u := by
  obtain ⟨after, hafter⟩ := h
  rcases List.append_eq_append_iff.mp hafter with ⟨between, rfl, -⟩ | ⟨between, rfl, hbetween⟩
  · exact List.prefix_append w between
  · cases between with
    | nil => exact ⟨[], by rw [List.append_nil, List.append_nil]⟩
    | cons d between =>
      obtain ⟨rfl, -⟩ := List.cons.inj hbetween
      exact absurd (List.mem_append_right u List.mem_cons_self) hc

/-- What stands before a character that the part does not have is replaced on its own. -/
theorem replaceAll_append_cons (hpart : part ≠ []) (hc : c ∉ part) (new u rest : List α) :
    replaceAll part new (u ++ c :: rest) =
      replaceAll part new u ++ c :: replaceAll part new rest := by
  induction hn : u.length using Nat.strong_induction_on generalizing u with
  | _ n ih =>
    subst hn
    rcases replace_cases part u with rfl | ⟨v, rfl⟩ | ⟨d, v, rfl, hnot⟩
    · have hbegin : ¬part <+: c :: rest := fun h =>
        hpart (List.prefix_nil.mp (prefix_of_not_mem (u := []) hc h))
      rw [List.nil_append, replaceAll_cons hbegin, replaceAll_nil, List.nil_append]
    · have hlength : v.length < (part ++ v).length := by
        have := List.length_pos_of_ne_nil hpart
        rw [List.length_append]
        omega
      rw [List.append_assoc, replaceAll_append hpart, replaceAll_append hpart,
        ih _ hlength v rfl, List.append_assoc]
    · have hbegin : ¬part <+: d :: (v ++ c :: rest) := fun h =>
        hnot (prefix_of_not_mem (u := d :: v) hc h)
      rw [List.cons_append, replaceAll_cons hbegin, replaceAll_cons hnot,
        ih _ (by simp) v rfl, List.cons_append]

/-! ## Occurrences -/

theorem occurrences_append_cons (hc : c ∉ part) (u rest : List α) :
    occurrences part (u ++ c :: rest) = occurrences part u + occurrences part (c :: rest) := by
  induction u with
  | nil => rw [List.nil_append, occurrences, Nat.zero_add]
  | cons d u ih =>
    have hsame : part.isPrefixOf (d :: (u ++ c :: rest)) = part.isPrefixOf (d :: u) := by
      rw [Bool.eq_iff_iff, List.isPrefixOf_iff_prefix, List.isPrefixOf_iff_prefix]
      constructor
      · exact prefix_of_not_mem (u := d :: u) hc
      · exact fun h => h.trans (List.prefix_append (d :: u) _)
    rw [List.cons_append, occurrences, hsame, ih, ← Nat.add_assoc]
    rfl

theorem occurrences_eq_zero_iff (hpart : part ≠ []) :
    occurrences part text = 0 ↔ ∀ u v, text = u ++ v → ¬part <+: v := by
  induction text with
  | nil =>
    refine iff_of_true rfl fun u v heq hbegin => ?_
    obtain ⟨-, rfl⟩ := List.append_eq_nil_iff.mp heq.symm
    exact hpart (List.prefix_nil.mp hbegin)
  | cons c text ih =>
    rw [occurrences, Nat.add_eq_zero_iff, ih]
    constructor
    · rintro ⟨hhead, htail⟩ u v heq hbegin
      cases u with
      | nil =>
        obtain rfl : c :: text = v := heq
        rw [if_pos (List.isPrefixOf_iff_prefix.mpr hbegin)] at hhead
        cases hhead
      | cons d u => exact htail u v (List.cons.inj heq).2 hbegin
    · intro h
      constructor
      · rw [if_neg]
        rw [List.isPrefixOf_iff_prefix]
        exact h [] (c :: text) rfl
      · exact fun u v heq => h (c :: u) v (by rw [heq, List.cons_append])

/-- Without an occurrence nothing is replaced. -/
theorem replaceAll_of_absent (h : ¬part <:+: text) (new : List α) :
    replaceAll part new text = text := by
  induction text with
  | nil => exact replaceAll_nil part new
  | cons c text ih =>
    have hbegin : ¬part <+: c :: text := fun hbegins => h hbegins.isInfix
    rw [replaceAll_cons hbegin, ih fun hoccur => h (hoccur.trans (List.suffix_cons c text).isInfix)]

/-- The first occurrence is replaced, and nothing before it. -/
theorem replaceAll_of_infix (hpart : part ≠ []) (h : part <:+: text) (new : List α) :
    ∃ before after, text = before ++ (part ++ after) ∧
      replaceAll part new text = before ++ (new ++ replaceAll part new after) := by
  induction text with
  | nil => exact absurd (List.infix_nil.mp h) hpart
  | cons c text ih =>
    by_cases hbegin : part <+: c :: text
    · obtain ⟨after, hafter⟩ := hbegin
      refine ⟨[], after, hafter.symm, ?_⟩
      rw [← hafter, replaceAll_append hpart, List.nil_append]
    · have hrest : part <:+: text := (List.infix_cons_iff.mp h).resolve_left hbegin
      obtain ⟨before, after, htext, hreplace⟩ := ih hrest
      refine ⟨c :: before, after, congrArg (c :: ·) htext, ?_⟩
      rw [replaceAll_cons hbegin, hreplace, List.cons_append]

/-- Neither text begins the other. -/
def Diverge (u v : List α) : Prop := ¬u <+: v ∧ ¬v <+: u

instance (u v : List α) : Decidable (Diverge u v) := inferInstanceAs (Decidable (_ ∧ _))

/-- No end of the part begins like the replacement, and no end of the replacement begins like the
part. -/
structure Apart (part new : List α) : Prop where
  ends : ∀ w ∈ part.tails, w ≠ [] → Diverge w new
  inside : ∀ w ∈ new.tails, w ≠ [] → Diverge part w

omit [DecidableEq α] in
theorem Diverge.not_begins {u v : List α} (h : Diverge u v) (after : List α) :
    ¬u <+: v ++ after := by
  intro hbegin
  rcases List.prefix_or_prefix_of_prefix hbegin (List.prefix_append v after) with huv | hvu
  · exact h.1 huv
  · exact h.2 hvu

/-- An end of the part that begins the result begins the text. -/
theorem prefix_of_replaceAll (hapart : Apart part new) (hpart : part ≠ []) (hw : w <:+ part)
    (h : w <+: replaceAll part new text) : w <+: text := by
  induction hn : text.length using Nat.strong_induction_on generalizing text w with
  | _ n ih =>
    subst hn
    rcases replace_cases part text with rfl | ⟨rest, rfl⟩ | ⟨c, rest, rfl, hnot⟩
    · rwa [replaceAll_nil] at h
    · rw [replaceAll_append hpart] at h
      by_cases hne : w = []
      · rw [hne]
        exact List.nil_prefix
      · exact absurd h ((hapart.ends w ((List.mem_tails _ _).mpr hw) hne).not_begins _)
    · rw [replaceAll_cons hnot] at h
      cases w with
      | nil => exact List.nil_prefix
      | cons d w =>
        obtain ⟨rfl, hbegin⟩ := List.cons_prefix_cons.mp h
        have hsuffix : w <:+ part := (List.suffix_cons d w).trans hw
        exact List.cons_prefix_cons.mpr ⟨rfl, ih rest.length (by simp) hsuffix hbegin rfl⟩

/-- The part does not occur in the result. -/
theorem occurrences_replaceAll (hapart : Apart part new) (hpart : part ≠ []) (text : List α) :
    occurrences part (replaceAll part new text) = 0 := by
  induction hn : text.length using Nat.strong_induction_on generalizing text with
  | _ n ih =>
    subst hn
    rw [occurrences_eq_zero_iff hpart]
    intro u v heq hbegin
    rcases replace_cases part text with rfl | ⟨rest, rfl⟩ | ⟨c, rest, rfl, hnot⟩
    · rw [replaceAll_nil] at heq
      obtain ⟨-, rfl⟩ := List.append_eq_nil_iff.mp heq.symm
      exact hpart (List.prefix_nil.mp hbegin)
    · have hrest := (occurrences_eq_zero_iff hpart).mp (ih rest.length (by
        have := List.length_pos_of_ne_nil hpart
        rw [List.length_append]
        omega) rest rfl)
      rw [replaceAll_append hpart] at heq
      rcases List.append_eq_append_iff.mp heq with ⟨between, -, hv⟩ | ⟨between, hnew, rfl⟩
      · exact hrest between v hv hbegin
      · by_cases hne : between = []
        · subst hne
          exact hrest [] _ rfl hbegin
        · have hmem : between ∈ new.tails := (List.mem_tails _ _).mpr ⟨u, hnew.symm⟩
          exact (hapart.inside between hmem hne).not_begins _ hbegin
    · have hrest := (occurrences_eq_zero_iff hpart).mp (ih rest.length (by simp) rest rfl)
      have hcopy : replaceAll part new (c :: rest) = c :: replaceAll part new rest :=
        replaceAll_cons hnot
      rw [hcopy] at heq
      cases u with
      | nil =>
        obtain rfl : c :: replaceAll part new rest = v := heq
        rw [← hcopy] at hbegin
        exact hnot (prefix_of_replaceAll hapart hpart List.suffix_rfl hbegin)
      | cons d u => exact hrest u v (List.cons.inj heq).2 hbegin

end RelyLoop.Python
