import Mathlib.Data.List.Sort
import Mathlib.Data.List.TakeWhile

/-!
# The first members by a key

Sorting by a key leaves members of equal keys in the order of the list. The first members do not
depend on that order if and only if enough members stand before every tie.
-/

namespace RelyLoop.Ranking

variable {α β : Type*} [LinearOrder β] {key : α → β} {xs ys : List α} {a b : α} {k : ℕ}

/-- The list sorted by a key. -/
def sortedBy (key : α → β) (xs : List α) : List α :=
  xs.insertionSort fun a b => key a ≤ key b

/-- How many members have a smaller key. -/
def numberBelow (key : α → β) (xs : List α) (bound : β) : ℕ :=
  xs.countP fun a => key a < bound

/-- At least `k` members stand before every tie. -/
def TiesBeyond (key : α → β) (k : ℕ) (xs : List α) : Prop :=
  ∀ a ∈ xs, ∀ b ∈ xs, a ≠ b → key a = key b → k ≤ numberBelow key xs (key a)

theorem sortedBy_perm (key : α → β) (xs : List α) : (sortedBy key xs).Perm xs :=
  List.perm_insertionSort _ xs

theorem pairwise_sortedBy (key : α → β) (xs : List α) :
    (sortedBy key xs).Pairwise fun a b => key a ≤ key b := by
  have : Std.Total fun a b => key a ≤ key b := ⟨fun a b => le_total (key a) (key b)⟩
  have : IsTrans α fun a b => key a ≤ key b := ⟨fun _ _ _ => le_trans⟩
  exact List.pairwise_insertionSort _ xs

theorem numberBelow_perm (h : xs.Perm ys) (bound : β) :
    numberBelow key xs bound = numberBelow key ys bound :=
  h.countP_eq _

/-- In a sorted list the members of smaller keys come first. -/
theorem length_takeWhile_lt (h : xs.Pairwise fun a b => key a ≤ key b) (bound : β) :
    (xs.takeWhile fun a => key a < bound).length = numberBelow key xs bound := by
  induction xs with
  | nil => rfl
  | cons a xs ih =>
    obtain ⟨hfirst, hrest⟩ := List.pairwise_cons.mp h
    by_cases ha : key a < bound
    · rw [List.takeWhile_cons_of_pos (by simpa using ha), List.length_cons, ih hrest]
      simp [numberBelow, ha]
    · rw [List.takeWhile_cons_of_neg (by simpa using ha), numberBelow, List.length_nil]
      symm
      rw [List.countP_eq_zero]
      intro b hb
      simp only [decide_eq_true_eq, not_lt]
      push Not at ha
      rcases List.mem_cons.mp hb with rfl | hb
      · exact ha
      · exact le_trans ha (hfirst b hb)

/-- The head of a list comes right after the members of smaller keys. -/
theorem getElem?_sortedBy_cons (key : α → β) (a : α) (xs : List α) :
    (sortedBy key (a :: xs))[numberBelow key xs (key a)]? = some a := by
  have hbefore : ((sortedBy key xs).takeWhile fun b => ¬key a ≤ key b).length =
      numberBelow key xs (key a) := by
    have hlength := length_takeWhile_lt (pairwise_sortedBy key xs) (key a)
    rw [numberBelow_perm (sortedBy_perm key xs)] at hlength
    simpa only [not_le] using hlength
  rw [sortedBy, List.insertionSort_cons_eq_take_drop, ← hbefore]
  rw [List.getElem?_append_right (by exact le_refl _)]
  simp [sortedBy]

/-- A member has at least as many members before it as have smaller keys. -/
theorem numberBelow_le_of_getElem? {i : ℕ} (ha : (sortedBy key xs)[i]? = some a) :
    numberBelow key xs (key a) ≤ i := by
  rw [← numberBelow_perm (sortedBy_perm key xs), ← length_takeWhile_lt (pairwise_sortedBy key xs)]
  by_contra hlt
  push Not at hlt
  obtain ⟨hi, rfl⟩ := List.getElem?_eq_some_iff.mp ha
  have hmem := List.getElem_mem hlt
  rw [(List.takeWhile_prefix _).getElem] at hmem
  have hbelow := List.mem_takeWhile_imp hmem
  simp at hbelow

/-- Two orders of one list are sorted into the same keys. -/
theorem map_sortedBy_perm (key : α → β) (h : xs.Perm ys) :
    (sortedBy key xs).map key = (sortedBy key ys).map key := by
  have hantisymm (x y : β) (_ : x ∈ (sortedBy key xs).map key) (_ : y ∈ (sortedBy key ys).map key)
      (hxy : x ≤ y) (hyx : y ≤ x) : x = y := le_antisymm hxy hyx
  apply List.Perm.eq_of_pairwise hantisymm
  · exact List.pairwise_map.mpr (pairwise_sortedBy key xs)
  · exact List.pairwise_map.mpr (pairwise_sortedBy key ys)
  · exact ((sortedBy_perm key xs).trans (h.trans (sortedBy_perm key ys).symm)).map key

/-- Before every tie, members are in their places. -/
theorem take_sortedBy_eq (hties : TiesBeyond key k xs) (h : ys.Perm xs) :
    (sortedBy key ys).take k = (sortedBy key xs).take k := by
  apply List.ext_getElem?
  intro i
  rw [List.getElem?_take, List.getElem?_take]
  by_cases hi : i < k
  · rw [if_pos hi, if_pos hi]
    have hkeys := congrArg (fun keys : List β => keys[i]?) (map_sortedBy_perm key h)
    simp only [List.getElem?_map] at hkeys
    cases hx : (sortedBy key ys)[i]? with
    | none =>
      cases hy : (sortedBy key xs)[i]? with
      | none => rfl
      | some b =>
        rw [hx, hy] at hkeys
        cases hkeys
    | some a =>
      cases hy : (sortedBy key xs)[i]? with
      | none =>
        rw [hx, hy] at hkeys
        cases hkeys
      | some b =>
        rw [hx, hy] at hkeys
        have hkey : key b = key a := (Option.some.inj hkeys).symm
        by_contra hne
        have ha : a ∈ xs := h.mem_iff.mp ((sortedBy_perm key ys).mem_iff.mp
          (List.mem_of_getElem? hx))
        have hb : b ∈ xs := (sortedBy_perm key xs).mem_iff.mp (List.mem_of_getElem? hy)
        have hbeyond := hties b hb a ha (fun heq => hne (by rw [heq])) hkey
        have hbefore := numberBelow_le_of_getElem? hy
        omega
  · rw [if_neg hi, if_neg hi]

/-- With a tie among the first members, it matters which of its members comes first. -/
theorem take_sortedBy_ne {zs : List α} (hys : (a :: ys).Perm xs) (hzs : (b :: zs).Perm xs)
    (hne : a ≠ b) (hkey : key a = key b) (hk : numberBelow key xs (key a) < k) :
    (sortedBy key (a :: ys)).take k ≠ (sortedBy key (b :: zs)).take k := by
  intro heq
  have hbelow {c : α} {us : List α} (hus : (c :: us).Perm xs) :
      numberBelow key us (key c) = numberBelow key xs (key c) := by
    rw [← numberBelow_perm hus]
    simp [numberBelow]
  have hget := congrArg (fun first : List α => first[numberBelow key xs (key a)]?) heq
  have hfirst := getElem?_sortedBy_cons key a ys
  have hsecond := getElem?_sortedBy_cons key b zs
  rw [hbelow hys] at hfirst
  rw [hbelow hzs, ← hkey] at hsecond
  simp only [List.getElem?_take, if_pos hk, hfirst, hsecond] at hget
  exact hne (Option.some.inj hget)

end RelyLoop.Ranking
