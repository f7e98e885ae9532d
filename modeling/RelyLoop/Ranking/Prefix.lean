import Mathlib.Data.List.Nodup
import Mathlib.Data.List.Sort

/-!
# The first members of a sorted list

When the first members of a list are still the first ones after it has been cut off and sorted
again, in their places or in any order.
-/

namespace RelyLoop.Ranking

variable {α : Type*} {r : α → α → Prop} {xs : List α} {depth k : ℕ}

/-- Every member of the first `k` belongs before every later one. -/
def SplitsAt (r : α → α → Prop) (k : ℕ) (xs : List α) : Prop :=
  ∀ a ∈ xs.take k, ∀ b ∈ xs.drop k, r a b

/-- The first `k` members are the same when only `depth` members are kept. -/
def Reaches (depth k : ℕ) (xs : List α) : Prop := k ≤ depth ∨ xs.length ≤ depth

theorem Reaches.take_take (h : Reaches depth k xs) : (xs.take depth).take k = xs.take k := by
  rcases h with hk | hlength
  · rw [List.take_take, Nat.min_eq_left hk]
  · rw [List.take_of_length_le hlength]

/-- Beyond the depth there is a member among the first `k`. -/
theorem exists_beyond (h : ¬Reaches depth k xs) (hnodup : xs.Nodup) :
    ∃ a ∈ xs.take k, a ∉ xs.take depth := by
  obtain ⟨hk, hlength⟩ := not_or.mp h
  push Not at hk hlength
  refine ⟨xs[depth], ?_, fun hmem => ?_⟩
  · exact List.mem_take_iff_getElem.mpr ⟨depth, by omega, rfl⟩
  · obtain ⟨i, hi, heq⟩ := List.mem_take_iff_getElem.mp hmem
    have := (hnodup.getElem_inj_iff).mp heq
    omega

/-! ## Distinct images -/

section Images

variable {β : Type*} {f : α → β} {ys zs : List α}

theorem map_eq_map_iff_of_nodup (h : (zs.map f).Nodup) (hxs : xs ⊆ zs) (hys : ys ⊆ zs) :
    xs.map f = ys.map f ↔ xs = ys := by
  refine ⟨fun hmap => ?_, fun heq => heq ▸ rfl⟩
  have hlength : xs.length = ys.length := by simpa using congrArg List.length hmap
  refine List.ext_getElem hlength fun i hi hi' => ?_
  apply List.inj_on_of_nodup_map h (hxs (List.getElem_mem hi)) (hys (List.getElem_mem hi'))
  have hget := congrArg (fun l : List β => l[i]?) hmap
  simpa [hi, hi'] using hget

theorem mem_map_iff_of_nodup (h : (zs.map f).Nodup) (hxs : xs ⊆ zs) (hys : ys ⊆ zs) :
    (∀ b, b ∈ xs.map f ↔ b ∈ ys.map f) ↔ ∀ a, a ∈ xs ↔ a ∈ ys := by
  have hback : ∀ {us : List α}, us ⊆ zs → ∀ {a}, a ∈ zs → (f a ∈ us.map f ↔ a ∈ us) := by
    intro us hus a ha
    refine ⟨fun hmem => ?_, fun hmem => List.mem_map_of_mem hmem⟩
    obtain ⟨a', ha', heq⟩ := List.mem_map.mp hmem
    exact List.inj_on_of_nodup_map h (hus ha') ha heq ▸ ha'
  constructor
  · intro hmap a
    by_cases ha : a ∈ zs
    · rw [← hback hxs ha, ← hback hys ha, hmap]
    · exact iff_of_false (fun hin => ha (hxs hin)) fun hin => ha (hys hin)
  · intro hsame b
    simp only [List.mem_map, hsame]

end Images

section Sorted

variable [DecidableRel r] [Std.Total r] [IsTrans α r] [Std.Antisymm r]

/-- A list that is split can be sorted in two parts. -/
theorem insertionSort_of_splitsAt (h : SplitsAt r k xs) :
    xs.insertionSort r = (xs.take k).insertionSort r ++ (xs.drop k).insertionSort r := by
  apply List.Perm.eq_of_pairwise' (r := r)
  · exact List.pairwise_insertionSort r xs
  · refine List.pairwise_append.mpr ⟨List.pairwise_insertionSort r _,
      List.pairwise_insertionSort r _, fun a ha b hb => ?_⟩
    exact h a ((List.mem_insertionSort r).mp ha) b ((List.mem_insertionSort r).mp hb)
  · have hparts := (List.perm_insertionSort r (xs.take k)).append
      (List.perm_insertionSort r (xs.drop k))
    rw [List.take_append_drop] at hparts
    exact (List.perm_insertionSort r xs).trans hparts.symm

/-- The first members of a split list are sorted on their own. -/
theorem take_insertionSort_of_splitsAt (h : SplitsAt r k xs) :
    (xs.insertionSort r).take k = (xs.take k).insertionSort r := by
  rw [insertionSort_of_splitsAt h]
  rcases le_total k xs.length with hle | hle
  · apply List.take_left'
    rw [List.length_insertionSort, List.length_take, Nat.min_eq_left hle]
  · rw [List.drop_of_length_le hle, List.insertionSort_nil, List.append_nil]
    apply List.take_of_length_le
    rw [List.length_insertionSort, List.length_take]
    exact Nat.min_le_left k xs.length

omit [Std.Antisymm r] in
/-- What follows in a sorted list belongs behind. -/
theorem splitsAt_insertionSort (k : ℕ) : SplitsAt r k (xs.insertionSort r) := by
  have hsorted := List.pairwise_insertionSort r xs
  rw [← List.take_append_drop k (xs.insertionSort r)] at hsorted
  exact (List.pairwise_append.mp hsorted).2.2

/-- The first members stay the first ones when they belong before the others. -/
theorem mem_take_insertionSort_iff (hnodup : xs.Nodup) :
    (∀ a, a ∈ (xs.insertionSort r).take k ↔ a ∈ xs.take k) ↔ SplitsAt r k xs := by
  constructor
  · intro hsame a ha b hb
    have hlater : b ∈ (xs.insertionSort r).drop k := by
      have hmem : b ∈ (xs.insertionSort r).take k ++ (xs.insertionSort r).drop k := by
        rw [List.take_append_drop, List.mem_insertionSort]
        exact List.mem_of_mem_drop hb
      refine (List.mem_append.mp hmem).resolve_left fun hfirst => ?_
      rw [← List.take_append_drop k xs] at hnodup
      exact (List.nodup_append.mp hnodup).2.2 b ((hsame b).mp hfirst) b hb rfl
    exact splitsAt_insertionSort k a ((hsame a).mpr ha) b hlater
  · intro hsplits a
    rw [take_insertionSort_of_splitsAt hsplits, List.mem_insertionSort]

/-- The first members stay in place when they are sorted and belong before the others. -/
theorem take_insertionSort_eq_iff (hnodup : xs.Nodup) :
    (xs.insertionSort r).take k = xs.take k ↔ (xs.take k).Pairwise r ∧ SplitsAt r k xs := by
  constructor
  · intro hsame
    have hsorted : ((xs.insertionSort r).take k).Pairwise r :=
      (List.pairwise_insertionSort r xs).take
    rw [hsame] at hsorted
    exact ⟨hsorted, (mem_take_insertionSort_iff hnodup).mp fun a => by rw [hsame]⟩
  · rintro ⟨hsorted, hsplits⟩
    rw [take_insertionSort_of_splitsAt hsplits, hsorted.insertionSort_eq]

/-- After cutting off and sorting, the first members are the first ones of the whole list. -/
theorem mem_take_cut_iff (hnodup : xs.Nodup) :
    (∀ a, a ∈ ((xs.take depth).insertionSort r).take k ↔ a ∈ xs.take k) ↔
      Reaches depth k xs ∧ SplitsAt r k (xs.take depth) := by
  by_cases hreach : Reaches depth k xs
  · rw [← hreach.take_take, mem_take_insertionSort_iff hnodup.take]
    simp [hreach]
  · obtain ⟨a, ha, hbeyond⟩ := exists_beyond hreach hnodup
    refine iff_of_false (fun hsame => hbeyond ?_) fun h => hreach h.1
    exact (List.mem_insertionSort r).mp (List.mem_of_mem_take ((hsame a).mpr ha))

/-- After cutting off and sorting, the first members are those of the whole list, in place. -/
theorem take_cut_eq_iff (hnodup : xs.Nodup) :
    ((xs.take depth).insertionSort r).take k = xs.take k ↔
      Reaches depth k xs ∧ ((xs.take depth).take k).Pairwise r ∧
        SplitsAt r k (xs.take depth) := by
  by_cases hreach : Reaches depth k xs
  · rw [← hreach.take_take, take_insertionSort_eq_iff hnodup.take]
    simp [hreach]
  · obtain ⟨a, ha, hbeyond⟩ := exists_beyond hreach hnodup
    refine iff_of_false (fun hsame => hbeyond ?_) fun h => hreach h.1
    rw [← hsame] at ha
    exact (List.mem_insertionSort r).mp (List.mem_of_mem_take ha)

omit [Std.Total r] [IsTrans α r] [Std.Antisymm r] in
/-- Two cuts give the same sorted list when they keep equally many members. -/
theorem insertionSort_cut_eq_iff {depth' : ℕ} :
    (xs.take depth).insertionSort r = (xs.take depth').insertionSort r ↔
      min depth xs.length = min depth' xs.length := by
  constructor
  · intro hsame
    have hlength := congrArg List.length hsame
    simpa using hlength
  · intro hmin
    have htake : xs.take depth = xs.take depth' := by
      rw [List.take_eq_take_min, hmin, ← List.take_eq_take_min]
    rw [htake]

end Sorted

end RelyLoop.Ranking
