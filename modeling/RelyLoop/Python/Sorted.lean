import Mathlib.Data.List.Sort

/-!
# Stable sorting

`sorted` and `ORDER BY` as a stable sort. Rows that the key does not tell apart keep the order
in which they came, so the rows that meet a condition can be sorted before or after they are
selected.
-/

namespace RelyLoop.Python

variable {α : Type*} {r : α → α → Prop} [DecidableRel r]

theorem orderedInsert_eq_cons {a : α} {xs : List α} (h : ∀ b ∈ xs, r a b) :
    xs.orderedInsert r a = a :: xs := by
  cases xs with
  | nil => rfl
  | cons b xs => exact List.orderedInsert_cons_of_le r xs (h b List.mem_cons_self)

theorem filter_orderedInsert [IsTrans α r] (keeps : α → Bool) (a : α) {xs : List α}
    (hxs : xs.Pairwise r) : (xs.orderedInsert r a).filter keeps =
      if keeps a then (xs.filter keeps).orderedInsert r a else xs.filter keeps := by
  induction xs with
  | nil => cases h : keeps a <;> simp [h]
  | cons b xs ih =>
    obtain ⟨hb, hxs⟩ := List.pairwise_cons.mp hxs
    by_cases hab : r a b
    · have hall : ∀ c ∈ (b :: xs).filter keeps, r a c := by
        intro c hc
        rcases List.mem_cons.mp (List.mem_of_mem_filter hc) with rfl | hc
        · exact hab
        · exact IsTrans.trans a b c hab (hb c hc)
      rw [List.orderedInsert_cons_of_le r xs hab, orderedInsert_eq_cons hall, List.filter_cons]
    · rw [List.orderedInsert_of_not_le r xs hab, List.filter_cons, List.filter_cons, ih hxs]
      cases hkeepsB : keeps b with
      | true =>
        cases hkeepsA : keeps a with
        | true => simp [hab]
        | false => simp
      | false => simp

/-- The selected rows are sorted as they stand among all rows. -/
theorem filter_insertionSort [IsTrans α r] [Std.Total r] (keeps : α → Bool) (xs : List α) :
    (xs.insertionSort r).filter keeps = (xs.filter keeps).insertionSort r := by
  induction xs with
  | nil => rfl
  | cons a xs ih =>
    rw [List.insertionSort_cons, filter_orderedInsert keeps a (List.pairwise_insertionSort r xs),
      ih, List.filter_cons]
    cases keeps a <;> rfl

/-- The first row of a sorted list stands at or before all others. -/
theorem head?_insertionSort_le [IsTrans α r] [Std.Total r] {xs : List α} {a b : α}
    (h : (xs.insertionSort r).head? = some a) (hb : b ∈ xs) : r a b := by
  have hsorted := List.pairwise_insertionSort r xs
  have hmem := (List.mem_insertionSort r).mpr hb
  cases hlist : xs.insertionSort r with
  | nil => simp [hlist] at h
  | cons c rest =>
    rw [hlist] at h hsorted hmem
    obtain rfl : c = a := Option.some.inj h
    rcases List.mem_cons.mp hmem with rfl | hrest
    · exact Std.Refl.refl b
    · exact (List.pairwise_cons.mp hsorted).1 b hrest

theorem head?_insertionSort_cons (a : α) (xs : List α) :
    ((a :: xs).insertionSort r).head? =
      some (match (xs.insertionSort r).head? with
        | none => a
        | some b => if r a b then a else b) := by
  rw [List.insertionSort_cons]
  cases xs.insertionSort r with
  | nil => rfl
  | cons b rest =>
    by_cases hab : r a b
    · simp [hab]
    · simp [hab]

/-- Rows that come later, and that the key puts nowhere before the first row, leave it the first. -/
theorem head?_insertionSort_append [IsTrans α r] [Std.Total r] {xs ys : List α} {a : α}
    (h : (xs.insertionSort r).head? = some a) (hys : ∀ b ∈ ys, r a b) :
    ((xs ++ ys).insertionSort r).head? = some a := by
  induction xs with
  | nil => simp at h
  | cons c xs ih =>
    rw [List.cons_append, head?_insertionSort_cons]
    rw [head?_insertionSort_cons] at h
    cases hxs : (xs.insertionSort r).head? with
    | none =>
      obtain rfl : xs = [] := by
        have hlength := List.length_insertionSort r xs
        rw [List.head?_eq_none_iff.mp hxs] at hlength
        exact List.length_eq_zero_iff.mp hlength.symm
      obtain rfl : c = a := by simpa [hxs] using h
      cases hhead : (([] ++ ys).insertionSort r).head? with
      | none => rfl
      | some b =>
        have hb : b ∈ ys := (List.mem_insertionSort r).mp (List.mem_of_head? hhead)
        simp [hys b hb]
    | some d =>
      rw [hxs] at h
      dsimp only at h
      by_cases hcd : r c d
      · obtain rfl : c = a := by simpa [hcd] using h
        cases hhead : ((xs ++ ys).insertionSort r).head? with
        | none => rfl
        | some b =>
          have hmem : b ∈ xs ++ ys := (List.mem_insertionSort r).mp (List.mem_of_head? hhead)
          have hcb : r c b := by
            rcases List.mem_append.mp hmem with hb | hb
            · exact IsTrans.trans c d b hcd (head?_insertionSort_le hxs hb)
            · exact hys b hb
          simp [hcb]
      · obtain rfl : d = a := by simpa [hcd] using h
        rw [ih hxs]
        simp [hcd]

/-- Keys that agree on the rows give the same order. -/
theorem insertionSort_congr {r' : α → α → Prop} [DecidableRel r'] {xs : List α}
    (h : ∀ a ∈ xs, ∀ b ∈ xs, r a b ↔ r' a b) : xs.insertionSort r = xs.insertionSort r' := by
  have hmap := List.map_insertionSort r r' id xs h
  rwa [List.map_id, List.map_id] at hmap

end RelyLoop.Python
