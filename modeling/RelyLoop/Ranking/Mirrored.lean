import RelyLoop.Python.Sorted
import Mathlib.Algebra.BigOperators.Ring.List
import Mathlib.Algebra.Order.Field.Basic
import Mathlib.Algebra.Order.Group.Defs
import Mathlib.Tactic.Ring

/-!
# Mirrored values

What sorting and averaging make of values when each of them is negated: the order is reversed, and
the spread stays. Values may be missing; those come last in both orders.
-/

namespace RelyLoop.Ranking

open Python

/-! ## Missing values last -/

section NullsLast

variable {α β : Type*}

/-- An order of values in which the missing ones come last. -/
def nullsLast (r : β → β → Prop) : Option β → Option β → Prop
  | _, none => True
  | none, some _ => False
  | some x, some y => r x y

instance (r : β → β → Prop) [DecidableRel r] : DecidableRel (nullsLast r)
  | _, none => inferInstanceAs (Decidable True)
  | none, some _ => inferInstanceAs (Decidable False)
  | some x, some y => inferInstanceAs (Decidable (r x y))

theorem nullsLast_total {r : β → β → Prop} [Std.Total r] (a b : Option β) :
    nullsLast r a b ∨ nullsLast r b a := by
  cases a with
  | none => exact Or.inr (by cases b <;> trivial)
  | some x =>
    cases b with
    | none => exact Or.inl trivial
    | some y => exact Std.Total.total (r := r) x y

theorem nullsLast_trans {r : β → β → Prop} [IsTrans β r] {a b c : Option β}
    (hab : nullsLast r a b) (hbc : nullsLast r b c) : nullsLast r a c := by
  cases c with
  | none => cases a <;> trivial
  | some z =>
    cases b with
    | none => cases hbc
    | some y =>
      cases a with
      | none => cases hab
      | some x => exact IsTrans.trans (r := r) x y z hab hbc

/-- Rows in the order of a column, with missing values last. -/
def ordered (r : β → β → Prop) (f : α → Option β) (a b : α) : Prop := nullsLast r (f a) (f b)

instance (r : β → β → Prop) [DecidableRel r] (f : α → Option β) : DecidableRel (ordered r f) :=
  fun a b => inferInstanceAs (Decidable (nullsLast r (f a) (f b)))

instance (r : β → β → Prop) [Std.Total r] (f : α → Option β) : Std.Total (ordered r f) :=
  ⟨fun a b => nullsLast_total (f a) (f b)⟩

instance (r : β → β → Prop) [IsTrans β r] (f : α → Option β) : IsTrans α (ordered r f) :=
  ⟨fun _ _ _ => nullsLast_trans⟩

variable [LinearOrder β] {f : α → Option β} {rows : List α}

/-- The first row in a descending order is the first one in the ascending order exactly when the
column has one value at most. -/
theorem head?_desc_eq_asc_iff :
    (rows.insertionSort (ordered (· ≥ ·) f)).head? =
        (rows.insertionSort (ordered (· ≤ ·) f)).head? ↔
      ∀ a ∈ rows, ∀ b ∈ rows, ∀ x y, f a = some x → f b = some y → x = y := by
  constructor
  · intro h a ha b hb x y hx hy
    cases hfirst : (rows.insertionSort (ordered (· ≥ ·) f)).head? with
    | none =>
      have hempty : rows.insertionSort (ordered (· ≥ ·) f) = [] := List.head?_eq_none_iff.mp hfirst
      rw [← List.mem_insertionSort (ordered (· ≥ ·) f), hempty] at ha
      cases ha
    | some first =>
      have hlast := h.symm.trans hfirst
      have hvalue : ∀ c ∈ rows, ∀ z, f c = some z → f first = some z := by
        intro c hc z hz
        have hdesc : ordered (· ≥ ·) f first c := head?_insertionSort_le hfirst hc
        have hasc : ordered (· ≤ ·) f first c := head?_insertionSort_le hlast hc
        rw [ordered, hz] at hdesc hasc
        cases hv : f first with
        | none => simp [hv, nullsLast] at hdesc
        | some v =>
          rw [hv] at hdesc hasc
          exact congrArg some (le_antisymm hasc hdesc)
      exact Option.some.inj ((hvalue a ha x hx).symm.trans (hvalue b hb y hy))
  · intro h
    congr 1
    refine insertionSort_congr fun a ha b hb => ?_
    cases hx : f a with
    | none => cases hy : f b <;> simp [ordered, hx, hy, nullsLast]
    | some x =>
      cases hy : f b with
      | none => simp [ordered, hx, hy, nullsLast]
      | some y => simp [ordered, hx, hy, nullsLast, h a ha b hb x y hx hy]

end NullsLast

/-! ## Negated values -/

section Negated

variable {α K : Type*} [AddCommGroup K] [LinearOrder K] [IsOrderedAddMonoid K]

/-- The descending order of negated values is the ascending one of the values. -/
theorem insertionSort_map_neg (values : List K) :
    (values.map Neg.neg).insertionSort (· ≥ ·) =
      (values.insertionSort (· ≤ ·)).map Neg.neg :=
  (List.map_insertionSort _ _ Neg.neg values fun _ _ _ _ => neg_le_neg_iff.symm).symm

/-- So it is for rows, when `mirror` negates their column. -/
theorem insertionSort_mirror (f : α → Option K) (mirror : α → α)
    (hmirror : ∀ a, f (mirror a) = (f a).map Neg.neg) (rows : List α) :
    (rows.map mirror).insertionSort (ordered (· ≥ ·) f) =
      (rows.insertionSort (ordered (· ≤ ·) f)).map mirror := by
  refine (List.map_insertionSort _ _ mirror rows fun a _ b _ => ?_).symm
  rw [ordered, ordered, hmirror, hmirror]
  cases f a <;> cases f b <;> simp [nullsLast]

/-- The greatest of negated values is the least value, negated. -/
theorem max?_map_neg (values : List K) :
    (values.map Neg.neg).max? = values.min?.map Neg.neg := by
  cases hmin : values.min? with
  | none => rw [List.min?_eq_none_iff.mp hmin, List.map_nil, List.max?_nil, Option.map_none]
  | some low =>
    obtain ⟨hmem, hle⟩ := List.min?_eq_some_iff.mp hmin
    rw [Option.map_some, List.max?_eq_some_iff]
    constructor
    · exact List.mem_map_of_mem hmem
    · intro x hx
      obtain ⟨y, hy, rfl⟩ := List.mem_map.mp hx
      exact neg_le_neg (hle y hy)

/-- The least of negated values is the greatest value, negated. -/
theorem min?_map_neg (values : List K) :
    (values.map Neg.neg).min? = values.max?.map Neg.neg := by
  have hmax := max?_map_neg (values.map Neg.neg)
  rw [List.map_map, neg_comp_neg, List.map_id] at hmax
  rw [hmax, Option.map_map, neg_comp_neg, Option.map_id, id]

end Negated

/-! ## Spread -/

section Spread

variable {K : Type*} [Field K]

/-- The mean. -/
def mean (values : List K) : K := values.sum / values.length

/-- The variance of a sample. -/
def sampleVariance (values : List K) : K :=
  (values.map fun x => (x - mean values) ^ 2).sum / (values.length - 1)

theorem mean_map_neg (values : List K) : mean (values.map Neg.neg) = -mean values := by
  have hsum : (values.map Neg.neg).sum = -values.sum := by
    have hmul := List.sum_map_mul_left (l := values) (r := (-1 : K)) (f := fun x => x)
    simpa [Function.comp_def] using hmul
  rw [mean, mean, hsum, List.length_map, neg_div]

/-- The spread of negated values is the same. -/
theorem sampleVariance_map_neg (values : List K) :
    sampleVariance (values.map Neg.neg) = sampleVariance values := by
  rw [sampleVariance, sampleVariance, mean_map_neg, List.map_map, List.length_map]
  congr 3
  funext x
  simp only [Function.comp_apply]
  ring

end Spread

end RelyLoop.Ranking
