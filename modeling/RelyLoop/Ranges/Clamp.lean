import Mathlib.Order.Interval.Basic
import Mathlib.Order.MinMax

/-!
# Clamped intervals

The part of an interval that lies between two ends. It stays inside the interval, keeps the
members between the ends, and is the whole interval only when the ends lie outside.
-/

namespace RelyLoop.Ranges

variable {α : Type*} [LinearOrder α] {range range' other : NonemptyInterval α} {low high v : α}

/-- `range'` is the part of `range` from `low` to `high`. -/
structure Clamped (range : NonemptyInterval α) (low high : α) (range' : NonemptyInterval α) :
    Prop where
  fst : range'.fst = max range.fst low
  snd : range'.snd = min range.snd high

theorem Clamped.le (h : Clamped range low high range') : range' ≤ range := by
  rw [NonemptyInterval.le_def, h.fst, h.snd]
  exact ⟨le_max_left _ _, min_le_left _ _⟩

/-- A member between the ends stays. -/
theorem Clamped.mem (h : Clamped range low high range') (hv : v ∈ range) (hlow : low ≤ v)
    (hhigh : v ≤ high) : v ∈ range' := by
  rw [NonemptyInterval.mem_def, h.fst, h.snd]
  obtain ⟨hfst, hsnd⟩ := NonemptyInterval.mem_def.mp hv
  constructor
  · exact max_le hfst hlow
  · exact le_min hsnd hhigh

/-- Nothing is lost exactly when no end lies inside. -/
theorem Clamped.eq_iff (h : Clamped range low high range') :
    range' = range ↔ low ≤ range.fst ∧ range.snd ≤ high := by
  constructor
  · rintro rfl
    constructor
    · exact max_eq_left_iff.mp h.fst.symm
    · exact min_eq_left_iff.mp h.snd.symm
  · rintro ⟨hlow, hhigh⟩
    refine NonemptyInterval.ext (Prod.ext ?_ ?_)
    · rw [h.fst, max_eq_left hlow]
    · rw [h.snd, min_eq_left hhigh]

/-- When the part between the ends lies in another interval. -/
theorem Clamped.le_iff (h : Clamped range low high range') :
    range' ≤ other ↔
      (other.fst ≤ range.fst ∨ other.fst ≤ low) ∧ (range.snd ≤ other.snd ∨ high ≤ other.snd) := by
  rw [NonemptyInterval.le_def, h.fst, h.snd, le_max_iff, min_le_iff]

/-- Around a member the part between two ends has more than one point when the ends differ. -/
theorem max_lt_min_iff_of_mem (hfst : range.fst < v) (hsnd : v < range.snd) (hlow : low ≤ v)
    (hhigh : v ≤ high) : max range.fst low < min range.snd high ↔ low < high := by
  rw [max_lt_iff, lt_min_iff, lt_min_iff]
  constructor
  · rintro ⟨-, -, hlt⟩
    exact hlt
  · intro hlt
    exact ⟨⟨hfst.trans hsnd, hfst.trans_le hhigh⟩, hlow.trans_lt hsnd, hlt⟩

end RelyLoop.Ranges
