import Mathlib.Algebra.Order.Group.Basic
import Mathlib.Algebra.Order.Monoid.Unbundled.Pow
import Mathlib.Data.Finset.Card
import Mathlib.Data.Fintype.Card
import Mathlib.Logic.Function.Basic

/-!
# Counters that are read before they are added to

Tasks share a total. A task reads the total, goes on when it leaves room for `reserve` under
`limit`, and adds its amount later. What the total can reach depends on how many tasks have been
admitted by an older reading.
-/

namespace RelyLoop.Metering

/-- A total, with the tasks that have read one with room and have not added since. -/
structure Meter (T α : Type) where
  total : α
  admitted : T → Bool

namespace Meter

variable {T α : Type}

section Counting

variable [Fintype T] {m m' : Meter T α} {t : T}

/-- The number of tasks that are admitted. -/
def load (m : Meter T α) : ℕ := (Finset.univ.filter fun t => m.admitted t).card

variable [DecidableEq T]

/-- The number of tasks other than `t` that are admitted. -/
def others (m : Meter T α) (t : T) : ℕ :=
  (Finset.univ.filter fun t' => t' ≠ t ∧ m.admitted t').card

theorem others_lt_card (m : Meter T α) (t : T) : m.others t < Fintype.card T := by
  have hsub : (Finset.univ.filter fun t' => t' ≠ t ∧ m.admitted t') ⊆ Finset.univ.erase t := by
    intro t' ht'
    simp_all
  have hcard := Finset.card_le_card hsub
  have hpos : 0 < Fintype.card T := Fintype.card_pos_iff.mpr ⟨t⟩
  rw [Finset.card_erase_of_mem (Finset.mem_univ t), Finset.card_univ] at hcard
  rw [others]
  omega

theorem load_eq (m : Meter T α) (t : T) :
    m.load = m.others t + if m.admitted t then 1 else 0 := by
  have hsplit : (Finset.univ.filter fun t' => m.admitted t') =
      (Finset.univ.filter fun t' => t' ≠ t ∧ m.admitted t') ∪
        if m.admitted t then {t} else ∅ := by
    ext t'
    by_cases heq : t' = t
    · subst heq
      split <;> simp_all
    · split <;> simp [heq]
  rw [load, others, hsplit, Finset.card_union_of_disjoint]
  · split <;> rfl
  · split <;> simp

theorem others_congr (h : ∀ t', t' ≠ t → m'.admitted t' = m.admitted t') :
    m'.others t = m.others t := by
  rw [others, others]
  congr 1
  ext t'
  by_cases hne : t' = t
  · simp [hne]
  · simp [hne, h t' hne]

end Counting

variable [DecidableEq T] [AddCommGroup α] [LinearOrder α] {m : Meter T α}
  {limit reserve amount bound : α} {t t' : T}

/-- Task `t` reads the total. -/
def read (limit reserve : α) (t : T) (m : Meter T α) : Meter T α :=
  { m with admitted := Function.update m.admitted t (decide (m.total + reserve ≤ limit)) }

/-- Task `t` adds its amount. -/
def add (t : T) (amount : α) (m : Meter T α) : Meter T α :=
  ⟨m.total + amount, Function.update m.admitted t false⟩

/-- Task `t` gives up. -/
def leave (t : T) (m : Meter T α) : Meter T α :=
  { m with admitted := Function.update m.admitted t false }

theorem read_admitted_self :
    (m.read limit reserve t).admitted t = decide (m.total + reserve ≤ limit) := by
  simp [read]

theorem read_admitted_of_ne (h : t' ≠ t) :
    (m.read limit reserve t).admitted t' = m.admitted t' := by
  simp [read, h]

omit [LinearOrder α] in
theorem add_admitted_of_ne (h : t' ≠ t) : (m.add t amount).admitted t' = m.admitted t' := by
  simp [add, h]

omit [AddCommGroup α] [LinearOrder α] in
theorem leave_admitted_of_ne (h : t' ≠ t) : (m.leave t).admitted t' = m.admitted t' := by
  simp [leave, h]

/-! ## Bounds -/

section

variable [Fintype T]

/-- The total stays within the bound even if every admitted task adds all it has reserved. -/
def Within (bound reserve : α) (m : Meter T α) : Prop := m.total + m.load • reserve ≤ bound

omit [DecidableEq T] in
theorem within_of_idle (h : ∀ t, m.admitted t = false) (hbound : m.total ≤ bound) :
    m.Within bound reserve := by
  have hload : m.load = 0 := by simp [load, h]
  rw [Within, hload, zero_nsmul, add_zero]
  exact hbound

variable [IsOrderedAddMonoid α]

omit [DecidableEq T] in
theorem Within.total_le (h : m.Within bound reserve) (hreserve : 0 ≤ reserve) :
    m.total ≤ bound := by
  calc m.total ≤ m.total + m.load • reserve := le_add_of_nonneg_right (nsmul_nonneg hreserve _)
    _ ≤ bound := h

/-- Giving up frees what was reserved. -/
theorem Within.leave (h : m.Within bound reserve) (hreserve : 0 ≤ reserve) (t : T) :
    (m.leave t).Within bound reserve := by
  have hothers : (m.leave t).others t = m.others t := others_congr fun _ => leave_admitted_of_ne
  have hself : (m.leave t).admitted t = false := by simp [Meter.leave]
  have hload : (m.leave t).load ≤ m.load := by
    rw [load_eq _ t, load_eq m t, hothers, hself]
    simp
  calc (m.leave t).total + (m.leave t).load • reserve
      ≤ m.total + m.load • reserve := add_le_add_right (nsmul_le_nsmul_left hreserve hload) _
    _ ≤ bound := h

/-- A reading that leaves room must leave it beside the tasks that are admitted already. -/
theorem Within.read (h : m.Within bound reserve) (hreserve : 0 ≤ reserve)
    (hroom : m.total + reserve ≤ limit → m.total + (m.others t + 1) • reserve ≤ bound) :
    (m.read limit reserve t).Within bound reserve := by
  have hothers : (m.read limit reserve t).others t = m.others t :=
    others_congr fun _ => read_admitted_of_ne
  rw [Within, load_eq _ t, hothers, read_admitted_self]
  by_cases hfits : m.total + reserve ≤ limit
  · simpa [hfits, Meter.read] using hroom hfits
  · have hleave := h.leave hreserve t
    rw [Within, load_eq _ t, others_congr fun _ => leave_admitted_of_ne] at hleave
    simpa [hfits, Meter.read, Meter.leave] using hleave

/-- An admitted task adds no more than it has reserved. -/
theorem Within.add (h : m.Within bound reserve) (hadmitted : m.admitted t = true)
    (hamount : amount ≤ reserve) : (m.add t amount).Within bound reserve := by
  have hothers : (m.add t amount).others t = m.others t := others_congr fun _ => add_admitted_of_ne
  have hself : (m.add t amount).admitted t = false := by simp [Meter.add]
  rw [Within, load_eq _ t, hadmitted, if_pos rfl] at h
  rw [Within, load_eq _ t, hothers, hself, if_neg Bool.false_ne_true, Nat.add_zero]
  calc m.total + amount + m.others t • reserve
      ≤ m.total + reserve + m.others t • reserve := by gcongr
    _ = m.total + (m.others t + 1) • reserve := by rw [succ_nsmul', add_assoc]
    _ ≤ bound := h

end

end Meter

end RelyLoop.Metering
