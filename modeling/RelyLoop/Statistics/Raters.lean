import Mathlib.Algebra.BigOperators.Field
import Mathlib.Algebra.Order.BigOperators.Ring.Finset
import Mathlib.Algebra.Order.Field.Basic
import Mathlib.Order.Interval.Finset.Nat
import Mathlib.Tactic.FieldSimp
import Mathlib.Tactic.Linarith
import Mathlib.Tactic.Ring

/-!
# Two raters

The joint distribution of two ratings, its marginals, and the expected disagreement with respect to
a distance of ratings. For a sum of cuts, the observed disagreement is at most twice the one of
independent raters with the same marginals.
-/

namespace RelyLoop.Statistics

open Finset

/-- A joint distribution of two ratings. -/
structure Joint (ι K : Type*) [Fintype ι] [Field K] [LinearOrder K] where
  mass : ι → ι → K
  nonneg : ∀ i j, 0 ≤ mass i j
  total : ∑ i, ∑ j, mass i j = 1

namespace Joint

variable {ι K : Type*} [Fintype ι] [Field K] [LinearOrder K]

/-- The distribution of the first rating. -/
def first (J : Joint ι K) (i : ι) : K := ∑ j, J.mass i j

/-- The distribution of the second rating. -/
def second (J : Joint ι K) (j : ι) : K := ∑ i, J.mass i j

/-- The expected value of a function of both ratings. -/
def expect (J : Joint ι K) (d : ι → ι → K) : K := ∑ i, ∑ j, d i j * J.mass i j

theorem sum_first (J : Joint ι K) : ∑ i, J.first i = 1 := J.total

theorem sum_second (J : Joint ι K) : ∑ j, J.second j = 1 := by
  unfold second
  rw [sum_comm]
  exact J.total

theorem expect_first (J : Joint ι K) (f : ι → K) :
    J.expect (fun i _ => f i) = ∑ i, f i * J.first i := by
  simp only [expect, first, mul_sum]

theorem expect_second (J : Joint ι K) (g : ι → K) :
    J.expect (fun _ j => g j) = ∑ j, g j * J.second j := by
  unfold expect
  rw [sum_comm]
  simp only [second, mul_sum]

theorem expect_const (J : Joint ι K) (c : K) : J.expect (fun _ _ => c) = c := by
  rw [expect_first, ← mul_sum, J.sum_first, mul_one]

theorem expect_add (J : Joint ι K) (d d' : ι → ι → K) :
    J.expect (fun i j => d i j + d' i j) = J.expect d + J.expect d' := by
  simp only [expect, add_mul, sum_add_distrib]

theorem expect_sub (J : Joint ι K) (d d' : ι → ι → K) :
    J.expect (fun i j => d i j - d' i j) = J.expect d - J.expect d' := by
  simp only [expect, sub_mul, sum_sub_distrib]

theorem expect_const_mul (J : Joint ι K) (c : K) (d : ι → ι → K) :
    J.expect (fun i j => c * d i j) = c * J.expect d := by
  simp only [expect, mul_assoc, ← mul_sum]

theorem expect_sum {τ : Type*} (J : Joint ι K) (t : Finset τ) (d : τ → ι → ι → K) :
    J.expect (fun i j => ∑ c ∈ t, d c i j) = ∑ c ∈ t, J.expect (d c) := by
  simp only [expect, sum_mul]
  symm
  rw [sum_comm]
  apply sum_congr rfl
  intro i _
  exact sum_comm

variable [IsStrictOrderedRing K]

theorem first_nonneg (J : Joint ι K) (i : ι) : 0 ≤ J.first i :=
  sum_nonneg fun j _ => J.nonneg i j

theorem second_nonneg (J : Joint ι K) (j : ι) : 0 ≤ J.second j :=
  sum_nonneg fun i _ => J.nonneg i j

theorem expect_mono (J : Joint ι K) {d d' : ι → ι → K} (h : ∀ i j, d i j ≤ d' i j) :
    J.expect d ≤ J.expect d' := by
  apply sum_le_sum
  intro i _
  apply sum_le_sum
  intro j _
  exact mul_le_mul_of_nonneg_right (h i j) (J.nonneg i j)

theorem expect_nonneg (J : Joint ι K) {d : ι → ι → K} (h : ∀ i j, 0 ≤ d i j) :
    0 ≤ J.expect d :=
  sum_nonneg fun i _ => sum_nonneg fun j _ => mul_nonneg (h i j) (J.nonneg i j)

theorem expect_eq_zero_iff (J : Joint ι K) {d : ι → ι → K} (h : ∀ i j, 0 ≤ d i j) :
    J.expect d = 0 ↔ ∀ i j, d i j = 0 ∨ J.mass i j = 0 := by
  have hterm (i j : ι) : 0 ≤ d i j * J.mass i j := mul_nonneg (h i j) (J.nonneg i j)
  unfold expect
  rw [sum_eq_zero_iff_of_nonneg fun i _ => sum_nonneg fun j _ => hterm i j]
  simp only [mem_univ, forall_const, sum_eq_zero_iff_of_nonneg fun j _ => hterm _ j, mul_eq_zero]

/-- Independent raters with the same marginals. -/
def independent (J : Joint ι K) : Joint ι K where
  mass i j := J.first i * J.second j
  nonneg i j := mul_nonneg (J.first_nonneg i) (J.second_nonneg j)
  total := by simp only [← mul_sum, J.sum_second, mul_one, J.sum_first]

@[simp] theorem first_independent (J : Joint ι K) (i : ι) : J.independent.first i = J.first i := by
  simp only [first, independent, ← mul_sum, J.sum_second, mul_one]

@[simp] theorem second_independent (J : Joint ι K) (j : ι) :
    J.independent.second j = J.second j := by
  change ∑ i, J.first i * J.second j = J.second j
  rw [← sum_mul, J.sum_first, one_mul]

theorem independent_expect_mul (J : Joint ι K) (f g : ι → K) :
    J.independent.expect (fun i j => f i * g j) =
      (∑ i, f i * J.first i) * ∑ j, g j * J.second j := by
  rw [sum_mul_sum]
  apply sum_congr rfl
  intro i _
  apply sum_congr rfl
  intro j _
  simp only [independent]
  ring

/-- The raters in the other order. -/
def swap (J : Joint ι K) : Joint ι K where
  mass i j := J.mass j i
  nonneg i j := J.nonneg j i
  total := J.sum_second

/-- Next to a certain rating no other one occurs. -/
theorem first_eq_zero (J : Joint ι K) {i a : ι} (hi : J.first i = 1) (ha : a ≠ i) :
    J.first a = 0 := by
  classical
  have hothers : ∑ a ∈ univ.erase i, J.first a = 0 := by
    have := add_sum_erase univ J.first (mem_univ i)
    rw [J.sum_first, hi] at this
    linarith
  have hzero := (sum_eq_zero_iff_of_nonneg fun a _ => J.first_nonneg a).mp hothers
  exact hzero a (mem_erase.mpr ⟨ha, mem_univ a⟩)

theorem mass_eq_zero_of_first (J : Joint ι K) {i a : ι} (hi : J.first i = 1) (ha : a ≠ i) (b : ι) :
    J.mass a b = 0 :=
  (sum_eq_zero_iff_of_nonneg fun b _ => J.nonneg a b).mp (J.first_eq_zero hi ha) b (mem_univ b)

theorem mass_eq_zero_of_second (J : Joint ι K) {j b : ι} (hj : J.second j = 1) (hb : b ≠ j)
    (a : ι) : J.mass a b = 0 :=
  J.swap.mass_eq_zero_of_first hj hb a

/-! ## Cuts -/

/-- Whether a set contains a rating. -/
def indicator (s : ι → Bool) (i : ι) : K := if s i then 1 else 0

/-- The distance that separates a set from its complement. -/
def cut (s : ι → Bool) (i j : ι) : K := if s i = s j then 0 else 1

omit [Fintype ι] [LinearOrder K] [IsStrictOrderedRing K] in
theorem cut_eq (s : ι → Bool) (i j : ι) :
    (cut s i j : K) =
      indicator s i + indicator s j - 2 * (indicator s i * indicator s j) := by
  unfold cut indicator
  cases s i <;> cases s j <;> simp
  ring

omit [Fintype ι] [LinearOrder K] [IsStrictOrderedRing K] in
theorem cut_comm (s : ι → Bool) (i j : ι) : (cut s i j : K) = cut s j i := by
  unfold cut
  simp only [eq_comm]

/-- One rating is in the set only if it is in one of the sets. -/
theorem expect_cut_le_add (J : Joint ι K) (s : ι → Bool) :
    J.expect (cut s) ≤
      (∑ i, indicator s i * J.first i) + ∑ j, indicator s j * J.second j := by
  rw [← expect_first, ← expect_second, ← expect_add]
  apply expect_mono
  intro i j
  unfold cut indicator
  cases s i <;> cases s j <;> norm_num

theorem expect_cut_le_sub (J : Joint ι K) (s : ι → Bool) :
    J.expect (cut s) ≤
      2 - ((∑ i, indicator s i * J.first i) + ∑ j, indicator s j * J.second j) := by
  rw [← expect_first, ← expect_second, ← expect_add, ← J.expect_const 2, ← expect_sub]
  apply expect_mono
  intro i j
  unfold cut indicator
  cases s i <;> cases s j <;> norm_num

theorem independent_expect_cut (J : Joint ι K) (s : ι → Bool) :
    J.independent.expect (cut s) =
      (∑ i, indicator s i * J.first i) + (∑ j, indicator s j * J.second j) -
        2 * ((∑ i, indicator s i * J.first i) * ∑ j, indicator s j * J.second j) := by
  have hcut : (cut s : ι → ι → K) = fun i j =>
      (indicator s i + indicator s j) - 2 * (indicator s i * indicator s j) := by
    funext i j
    exact cut_eq s i j
  rw [hcut, expect_sub, expect_add, expect_const_mul, independent_expect_mul, expect_first,
    expect_second]
  simp only [first_independent, second_independent]

theorem sum_indicator_mul_mem (s : ι → Bool) {f : ι → K} (hnonneg : ∀ i, 0 ≤ f i)
    (hsum : ∑ i, f i = 1) : 0 ≤ ∑ i, indicator s i * f i ∧ ∑ i, indicator s i * f i ≤ 1 := by
  have hbounds (i : ι) : 0 ≤ indicator s i * f i ∧ indicator s i * f i ≤ f i := by
    have := hnonneg i
    unfold indicator
    cases s i <;> simp [this]
  constructor
  · exact sum_nonneg fun i _ => (hbounds i).1
  · rw [← hsum]
    exact sum_le_sum fun i _ => (hbounds i).2

/-- Raters are separated by a cut at most twice as often as independent ones. -/
theorem expect_cut_le (J : Joint ι K) (s : ι → Bool) :
    J.expect (cut s) ≤ 2 * J.independent.expect (cut s) := by
  have hadd := J.expect_cut_le_add s
  have hsub := J.expect_cut_le_sub s
  obtain ⟨hp, hp'⟩ := sum_indicator_mul_mem s J.first_nonneg J.sum_first
  obtain ⟨hq, hq'⟩ := sum_indicator_mul_mem s J.second_nonneg J.sum_second
  rw [independent_expect_cut]
  generalize ∑ i, indicator s i * J.first i = p at *
  generalize ∑ j, indicator s j * J.second j = q at *
  -- With `t = p + q`, both bounds are at most `t * (2 - t)`.
  rcases le_total (p + q) 1 with hle | hge
  · nlinarith [sq_nonneg (p - q)]
  · nlinarith [sq_nonneg (p - q)]

/-- So are they by a distance that is a sum of cuts. -/
theorem expect_le_of_cuts {τ : Type*} (J : Joint ι K) {t : Finset τ} {w : τ → K}
    {s : τ → ι → Bool} {d : ι → ι → K} (hw : ∀ c ∈ t, 0 ≤ w c)
    (hd : ∀ i j, d i j = ∑ c ∈ t, w c * cut (s c) i j) :
    J.expect d ≤ 2 * J.independent.expect d := by
  obtain rfl : d = fun i j => ∑ c ∈ t, w c * cut (s c) i j := funext₂ hd
  simp only [expect_sum, expect_const_mul, mul_sum]
  apply sum_le_sum
  intro c hc
  nlinarith [J.expect_cut_le (s c), hw c hc]

/-! ## Distances -/

section Differs

variable [DecidableEq ι]

/-- The distance of ratings that differ. -/
def differs (i j : ι) : K := if i = j then 0 else 1

omit [LinearOrder K] in
/-- Two ratings that differ are separated from the others one by one. -/
theorem differs_eq_sum (i j : ι) [CharZero K] :
    (differs i j : K) = ∑ c, 1 / 2 * cut (fun i => decide (i = c)) i j := by
  unfold differs cut
  by_cases hij : i = j
  · simp [hij]
  · have hterm (c : ι) : (1 / 2 * if decide (i = c) = decide (j = c) then 0 else 1 : K) =
        (if i = c then 1 / 2 else 0) + if j = c then 1 / 2 else 0 := by
      by_cases hi : i = c <;> by_cases hj : j = c <;> simp [hi, hj]
      exact absurd (hi.trans hj.symm) hij
    simp only [hterm, sum_add_distrib, sum_ite_eq, mem_univ, if_true, if_neg hij]
    norm_num

/-- Raters differ at most twice as often as independent ones. -/
theorem expect_differs_le (J : Joint ι K) :
    J.expect differs ≤ 2 * J.independent.expect differs := by
  apply J.expect_le_of_cuts (t := univ) (w := fun _ : ι => 1 / 2) (s := fun c i => decide (i = c))
  · intro c _
    norm_num
  · exact fun i j => differs_eq_sum i j

omit [IsStrictOrderedRing K] in
theorem expect_differs (J : Joint ι K) : J.expect differs = 1 - ∑ i, J.mass i i := by
  have hterm (i j : ι) : differs i j * J.mass i j = J.mass i j - if i = j then J.mass i j else 0 := by
    unfold differs
    split <;> ring
  simp only [expect, hterm, sum_sub_distrib, sum_ite_eq, mem_univ, if_true, J.total]

/-- Independent raters differ at least as often as the marginals fall short of certainty. -/
theorem le_independent_expect_differs (J : Joint ι K) {δ : K}
    (hfirst : ∀ i, J.first i = 1 ∨ J.first i ≤ 1 - δ)
    (hsecond : ∀ j, J.second j = 1 ∨ J.second j ≤ 1 - δ)
    (hnot : ¬∃ i, J.first i = 1 ∧ J.second i = 1) : δ ≤ J.independent.expect differs := by
  rw [expect_differs]
  suffices hagree : ∑ i, J.first i * J.second i ≤ 1 - δ by
    have : ∑ i, J.independent.mass i i = ∑ i, J.first i * J.second i := rfl
    linarith
  by_cases hsure : ∃ i, J.first i = 1
  · obtain ⟨i, hi⟩ := hsure
    have hone : ∑ j, J.first j * J.second j = J.second i := by
      rw [sum_eq_single i, hi, one_mul]
      · intro j _ hj
        rw [J.first_eq_zero hi hj, zero_mul]
      · exact fun hi => absurd (mem_univ i) hi
    rw [hone]
    rcases hsecond i with hsecond | hsecond
    · exact absurd ⟨i, hi, hsecond⟩ hnot
    · exact hsecond
  · have hless (i : ι) : J.first i ≤ 1 - δ :=
      (hfirst i).resolve_left fun hi => hsure ⟨i, hi⟩
    calc ∑ i, J.first i * J.second i ≤ ∑ i, (1 - δ) * J.second i :=
          sum_le_sum fun i _ => mul_le_mul_of_nonneg_right (hless i) (J.second_nonneg i)
      _ = 1 - δ := by rw [← mul_sum, J.sum_second, mul_one]

end Differs

section Linear

variable {n : ℕ}

/-- The distance of two numbers counts the bounds between them. -/
theorem abs_sub_eq_sum (i j : Fin n) :
    |(i : K) - j| = ∑ c ∈ range n, cut (fun i : Fin n => decide (c < i)) i j := by
  have hle {i j : Fin n} (hij : i ≤ j) :
      ((j : ℕ) : K) - (i : ℕ) = ∑ c ∈ range n, cut (fun i : Fin n => decide (c < i)) i j := by
    have hterm (c : ℕ) : (cut (fun i : Fin n => decide (c < i)) i j : K) =
        if c ∈ Ico (i : ℕ) j then 1 else 0 := by
      have hij' : (i : ℕ) ≤ j := hij
      have hmem : c ∈ Ico (i : ℕ) j ↔ ¬decide (c < (i : ℕ)) = decide (c < (j : ℕ)) := by
        rw [mem_Ico, decide_eq_decide]
        omega
      simp only [cut, hmem, ite_not]
    have hsub : (range n).filter (· ∈ Ico (i : ℕ) j) = Ico (i : ℕ) j := by
      ext c
      simp only [mem_filter, mem_range, mem_Ico]
      omega
    rw [sum_congr rfl fun c _ => hterm c, sum_boole, hsub, Nat.card_Ico, Nat.cast_sub hij]
  rcases le_total i j with hij | hij
  · have hnonpos : (i : K) - j ≤ 0 := by
      have : ((i : ℕ) : K) ≤ (j : ℕ) := Nat.cast_le.mpr hij
      linarith
    rw [abs_of_nonpos hnonpos, neg_sub, hle hij]
  · have hnonneg : 0 ≤ (i : K) - j := by
      have : ((j : ℕ) : K) ≤ (i : ℕ) := Nat.cast_le.mpr hij
      linarith
    rw [abs_of_nonneg hnonneg, hle hij]
    apply sum_congr rfl
    intro c _
    exact cut_comm _ j i

/-- A distance in proportion to that of two numbers is at most twice that of independent raters. -/
theorem expect_abs_sub_le (J : Joint (Fin n) K) {m : K} (hm : 0 ≤ m) :
    J.expect (fun i j => |(i : K) - j| / m) ≤
      2 * J.independent.expect fun i j => |(i : K) - j| / m := by
  apply J.expect_le_of_cuts (t := range n) (w := fun _ => 1 / m)
    (s := fun c i => decide (c < (i : ℕ)))
  · intro c _
    positivity
  · intro i j
    rw [abs_sub_eq_sum, sum_div]
    apply sum_congr rfl
    intro c _
    ring

end Linear

/-! ## Agreement beyond chance -/

/-- How much less raters disagree than independent ones would. -/
def beyondChance (J : Joint ι K) (d : ι → ι → K) : K :=
  (J.independent.expect d - J.expect d) / J.independent.expect d

variable {J : Joint ι K} {d : ι → ι → K}

theorem neg_one_le_beyondChance (hchance : 0 < J.independent.expect d)
    (hle : J.expect d ≤ 2 * J.independent.expect d) : -1 ≤ J.beyondChance d := by
  rw [beyondChance, le_div_iff₀ hchance]
  linarith

theorem beyondChance_le_one (hchance : 0 < J.independent.expect d) (hd : ∀ i j, 0 ≤ d i j) :
    J.beyondChance d ≤ 1 := by
  have hnonneg := J.expect_nonneg hd
  rw [beyondChance, div_le_one hchance]
  linarith

/-- Agreement is complete when ratings at a distance do not occur. -/
theorem beyondChance_eq_one_iff (hchance : 0 < J.independent.expect d) (hd : ∀ i j, 0 ≤ d i j) :
    J.beyondChance d = 1 ↔ ∀ i j, d i j = 0 ∨ J.mass i j = 0 := by
  rw [beyondChance, div_eq_one_iff_eq hchance.ne', ← J.expect_eq_zero_iff hd]
  constructor
  · intro h
    linarith
  · intro h
    linarith

end Joint

end RelyLoop.Statistics
