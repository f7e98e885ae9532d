import RelyLoop.Statistics.Raters
import Mathlib.Algebra.BigOperators.Fin
import Mathlib.Algebra.Order.Ring.Rat
import Mathlib.Tactic.FinCases

/-!
# Kappas

Both kappas compare the observed disagreement of two raters with the one of independent raters of
the same ratings: Cohen's for ratings that differ, the weighted one for their linear distance.
-/

/-!
## Calibration of judgments

`compute_calibration` compares the ratings of a human and of the model: Cohen's kappa, kappa with
linear weights, and the agreement within each class. A kappa is left out when the chance of a
disagreement is below a tolerance.
-/

namespace RelyLoop.Eval

open Finset

/-- Ratings outside of the scale are skipped. -/
def InScale (pair : ℤ × ℤ) : Prop := (0 ≤ pair.1 ∧ pair.1 ≤ 3) ∧ 0 ≤ pair.2 ∧ pair.2 ≤ 3

instance : DecidablePred InScale :=
  fun pair => inferInstanceAs (Decidable ((0 ≤ pair.1 ∧ pair.1 ≤ 3) ∧ 0 ≤ pair.2 ∧ pair.2 ≤ 3))

/-- `matrix[human][llm] += 1`. -/
def increment (matrix : Fin 4 → Fin 4 → ℕ) (pair : ℤ × ℤ) : Fin 4 → Fin 4 → ℕ :=
  fun i j => if (i : ℤ) = pair.1 ∧ (j : ℤ) = pair.2 then matrix i j + 1 else matrix i j

/-- `_confusion_matrix`. -/
def confusionMatrix (pairs : List (ℤ × ℤ)) : Fin 4 → Fin 4 → ℕ :=
  pairs.foldl (fun matrix pair => if InScale pair then increment matrix pair else matrix)
    fun _ _ => 0

/-- The tolerance of the denominators. -/
def tolerance : ℚ := 1 / 10 ^ 12

/-- A kappa of the observed agreement and the one by chance. -/
def kappaOf (pO pE : ℚ) : Option ℚ :=
  if |1 - pE| < tolerance then none else some ((pO - pE) / (1 - pE))

/-- The linear weight of two ratings. -/
def weight (i j : Fin 4) : ℚ := 1 - |(i : ℚ) - j| / 3

/-- `_kappa`. -/
def kappa (pairs : List (ℤ × ℤ)) : Option ℚ × Option ℚ :=
  let matrix := confusionMatrix pairs
  let n := ∑ i, ∑ j, matrix i j
  if n = 0 then (none, none)
  else
    let pO : ℚ := ((∑ i, matrix i i : ℕ) : ℚ) / n
    let humanMarg := fun i => ((∑ j, matrix i j : ℕ) : ℚ) / n
    let llmMarg := fun j => ((∑ i, matrix i j : ℕ) : ℚ) / n
    let pE := ∑ i, humanMarg i * llmMarg i
    let pOW := ∑ i, ∑ j, weight i j * matrix i j / n
    let pEW := ∑ i, ∑ j, weight i j * humanMarg i * llmMarg j
    (kappaOf pO pE, kappaOf pOW pEW)

/-- `_RATING_VALUES`. -/
def ratingValues : List ℤ := [0, 1, 2, 3]

/-- The entry of a rating in `_per_class_agreement`. -/
def classAgreement (pairs : List (ℤ × ℤ)) (rating : ℤ) : ℚ :=
  let counts := pairs.countP fun pair => InScale pair ∧ pair.1 = rating
  let matched := pairs.countP fun pair => InScale pair ∧ pair.1 = rating ∧ pair.1 = pair.2
  if 0 < counts then (matched : ℚ) / counts else 0

/-- `_per_class_agreement`. -/
def perClassAgreement (pairs : List (ℤ × ℤ)) : List (ℤ × ℚ) :=
  ratingValues.map fun rating => (rating, classAgreement pairs rating)

/-- `CalibrationResult`. The keys of `per_class` are the ratings. -/
structure CalibrationResult where
  cohensKappa : Option ℚ
  weightedKappa : Option ℚ
  perClass : List (ℤ × ℚ)
  nSamples : ℕ
  warning : Option String
  deriving DecidableEq

/-- `compute_calibration`. -/
def computeCalibration (pairs : List (ℤ × ℤ)) : CalibrationResult :=
  let kappas := kappa pairs
  { cohensKappa := kappas.1
    weightedKappa := kappas.2
    perClass := perClassAgreement pairs
    nSamples := pairs.length
    warning :=
      if kappas.1 = none ∧ kappas.2 = none ∧ pairs ≠ [] then some "no rating variance" else none }

end RelyLoop.Eval

/-! ## Distributions of the ratings -/

namespace RelyLoop.Eval

open Finset Statistics

variable {pairs pairs' : List (ℤ × ℤ)} {d : Fin 4 → Fin 4 → ℚ}

/-! ## The confusion matrix -/

/-- All ratings are on the scale. -/
def Rated (pairs : List (ℤ × ℤ)) : Prop := ∀ pair ∈ pairs, InScale pair

theorem inScale_cast (i j : Fin 4) : InScale ((i : ℤ), (j : ℤ)) := by
  unfold InScale
  omega

/-- An entry of the matrix counts its pair. -/
theorem confusionMatrix_apply (pairs : List (ℤ × ℤ)) (i j : Fin 4) :
    confusionMatrix pairs i j = pairs.count ((i : ℤ), (j : ℤ)) := by
  have hfold (matrix : Fin 4 → Fin 4 → ℕ) :
      pairs.foldl (fun matrix pair => if InScale pair then increment matrix pair else matrix)
        matrix i j = matrix i j + pairs.count ((i : ℤ), (j : ℤ)) := by
    induction pairs generalizing matrix with
    | nil => rfl
    | cons pair pairs ih =>
      rw [List.foldl_cons, ih, List.count_cons]
      by_cases hsame : pair = ((i : ℤ), (j : ℤ))
      · subst hsame
        rw [if_pos (inScale_cast i j)]
        simp only [increment, and_self, if_true, beq_self_eq_true]
        omega
      · have hbeq : (pair == ((i : ℤ), (j : ℤ))) = false := beq_eq_false_iff_ne.mpr hsame
        have hindex : ¬((i : ℤ) = pair.1 ∧ (j : ℤ) = pair.2) := by
          rintro ⟨hi, hj⟩
          exact hsame (Prod.ext hi.symm hj.symm)
        rw [hbeq]
        split <;> simp only [increment, if_neg hindex, Bool.false_eq_true, if_false, add_zero]
  rw [confusionMatrix, hfold, Nat.zero_add]

/-- The matrix counts the pairs of the list, in any order. -/
theorem confusionMatrix_perm (h : pairs'.Perm pairs) :
    confusionMatrix pairs' = confusionMatrix pairs := by
  funext i j
  rw [confusionMatrix_apply, confusionMatrix_apply, h.count_eq]

/-- Swapping the raters transposes the matrix. -/
theorem confusionMatrix_swap (pairs : List (ℤ × ℤ)) (i j : Fin 4) :
    confusionMatrix (pairs.map Prod.swap) i j = confusionMatrix pairs j i := by
  rw [confusionMatrix_apply, confusionMatrix_apply]
  exact List.count_map_of_injective pairs Prod.swap Prod.swap_injective ((j : ℤ), (i : ℤ))

/-- A rating on the scale is an index. -/
theorem exists_index {rating : ℤ} (h : 0 ≤ rating ∧ rating ≤ 3) :
    ∃ i : Fin 4, (i : ℤ) = rating := by
  obtain ⟨k, rfl⟩ := Int.eq_ofNat_of_zero_le h.1
  exact ⟨⟨k, by omega⟩, rfl⟩

theorem sum_pair_eq : ∀ i j : Fin 4, (∑ i' : Fin 4, ∑ j' : Fin 4,
    if ((i : ℤ), (j : ℤ)) == ((i' : ℤ), (j' : ℤ)) then 1 else 0) = 1 := by
  decide

theorem sum_confusionMatrix (hrated : Rated pairs) :
    ∑ i, ∑ j, confusionMatrix pairs i j = pairs.length := by
  simp only [confusionMatrix_apply]
  induction pairs with
  | nil => simp
  | cons pair pairs ih =>
    obtain ⟨hpair, hrest⟩ := List.forall_mem_cons.mp hrated
    obtain ⟨i, hi⟩ := exists_index hpair.1
    obtain ⟨j, hj⟩ := exists_index hpair.2
    obtain rfl : pair = ((i : ℤ), (j : ℤ)) := Prod.ext hi.symm hj.symm
    simp only [List.count_cons, sum_add_distrib, ih hrest, sum_pair_eq, List.length_cons]

/-- The mass of an entry. -/
def massOf (pairs : List (ℤ × ℤ)) (i j : Fin 4) : ℚ := confusionMatrix pairs i j / pairs.length

theorem sum_massOf (hrated : Rated pairs) (hne : pairs ≠ []) : ∑ i, ∑ j, massOf pairs i j = 1 := by
  have hlength : (pairs.length : ℚ) ≠ 0 :=
    Nat.cast_ne_zero.mpr fun h => hne (List.length_eq_zero_iff.mp h)
  simp only [massOf, ← sum_div, ← Nat.cast_sum, sum_confusionMatrix hrated]
  exact div_self hlength

/-- The joint distribution of the ratings. -/
def jointOf (pairs : List (ℤ × ℤ)) (hrated : Rated pairs) (hne : pairs ≠ []) : Joint (Fin 4) ℚ where
  mass := massOf pairs
  nonneg _ _ := div_nonneg (Nat.cast_nonneg _) (Nat.cast_nonneg _)
  total := sum_massOf hrated hne

/-! ## Kappas of the distribution -/

/-- The linear distance of two ratings. -/
def linear (i j : Fin 4) : ℚ := |(i : ℚ) - j| / 3

/-- The expected disagreement of independent raters with the same ratings. -/
def chance (d : Fin 4 → Fin 4 → ℚ) (pairs : List (ℤ × ℤ)) : ℚ :=
  ∑ i, ∑ j, d i j * ((∑ j, massOf pairs i j) * ∑ i, massOf pairs i j)

/-- The kappa of a distance. -/
def kappaFor (d : Fin 4 → Fin 4 → ℚ) (J : Joint (Fin 4) ℚ) : Option ℚ :=
  if J.independent.expect d < tolerance then none else some (J.beyondChance d)

theorem kappaOf_eq (J : Joint (Fin 4) ℚ) (hd : ∀ i j, 0 ≤ d i j) {pO pE : ℚ}
    (hO : pO = 1 - J.expect d) (hE : pE = 1 - J.independent.expect d) :
    kappaOf pO pE = kappaFor d J := by
  subst hO hE
  have hchance := J.independent.expect_nonneg hd
  rw [kappaOf, kappaFor, sub_sub_cancel, abs_of_nonneg hchance, Joint.beyondChance]
  congr 3
  ring

theorem differs_nonneg (i j : Fin 4) : 0 ≤ (Joint.differs i j : ℚ) := by
  unfold Joint.differs
  split <;> norm_num

theorem linear_nonneg (i j : Fin 4) : 0 ≤ linear i j := by
  unfold linear
  positivity

/-- `_kappa` on the ratings of the scale. -/
theorem kappa_eq (hrated : Rated pairs) (hne : pairs ≠ []) :
    kappa pairs = (kappaFor Joint.differs (jointOf pairs hrated hne),
      kappaFor linear (jointOf pairs hrated hne)) := by
  have hlength : pairs.length ≠ 0 := fun h => hne (List.length_eq_zero_iff.mp h)
  unfold kappa
  simp only [sum_confusionMatrix hrated, if_neg hlength]
  congr 1
  · apply kappaOf_eq _ differs_nonneg
    · rw [Joint.expect_differs, sub_sub_cancel, Nat.cast_sum, sum_div]
      rfl
    · rw [Joint.expect_differs, sub_sub_cancel]
      simp only [Nat.cast_sum, sum_div]
      rfl
  · have hone (J : Joint (Fin 4) ℚ) :
        J.expect weight = 1 - J.expect linear := by
      rw [← J.expect_const 1, ← J.expect_sub]
      rfl
    apply kappaOf_eq _ linear_nonneg
    · rw [← hone]
      simp only [mul_div_assoc]
      rfl
    · rw [← hone]
      simp only [Nat.cast_sum, sum_div, mul_assoc]
      rfl

/-! ## Ratings of one kind -/

/-- Every pair is the same single rating on both sides. -/
def Constant (pairs : List (ℤ × ℤ)) : Prop := ∃ rating, ∀ pair ∈ pairs, pair = (rating, rating)

theorem massOf_eq_zero_iff (hne : pairs ≠ []) (i j : Fin 4) :
    massOf pairs i j = 0 ↔ ((i : ℤ), (j : ℤ)) ∉ pairs := by
  have hlength : (pairs.length : ℚ) ≠ 0 :=
    Nat.cast_ne_zero.mpr fun h => hne (List.length_eq_zero_iff.mp h)
  rw [massOf, div_eq_zero_iff, or_iff_left hlength, Nat.cast_eq_zero, confusionMatrix_apply,
    List.count_eq_zero]

/-- A mass is certain, or falls short by the weight of a pair. -/
theorem eq_one_or_le {k n : ℕ} (hle : k ≤ n) (hn : n ≠ 0) :
    (k : ℚ) / n = 1 ∨ (k : ℚ) / n ≤ 1 - 1 / n := by
  have hpos : (0 : ℚ) < n := Nat.cast_pos.mpr (Nat.pos_of_ne_zero hn)
  rcases Nat.lt_or_eq_of_le hle with hlt | rfl
  · right
    have hcast : (k : ℚ) + 1 ≤ n := by exact_mod_cast hlt
    rw [div_le_iff₀ hpos, sub_mul, div_mul_cancel₀ _ hpos.ne']
    linarith
  · left
    exact div_self hpos.ne'

/-- Ratings that are not constant differ by chance. -/
theorem le_chance_differs (hrated : Rated pairs) (hne : pairs ≠ []) (hnot : ¬Constant pairs) :
    1 / (pairs.length : ℚ) ≤ (jointOf pairs hrated hne).independent.expect Joint.differs := by
  have hlength : pairs.length ≠ 0 := fun h => hne (List.length_eq_zero_iff.mp h)
  have htotal := sum_confusionMatrix hrated
  apply Joint.le_independent_expect_differs
  · intro i
    have hfirst : (jointOf pairs hrated hne).first i =
        ((∑ j, confusionMatrix pairs i j : ℕ) : ℚ) / pairs.length := by
      rw [Nat.cast_sum, sum_div]
      rfl
    rw [hfirst]
    apply eq_one_or_le _ hlength
    rw [← htotal]
    exact single_le_sum (f := fun i => ∑ j, confusionMatrix pairs i j) (fun _ _ => Nat.zero_le _)
      (mem_univ i)
  · intro j
    have hsecond : (jointOf pairs hrated hne).second j =
        ((∑ i, confusionMatrix pairs i j : ℕ) : ℚ) / pairs.length := by
      rw [Nat.cast_sum, sum_div]
      rfl
    rw [hsecond]
    apply eq_one_or_le _ hlength
    rw [← htotal, sum_comm]
    exact single_le_sum (f := fun j => ∑ i, confusionMatrix pairs i j) (fun _ _ => Nat.zero_le _)
      (mem_univ j)
  · rintro ⟨i, hfirst, hsecond⟩
    apply hnot
    refine ⟨i, fun pair hpair => ?_⟩
    obtain ⟨a, ha⟩ := exists_index (hrated pair hpair).1
    obtain ⟨b, hb⟩ := exists_index (hrated pair hpair).2
    have hmem : ((a : ℤ), (b : ℤ)) ∈ pairs := by rwa [ha, hb]
    have hmass : (jointOf pairs hrated hne).mass a b ≠ 0 := fun hzero =>
      (massOf_eq_zero_iff hne a b).mp hzero hmem
    obtain rfl : a = i := by
      by_contra ha
      exact hmass (Joint.mass_eq_zero_of_first _ hfirst ha b)
    obtain rfl : b = a := by
      by_contra hb
      exact hmass (Joint.mass_eq_zero_of_second _ hsecond hb a)
    exact Prod.ext ha.symm hb.symm

/-- Constant ratings do not differ by chance. -/
theorem chance_eq_zero (hrated : Rated pairs) (hne : pairs ≠ []) (hconstant : Constant pairs)
    (hd : ∀ i j, 0 ≤ d i j) (hzero : ∀ i, d i i = 0) :
    (jointOf pairs hrated hne).independent.expect d = 0 := by
  obtain ⟨rating, hall⟩ := hconstant
  obtain ⟨pair, hpair⟩ := List.exists_mem_of_ne_nil pairs hne
  obtain ⟨c, hc⟩ := exists_index (hrated pair hpair).1
  obtain rfl : (c : ℤ) = rating := hc.trans (congrArg Prod.fst (hall pair hpair))
  have hmass {a b : Fin 4} (hab : ¬(a = c ∧ b = c)) : massOf pairs a b = 0 := by
    rw [massOf_eq_zero_iff hne]
    intro hmem
    have heq := Prod.mk.inj (hall _ hmem)
    apply hab
    omega
  rw [Joint.expect_eq_zero_iff _ hd]
  intro i j
  by_cases hi : i = c
  · by_cases hj : j = c
    · left
      rw [hi, hj, hzero]
    · right
      apply mul_eq_zero_of_right
      exact sum_eq_zero fun a _ => hmass fun h => hj h.2
  · right
    apply mul_eq_zero_of_left
    exact sum_eq_zero fun b _ => hmass fun h => hi h.1

/-! ## Laws -/

/-- A distance that is at most twice as large as by chance, and at least `1 / m` between ratings
that differ. -/
structure IsDistance (d : Fin 4 → Fin 4 → ℚ) (m : ℕ) : Prop where
  nonneg : ∀ i j, 0 ≤ d i j
  self : ∀ i, d i i = 0
  large : ∀ i j, Joint.differs i j ≤ m * d i j
  bounded : ∀ J : Joint (Fin 4) ℚ, J.expect d ≤ 2 * J.independent.expect d

theorem isDistance_differs : IsDistance Joint.differs 1 where
  nonneg := differs_nonneg
  self i := if_pos rfl
  large i j := by rw [Nat.cast_one, one_mul]
  bounded J := J.expect_differs_le

theorem isDistance_linear : IsDistance linear 3 where
  nonneg := linear_nonneg
  self i := by simp [linear]
  large := by decide +kernel
  bounded J := J.expect_abs_sub_le (by norm_num)

variable {m : ℕ}

theorem IsDistance.eq_zero_iff (h : IsDistance d m) {i j : Fin 4} : d i j = 0 ↔ i = j := by
  constructor
  · intro hzero
    by_contra hne
    have hlarge := h.large i j
    rw [hzero, mul_zero, Joint.differs, if_neg hne] at hlarge
    norm_num at hlarge
  · rintro rfl
    exact h.self i

/-- What holds of the kappa of a distance. -/
structure KappaLaws (d : Fin 4 → Fin 4 → ℚ) (m : ℕ) (pairs : List (ℤ × ℤ)) (kappa : Option ℚ) :
    Prop where
  bounds : ∀ value, kappa = some value → -1 ≤ value ∧ value ≤ 1
  complete : ∀ value, kappa = some value → (value = 1 ↔ ∀ pair ∈ pairs, pair.1 = pair.2)
  eq_none_iff : kappa = none ↔ chance d pairs < tolerance
  eq_none_of_constant : Constant pairs → kappa = none
  constant_of_eq_none : m * pairs.length ≤ 10 ^ 12 → kappa = none → Constant pairs

theorem tolerance_pos : 0 < tolerance := by norm_num [tolerance]

/-- With few pairs, the chance of a disagreement is nothing or at least the tolerance. -/
theorem tolerance_le_chance (h : IsDistance d m) (hrated : Rated pairs) (hne : pairs ≠ [])
    (hfew : m * pairs.length ≤ 10 ^ 12) (hnot : ¬Constant pairs) :
    tolerance ≤ (jointOf pairs hrated hne).independent.expect d := by
  have hlength : (0 : ℚ) < pairs.length :=
    Nat.cast_pos.mpr (Nat.pos_of_ne_zero fun h => hne (List.length_eq_zero_iff.mp h))
  have hdiffers := le_chance_differs hrated hne hnot
  have hlarge : (jointOf pairs hrated hne).independent.expect Joint.differs ≤
      m * (jointOf pairs hrated hne).independent.expect d := by
    rw [← Joint.expect_const_mul]
    exact Joint.expect_mono _ h.large
  have hscaled := hdiffers.trans hlarge
  rw [div_le_iff₀ hlength] at hscaled
  have hcast : (m : ℚ) * pairs.length ≤ 10 ^ 12 := by exact_mod_cast hfew
  have hnonneg := Joint.expect_nonneg (jointOf pairs hrated hne).independent h.nonneg
  rw [tolerance, div_le_iff₀ (by norm_num)]
  nlinarith

/-- Agreement is complete when no pair differs. -/
theorem forall_eq_iff (hrated : Rated pairs) (hne : pairs ≠ []) (h : IsDistance d m) :
    (∀ i j, d i j = 0 ∨ massOf pairs i j = 0) ↔ ∀ pair ∈ pairs, pair.1 = pair.2 := by
  simp only [h.eq_zero_iff, massOf_eq_zero_iff hne]
  constructor
  · intro hall pair hpair
    obtain ⟨i, hi⟩ := exists_index (hrated pair hpair).1
    obtain ⟨j, hj⟩ := exists_index (hrated pair hpair).2
    have hmem : ((i : ℤ), (j : ℤ)) ∈ pairs := by rwa [hi, hj]
    rcases hall i j with hij | hnot
    · rw [← hi, ← hj, hij]
    · exact absurd hmem hnot
  · intro hall i j
    by_cases hmem : ((i : ℤ), (j : ℤ)) ∈ pairs
    · left
      have hij : (i : ℤ) = j := hall _ hmem
      omega
    · exact Or.inr hmem

theorem kappaLaws_kappaFor (h : IsDistance d m) (hrated : Rated pairs) (hne : pairs ≠ []) :
    KappaLaws d m pairs (kappaFor d (jointOf pairs hrated hne)) := by
  have hiff : kappaFor d (jointOf pairs hrated hne) = none ↔ chance d pairs < tolerance := by
    change _ ↔ (jointOf pairs hrated hne).independent.expect d < tolerance
    unfold kappaFor
    split <;> simp_all
  have hsome (value : ℚ) (hvalue : kappaFor d (jointOf pairs hrated hne) = some value) :
      0 < (jointOf pairs hrated hne).independent.expect d ∧
        value = (jointOf pairs hrated hne).beyondChance d := by
    unfold kappaFor at hvalue
    split at hvalue
    · cases hvalue
    · next hlarge =>
      push Not at hlarge
      exact ⟨tolerance_pos.trans_le hlarge, (Option.some.inj hvalue).symm⟩
  constructor
  · intro value hvalue
    obtain ⟨hpos, rfl⟩ := hsome value hvalue
    exact ⟨Joint.neg_one_le_beyondChance hpos (h.bounded _),
      Joint.beyondChance_le_one hpos h.nonneg⟩
  · intro value hvalue
    obtain ⟨hpos, rfl⟩ := hsome value hvalue
    rw [Joint.beyondChance_eq_one_iff hpos h.nonneg]
    exact forall_eq_iff hrated hne h
  · exact hiff
  · intro hconstant
    rw [hiff]
    have hzero : chance d pairs = 0 := chance_eq_zero hrated hne hconstant h.nonneg h.self
    rw [hzero]
    exact tolerance_pos
  · intro hfew hnone
    by_contra hnot
    exact absurd (hiff.mp hnone) (not_lt.mpr (tolerance_le_chance h hrated hne hfew hnot))

/-! ## Order and sides -/

theorem kappa_perm (h : pairs'.Perm pairs) : kappa pairs' = kappa pairs := by
  rw [kappa, confusionMatrix_perm h]
  rfl

theorem weight_comm (i j : Fin 4) : weight i j = weight j i := by
  rw [weight, weight, abs_sub_comm]

theorem kappa_swap (pairs : List (ℤ × ℤ)) : kappa (pairs.map Prod.swap) = kappa pairs := by
  have hn : ∑ i, ∑ j, confusionMatrix pairs j i = ∑ i, ∑ j, confusionMatrix pairs i j := sum_comm
  unfold kappa
  simp only [confusionMatrix_swap, hn]
  by_cases hzero : ∑ i, ∑ j, confusionMatrix pairs i j = 0
  · rw [if_pos hzero, if_pos hzero]
  · rw [if_neg hzero, if_neg hzero]
    generalize ((∑ i, ∑ j, confusionMatrix pairs i j : ℕ) : ℚ) = n
    congr 1
    · congr 1
      exact sum_congr rfl fun i _ => mul_comm _ _
    · congr 1
      · rw [sum_comm]
        simp only [weight_comm]
      · rw [sum_comm]
        apply sum_congr rfl
        intro i _
        apply sum_congr rfl
        intro j _
        rw [weight_comm]
        ring

/-- Of ratings on the scale, both kappas depend neither on the order of the pairs nor on which
rater comes first; they lie between `-1` and `1`, are `1` when all pairs agree, and are left out
when the chance of a disagreement is below the tolerance. With few pairs, that is when every pair
is the same single rating; then there is the warning. -/
theorem computeCalibration_laws (pairs : List (ℤ × ℤ)) (hrated : Rated pairs)
    (hne : pairs ≠ []) :
    (∀ pairs', pairs'.Perm pairs ∨ pairs' = pairs.map Prod.swap →
      (computeCalibration pairs').cohensKappa = (computeCalibration pairs).cohensKappa ∧
        (computeCalibration pairs').weightedKappa = (computeCalibration pairs).weightedKappa) ∧
    KappaLaws Joint.differs 1 pairs (computeCalibration pairs).cohensKappa ∧
    KappaLaws linear 3 pairs (computeCalibration pairs).weightedKappa ∧
    ((computeCalibration pairs).warning = some "no rating variance" ↔
      (computeCalibration pairs).cohensKappa = none ∧
        (computeCalibration pairs).weightedKappa = none) := by
  refine ⟨?_, ?_, ?_, ?_⟩
  · rintro pairs' (hperm | rfl)
    · simp only [computeCalibration, kappa_perm hperm, and_self]
    · simp only [computeCalibration, kappa_swap, and_self]
  · simp only [computeCalibration, kappa_eq hrated hne]
    exact kappaLaws_kappaFor isDistance_differs hrated hne
  · simp only [computeCalibration, kappa_eq hrated hne]
    exact kappaLaws_kappaFor isDistance_linear hrated hne
  · simp [computeCalibration, hne]

/-- Two raters that never agree. -/
theorem computeCalibration_laws_opposed :
    (∀ pairs', pairs'.Perm [(0, 3), (3, 0)] ∨ pairs' = [(0, 3), (3, 0)].map Prod.swap →
      (computeCalibration pairs').cohensKappa =
          (computeCalibration [(0, 3), (3, 0)]).cohensKappa ∧
        (computeCalibration pairs').weightedKappa =
          (computeCalibration [(0, 3), (3, 0)]).weightedKappa) ∧
    KappaLaws Joint.differs 1 [(0, 3), (3, 0)]
      (computeCalibration [(0, 3), (3, 0)]).cohensKappa ∧
    KappaLaws linear 3 [(0, 3), (3, 0)] (computeCalibration [(0, 3), (3, 0)]).weightedKappa ∧
    ((computeCalibration [(0, 3), (3, 0)]).warning = some "no rating variance" ↔
      (computeCalibration [(0, 3), (3, 0)]).cohensKappa = none ∧
        (computeCalibration [(0, 3), (3, 0)]).weightedKappa = none) :=
  computeCalibration_laws [(0, 3), (3, 0)] (by simp [Rated, InScale]) (by simp)

/-! ## Large samples -/

/-- A sample with one disagreement. -/
def nearlyConstant (k : ℕ) : List (ℤ × ℤ) := List.replicate k (0, 0) ++ [(0, 1)]

theorem rated_nearlyConstant (k : ℕ) : Rated (nearlyConstant k) := by
  intro pair hpair
  rcases List.mem_append.mp hpair with hmem | hmem
  · rw [List.eq_of_mem_replicate hmem]
    exact inScale_cast 0 0
  · rw [List.mem_singleton.mp hmem]
    exact inScale_cast 0 1

theorem massOf_nearlyConstant (k : ℕ) (i j : Fin 4) :
    massOf (nearlyConstant k) i j =
      if i = 0 ∧ j = 0 then (k : ℚ) / (k + 1) else if i = 0 ∧ j = 1 then 1 / ((k : ℚ) + 1) else 0 := by
  have hlength : (nearlyConstant k).length = k + 1 := by
    rw [nearlyConstant, List.length_append, List.length_replicate, List.length_singleton]
  rw [massOf, hlength, confusionMatrix_apply, nearlyConstant, List.count_append,
    List.count_replicate, List.count_singleton]
  fin_cases i <;> fin_cases j <;> simp

theorem chance_nearlyConstant (k : ℕ) :
    chance Joint.differs (nearlyConstant k) = 1 / (k + 1) := by
  have hk : (k : ℚ) + 1 ≠ 0 := by positivity
  simp only [chance, massOf_nearlyConstant, Fin.sum_univ_four, Joint.differs]
  simp
  field_simp

/-- Cohen's kappa of a large sample is left out although two ratings occur. -/
theorem not_cohensKappa_eq_none_iff :
    ¬∀ pairs, Rated pairs → pairs ≠ [] →
      ((computeCalibration pairs).cohensKappa = none ↔ Constant pairs) := by
  intro hall
  obtain ⟨k, hk⟩ : ∃ k : ℕ, k = 10 ^ 12 := ⟨_, rfl⟩
  have hne : nearlyConstant k ≠ [] := by simp [nearlyConstant]
  have hrated := rated_nearlyConstant k
  have hnone : (computeCalibration (nearlyConstant k)).cohensKappa = none := by
    simp only [computeCalibration, kappa_eq hrated hne]
    rw [(kappaLaws_kappaFor isDistance_differs hrated hne).eq_none_iff, chance_nearlyConstant,
      tolerance, hk]
    norm_num
  obtain ⟨rating, hconstant⟩ := (hall (nearlyConstant k) hrated hne).mp hnone
  have hmem : ((0, 1) : ℤ × ℤ) ∈ nearlyConstant k := by simp [nearlyConstant]
  have heq := Prod.mk.inj (hconstant _ hmem)
  omega

end RelyLoop.Eval
