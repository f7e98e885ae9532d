import RelyLoop.Spaces.Starter
import Mathlib.Tactic.Ring

/-!
# The size of a fallback

Each float that the fallback converts replaces a factor of 100 by one of 6. How many names are
converted depends only on the number of floats and on the other factors; which ones, on the order.
-/

namespace RelyLoop.Spaces

open Python

/-! ## Sizes -/

/-- The size of a space in which some floats are converted. -/
def sizeAfter (params : Dict String ParamSpec) (converted : ℕ) : ℕ :=
  ((params.entries.filter fun e => !e.2.isFloat).map fun e => e.2.size).prod * 6 ^ converted *
    100 ^ ((floatNames params).length - converted)

/-- The space is over the cap even with every float converted. -/
def Exhausts (params : Dict String ParamSpec) : Prop :=
  cardinalityCap < estimateCardinality (discretiseFloats params)

variable {params params' start : Dict String ParamSpec} {order : List String} {k : ℕ}

theorem ParamSpec.one_le_size (spec : ParamSpec) : 1 ≤ spec.size := by
  cases spec with
  | float p => exact Nat.one_le_ofNat
  | int p =>
    have hbounds := p.bounds
    rw [size]
    omega
  | categorical p => exact List.length_pos_iff.mpr p.nonempty
  | normalizerPipeline p => exact Nat.one_le_two_pow

theorem size_of_isFloat {spec : ParamSpec} (h : spec.isFloat = true) : spec.size = 100 := by
  cases spec with
  | float p => rfl
  | int p => cases h
  | categorical p => cases h
  | normalizerPipeline p => cases h

theorem estimateCardinality_eq_sizeAfter (params : Dict String ParamSpec) :
    estimateCardinality params = sizeAfter params 0 := by
  have hsplit (entries : List (String × ParamSpec)) : (entries.map fun e => e.2.size).prod =
      ((entries.filter fun e => !e.2.isFloat).map fun e => e.2.size).prod *
        100 ^ (entries.filter fun e => e.2.isFloat).length := by
    induction entries with
    | nil => rfl
    | cons e entries ih =>
      cases hfloat : e.2.isFloat with
      | true =>
        rw [List.map_cons, List.prod_cons, size_of_isFloat hfloat, ih,
          List.filter_cons_of_neg (by simp [hfloat]),
          List.filter_cons_of_pos (by simp [hfloat]), List.length_cons, pow_succ]
        ring
      | false =>
        rw [List.map_cons, List.prod_cons, ih, List.filter_cons_of_pos (by simp [hfloat]),
          List.filter_cons_of_neg (by simp [hfloat]), List.map_cons, List.prod_cons, mul_assoc]
  rw [sizeAfter, pow_zero, mul_one, Nat.sub_zero, floatNames, List.length_map]
  exact hsplit params.entries

theorem sizeAfter_succ {converted : ℕ} (h : converted < (floatNames params).length) :
    100 * sizeAfter params (converted + 1) = 6 * sizeAfter params converted := by
  have hleft : (floatNames params).length - converted =
      ((floatNames params).length - (converted + 1)) + 1 := by omega
  rw [sizeAfter, sizeAfter, hleft, pow_succ, pow_succ]
  ring

/-- Converting more floats makes the space no larger. -/
theorem sizeAfter_le {converted converted' : ℕ} (hle : converted ≤ converted')
    (h : converted' ≤ (floatNames params).length) :
    sizeAfter params converted' ≤ sizeAfter params converted := by
  induction converted', hle using Nat.le_induction with
  | base => exact le_rfl
  | succ converted' hle ih =>
    have hstep := sizeAfter_succ h
    have hbefore := ih (by omega)
    omega

/-- A float that is converted replaces a factor of 100 by one of 6. -/
theorem estimateCardinality_set {name : String} {p : FloatParam}
    (hget : params.get? name = some (.float p)) :
    100 * estimateCardinality (params.set name smallIntParam) = 6 * estimateCardinality params := by
  obtain ⟨before, after, hentries⟩ :=
    List.append_of_mem ((Dict.get?_eq_some_iff params name _).mp hget)
  have hsmall : smallIntParam.size = 6 := rfl
  have hfloat : (ParamSpec.float p).size = 100 := rfl
  rw [estimateCardinality, estimateCardinality, Dict.entries_set_of_append hentries, hentries]
  simp only [List.map_append, List.map_cons, List.prod_append, List.prod_cons, hsmall, hfloat]
  ring

/-- The size depends on the number of the names that are converted. -/
theorem estimateCardinality_discretise_take (horder : order.Perm (floatNames params))
    (hk : k ≤ order.length) :
    estimateCardinality (discretise (order.take k) params) = sizeAfter params k := by
  induction k with
  | zero => rw [List.take_zero, discretise_nil, estimateCardinality_eq_sizeAfter]
  | succ k ih =>
    have hlt : k < order.length := hk
    have hnodup : order.Nodup := horder.nodup_iff.mpr (nodup_floatNames params)
    obtain ⟨p, hp⟩ := mem_floatNames.mp (horder.subset (List.getElem_mem hlt))
    have hnew : order[k] ∉ order.take k := by
      intro hmem
      have happend := hnodup.sublist (List.take_sublist (k + 1) order)
      rw [← List.take_concat_get' order k hlt, List.nodup_append] at happend
      exact happend.2.2 _ hmem _ (List.mem_singleton_self _) rfl
    have hget : (discretise (order.take k) params).get? order[k] = some (.float p) := by
      rw [discretise, Dict.get?_mapItems, hp, Option.map_some, if_neg hnew]
    have hset := estimateCardinality_set hget
    rw [set_smallIntParam (Dict.mem_keys_of_get? hget), discretise_discretise,
      List.take_concat_get', ih hlt.le] at hset
    have hsucc : 100 * sizeAfter params (k + 1) = 6 * sizeAfter params k :=
      sizeAfter_succ (by rwa [← horder.length_eq])
    omega

/-! ## Fallbacks -/

/-- The result of a fallback in an order: the names that are converted while the space is over the
cap, and the parameters with these names converted. -/
structure FallsBack (start : Dict String ParamSpec) (order : List String)
    (params : Dict String ParamSpec) (converted : List String) : Prop where
  names : ∀ j, converted[j]? = if cardinalityCap < sizeAfter start j then order[j]? else none
  params_eq : params = discretise converted start

/-- The shortest prefix under the cap has the names that are converted over the cap. -/
theorem fallsBack_take (horder : order.Perm (floatNames start)) (hk : k ≤ order.length)
    (hbefore : ∀ j < k, cardinalityCap < estimateCardinality (discretise (order.take j) start))
    (hafter : estimateCardinality (discretise (order.take k) start) ≤ cardinalityCap) :
    FallsBack start order (discretise (order.take k) start) (order.take k) := by
  refine ⟨fun j => ?_, rfl⟩
  rw [List.getElem?_take]
  by_cases hj : j < k
  · have hover := hbefore j hj
    rw [estimateCardinality_discretise_take horder (by omega)] at hover
    rw [if_pos hj, if_pos hover]
  · rw [if_neg hj]
    by_cases hlater : j < order.length
    · rw [estimateCardinality_discretise_take horder hk] at hafter
      have hle : sizeAfter start j ≤ sizeAfter start k :=
        sizeAfter_le (not_lt.mp hj) (by rw [← horder.length_eq]; omega)
      rw [if_neg (not_lt.mpr (hle.trans hafter))]
    · rw [List.getElem?_eq_none (not_lt.mp hlater), ite_self]

theorem discretise_of_perm (horder : order.Perm (floatNames params)) :
    discretise order params = discretiseFloats params := by
  apply Dict.ext
  apply List.map_congr_left
  intro e he
  have hget : params.get? e.1 = some e.2 := (params.get?_eq_some_iff e.1 e.2).mpr he
  have hfloat : e.1 ∈ order ↔ e.2.isFloat = true := by
    rw [horder.mem_iff, mem_floatNames, hget]
    cases e.2 <;> simp [ParamSpec.isFloat]
  simp only [hfloat]

/-- A space that some prefix brings under the cap is not exhausted. -/
theorem not_exhausts_of_le (horder : order.Perm (floatNames start))
    (h : estimateCardinality (discretise (order.take k) start) ≤ cardinalityCap) :
    ¬Exhausts start := by
  rw [Exhausts, not_lt, ← discretise_of_perm horder]
  apply (estimateCardinality_discretise_le (List.take_subset k order) _).trans h
  intro name hname spec hspec
  obtain ⟨p, hp⟩ := mem_floatNames.mp (horder.subset hname)
  obtain rfl := Option.some.inj (hspec.symm.trans hp)
  rfl

/-- A space with more parameters is exhausted as well. -/
theorem Exhausts.of_sublist (h : Exhausts params) (hsub : params.entries.Sublist params'.entries) :
    Exhausts params' := by
  have hsizes (params : Dict String ParamSpec) : estimateCardinality (discretiseFloats params) =
      (params.entries.map fun e => (if e.2.isFloat then smallIntParam else e.2).size).prod := by
    rw [estimateCardinality, discretiseFloats, Dict.mapItems, List.map_map]
    rfl
  rw [Exhausts, hsizes] at h ⊢
  apply h.trans_le
  apply (hsub.map _).prod_le_prod'
  intro size hsize
  obtain ⟨e, -, rfl⟩ := List.mem_map.mp hsize
  exact ParamSpec.one_le_size _

theorem perm_fallbackOrder (params : Dict String ParamSpec) :
    (fallbackOrder params).Perm (floatNames params) := by
  have hsorted (names : List String) : (sortedNames names).Perm names := List.perm_insertionSort _ _
  have hsplit := List.filter_append_perm regexMatched (floatNames params)
  exact (((hsorted _).append (hsorted _)).trans List.perm_append_comm).trans hsplit

/-- The starter space falls back in its order, or raises. -/
theorem buildStarterSearchSpace_spec {declaredParams : Dict String String}
    (hne : declaredParams.entries ≠ []) :
    (¬Exhausts (declaredParams.mapItems starterSpec) ∧
      ∃ starter, buildStarterSearchSpace declaredParams = .ok starter ∧
        FallsBack (declaredParams.mapItems starterSpec)
          (fallbackOrder (declaredParams.mapItems starterSpec)) starter.space.params
          starter.capAwareFallbackParamNames) ∨
      (Exhausts (declaredParams.mapItems starterSpec) ∧
        ∃ e, buildStarterSearchSpace declaredParams = .error e) := by
  have hperm := perm_fallbackOrder (declaredParams.mapItems starterSpec)
  obtain ⟨k, hk, hbefore, ⟨space, hok, hparams⟩ | ⟨herror, hbig⟩⟩ :=
    buildStarterSearchSpace_eq hne
  · have hafter := space.capped
    rw [hparams] at hafter
    refine Or.inl ⟨not_exhausts_of_le hperm hafter, _, hok, ?_⟩
    rw [hparams]
    exact fallsBack_take hperm hk hbefore hafter
  · exact Or.inr ⟨hbig, herror⟩

end RelyLoop.Spaces
