import RelyLoop.Spaces.Defaults
import Mathlib.Algebra.Order.BigOperators.Group.List
import Mathlib.Data.String.Basic

/-!
# The cap of a starter space

The loop of `build_starter_search_space` replaces floats by a small range of integers until the
space is under the cap. It replaces the shortest prefix of its candidates that does, and the
builder raises only when replacing all floats is not enough.
-/

namespace RelyLoop.Spaces

open Python

/-- The parameters with the given ones discretised. -/
def discretise (names : List String) (params : Dict String ParamSpec) : Dict String ParamSpec :=
  params.mapItems fun name spec => if name ∈ names then smallIntParam else spec

/-- The parameters with every float discretised. -/
def discretiseFloats (params : Dict String ParamSpec) : Dict String ParamSpec :=
  params.mapItems fun _ spec => if spec.isFloat then smallIntParam else spec

variable {params : Dict String ParamSpec} {names names' order : List String} {name : String}
  {declaredParams : Dict String String}

/-! ## Discretised parameters -/

theorem entries_discretise (names : List String) (params : Dict String ParamSpec) :
    (discretise names params).entries =
      params.entries.map fun e => (e.1, if e.1 ∈ names then smallIntParam else e.2) := rfl

@[simp] theorem keys_discretise (names : List String) (params : Dict String ParamSpec) :
    (discretise names params).keys = params.keys :=
  Dict.keys_mapItems _ params

@[simp] theorem discretise_nil (params : Dict String ParamSpec) : discretise [] params = params := by
  apply Dict.ext
  simp [entries_discretise]

theorem discretise_discretise (names names' : List String) (params : Dict String ParamSpec) :
    discretise names' (discretise names params) = discretise (names ++ names') params := by
  apply Dict.ext
  rw [entries_discretise, entries_discretise, entries_discretise, List.map_map]
  refine List.map_congr_left fun e _ => ?_
  by_cases hname : e.1 ∈ names <;> by_cases hname' : e.1 ∈ names' <;> simp [hname, hname']

/-- One step of the loop. -/
theorem set_smallIntParam (h : name ∈ params.keys) :
    params.set name smallIntParam = discretise [name] params := by
  have hmem : name ∈ params.entries.map Prod.fst := h
  apply Dict.ext
  rw [Dict.set, dif_pos hmem, entries_discretise]
  refine List.map_congr_left fun e _ => ?_
  by_cases hname : e.1 = name <;> simp [hname]

theorem size_smallIntParam_le (p : FloatParam) :
    smallIntParam.size ≤ (ParamSpec.float p).size := by
  have hsmall : smallIntParam.size = 6 := rfl
  have hfloat : (ParamSpec.float p).size = 100 := rfl
  omega

/-- Discretising more floats makes no larger space. -/
theorem estimateCardinality_discretise_le (hsub : names ⊆ names')
    (hfloat : ∀ name ∈ names', ∀ spec, params.get? name = some spec → spec.isFloat = true) :
    estimateCardinality (discretise names' params) ≤
      estimateCardinality (discretise names params) := by
  rw [estimateCardinality, estimateCardinality, entries_discretise, entries_discretise,
    List.map_map, List.map_map]
  apply List.prod_le_prod'
  intro e he
  simp only [Function.comp_apply]
  by_cases hname : e.1 ∈ names
  · rw [if_pos hname, if_pos (hsub hname)]
  · rw [if_neg hname]
    by_cases hname' : e.1 ∈ names'
    · have hisFloat := hfloat e.1 hname' e.2 ((params.get?_eq_some_iff e.1 e.2).mpr he)
      obtain ⟨p, hp⟩ : ∃ p, e.2 = .float p := by
        cases hspec : e.2 <;> simp_all [ParamSpec.isFloat]
      rw [if_pos hname', hp]
      exact size_smallIntParam_le p
    · rw [if_neg hname']

/-! ## The loop -/

/-- The loop discretises the shortest prefix that brings the space under the cap, or all of its
candidates when none does. -/
theorem applyFallback_eq (horder : ∀ name ∈ order, name ∈ params.keys)
    (hbig : cardinalityCap < estimateCardinality params) :
    ∃ k ≤ order.length,
      applyFallback order params = (discretise (order.take k) params, order.take k) ∧
      (∀ j < k, cardinalityCap < estimateCardinality (discretise (order.take j) params)) ∧
      (k < order.length →
        estimateCardinality (discretise (order.take k) params) ≤ cardinalityCap) := by
  induction order generalizing params with
  | nil => exact ⟨0, le_rfl, by simp [applyFallback], by simp, by simp⟩
  | cons name order ih =>
    have hset := set_smallIntParam (horder name List.mem_cons_self)
    by_cases hsmall : estimateCardinality (discretise [name] params) ≤ cardinalityCap
    · refine ⟨1, by simp, ?_, ?_, fun _ => by simpa using hsmall⟩
      · simp [applyFallback, hset, hsmall]
      · intro j hj
        obtain rfl : j = 0 := by omega
        simpa using hbig
    · have hkeys : ∀ name' ∈ order, name' ∈ (discretise [name] params).keys := by
        intro name' hname'
        rw [keys_discretise]
        exact horder name' (List.mem_cons_of_mem name hname')
      obtain ⟨k, hk, heq, hbefore, hafter⟩ := ih hkeys (not_le.mp hsmall)
      simp only [discretise_discretise, List.singleton_append] at heq hbefore hafter
      refine ⟨k + 1, Nat.succ_le_succ hk, ?_, ?_, ?_⟩
      · simp [applyFallback, hset, hsmall, heq]
      · intro j hj
        cases j with
        | zero => simpa using hbig
        | succ j => exact hbefore j (Nat.lt_of_succ_lt_succ hj)
      · exact fun hlt => hafter (Nat.lt_of_succ_lt_succ hlt)

/-! ## The candidates -/

/-- The candidates: the floats that no rule made, in the order of their names, and behind them
those that a rule made. -/
structure IsFallbackOrder (params : Dict String ParamSpec) (fallThrough matched : List String) :
    Prop where
  fallThroughSorted : fallThrough.Pairwise (· < ·)
  matchedSorted : matched.Pairwise (· < ·)
  mem_fallThrough : ∀ name, name ∈ fallThrough ↔
    (∃ p, params.get? name = some (.float p)) ∧ regexMatched name = false
  mem_matched : ∀ name, name ∈ matched ↔
    (∃ p, params.get? name = some (.float p)) ∧ regexMatched name = true

/-- The names of the floats. -/
def floatNames (params : Dict String ParamSpec) : List String :=
  (params.entries.filter fun e => e.2.isFloat).map Prod.fst

theorem nodup_floatNames (params : Dict String ParamSpec) : (floatNames params).Nodup :=
  params.nodup.sublist (List.filter_sublist.map Prod.fst)

theorem mem_floatNames : name ∈ floatNames params ↔ ∃ p, params.get? name = some (.float p) := by
  simp only [floatNames, List.mem_map, List.mem_filter, Dict.get?_eq_some_iff]
  constructor
  · rintro ⟨⟨_, spec⟩, ⟨hmem, hisFloat⟩, rfl⟩
    cases spec with
    | float p => exact ⟨p, hmem⟩
    | _ => cases hisFloat
  · rintro ⟨p, hmem⟩
    exact ⟨(name, .float p), ⟨hmem, rfl⟩, rfl⟩

theorem pairwise_sortedNames (h : names.Nodup) : (sortedNames names).Pairwise (· < ·) := by
  have hsorted : (sortedNames names).Pairwise (· ≤ ·) := List.pairwise_insertionSort _ names
  have hnodup : (sortedNames names).Nodup := (List.perm_insertionSort _ names).nodup_iff.mpr h
  exact (hsorted.and hnodup).imp fun ⟨hle, hne⟩ => lt_of_le_of_ne hle hne

theorem isFallbackOrder (params : Dict String ParamSpec) :
    ∃ fallThrough matched, fallbackOrder params = fallThrough ++ matched ∧
      IsFallbackOrder params fallThrough matched := by
  have hnodup := nodup_floatNames params
  refine ⟨_, _, rfl, pairwise_sortedNames (hnodup.filter _), pairwise_sortedNames (hnodup.filter _),
    fun name => ?_, fun name => ?_⟩
  · rw [mem_sortedNames, List.mem_filter]
    exact and_congr mem_floatNames (by simp)
  · rw [mem_sortedNames, List.mem_filter]
    exact and_congr mem_floatNames Iff.rfl

theorem mem_fallbackOrder_iff :
    name ∈ fallbackOrder params ↔ ∃ p, params.get? name = some (.float p) := by
  obtain ⟨fallThrough, matched, heq, horder⟩ := isFallbackOrder params
  rw [heq, List.mem_append, horder.mem_fallThrough, horder.mem_matched, ← and_or_left]
  simp

/-- Discretising all candidates is discretising all floats. -/
theorem discretise_fallbackOrder (params : Dict String ParamSpec) :
    discretise (fallbackOrder params) params = discretiseFloats params := by
  apply Dict.ext
  rw [entries_discretise, discretiseFloats, Dict.mapItems]
  refine List.map_congr_left fun e he => ?_
  have hget : params.get? e.1 = some e.2 := (params.get?_eq_some_iff e.1 e.2).mpr he
  have hfloat : e.1 ∈ fallbackOrder params ↔ e.2.isFloat = true := by
    rw [mem_fallbackOrder_iff, hget]
    cases e.2 <;> simp [ParamSpec.isFloat]
  simp only [hfloat]

/-! ## The builder -/

/-- A space is made of parameters under the cap. -/
theorem SearchSpace.make_eq_ok (hnonempty : params.entries ≠ [])
    (hcap : estimateCardinality params ≤ cardinalityCap) :
    SearchSpace.make params = .ok ⟨params, hnonempty, hcap⟩ := by
  rw [make, dif_neg hnonempty, dif_pos hcap]

/-- The builder discretises the shortest sufficient prefix of its candidates, or raises. -/
theorem buildStarterSearchSpace_eq (h : declaredParams.entries ≠ []) :
    let start := declaredParams.mapItems starterSpec
    let order := fallbackOrder start
    ∃ k ≤ order.length,
      (∀ j < k, cardinalityCap < estimateCardinality (discretise (order.take j) start)) ∧
      ((∃ space, buildStarterSearchSpace declaredParams = .ok ⟨space, order.take k⟩ ∧
          space.params = discretise (order.take k) start) ∨
        (∃ e, buildStarterSearchSpace declaredParams = .error e) ∧
          cardinalityCap < estimateCardinality (discretiseFloats start)) := by
  intro start order
  have hstart : start.entries ≠ [] := fun hempty => h (List.map_eq_nil_iff.mp hempty)
  by_cases hsmall : estimateCardinality start ≤ cardinalityCap
  · refine ⟨0, Nat.zero_le _, fun j hj => absurd hj (Nat.not_lt_zero j), Or.inl ?_⟩
    refine ⟨⟨start, hstart, hsmall⟩, ?_, (discretise_nil start).symm⟩
    simp [buildStarterSearchSpace, h, start, hsmall, SearchSpace.make_eq_ok hstart hsmall,
      Except.map]
  · have hkeys : ∀ name ∈ order, name ∈ start.keys := fun name hname => by
      obtain ⟨p, hp⟩ := mem_fallbackOrder_iff.mp hname
      exact Dict.mem_keys_of_get? hp
    obtain ⟨k, hk, heq, hbefore, hafter⟩ := applyFallback_eq hkeys (not_le.mp hsmall)
    refine ⟨k, hk, hbefore, ?_⟩
    by_cases hfits : estimateCardinality (discretise (order.take k) start) ≤ cardinalityCap
    · have hnonempty : (discretise (order.take k) start).entries ≠ [] :=
        fun hempty => hstart (List.map_eq_nil_iff.mp hempty)
      refine Or.inl ⟨⟨_, hnonempty, hfits⟩, ?_, rfl⟩
      simp [buildStarterSearchSpace, h, start, order, hsmall, heq, hfits,
        SearchSpace.make_eq_ok hnonempty hfits, Except.map]
    · have hall : k = order.length := le_antisymm hk (not_lt.mp fun hlt => hfits (hafter hlt))
      refine Or.inr ⟨?_, ?_⟩
      · simp [buildStarterSearchSpace, h, start, order, hsmall, heq, hfits]
      · rw [← discretise_fallbackOrder, ← List.take_length (l := fallbackOrder start), ← hall]
        exact not_le.mp hfits

/-- What the builder does with its candidates: a space that it returns has the declared names and
is under the cap, and the floats discretised in it are the shortest prefix that suffices. It raises
exactly when discretising all floats does not. -/
structure DiscretisesShortestPrefix (declaredParams : Dict String String)
    (fallThrough matched : List String) : Prop where
  candidates : IsFallbackOrder (declaredParams.mapItems starterSpec) fallThrough matched
  returns : ∀ starter, buildStarterSearchSpace declaredParams = .ok starter →
    starter.space.params.keys = declaredParams.keys ∧
    estimateCardinality starter.space.params ≤ cardinalityCap ∧
    ∃ k ≤ (fallThrough ++ matched).length,
      starter.space.params =
        discretise ((fallThrough ++ matched).take k) (declaredParams.mapItems starterSpec) ∧
      starter.capAwareFallbackParamNames = (fallThrough ++ matched).take k ∧
      ∀ j < k, cardinalityCap < estimateCardinality
        (discretise ((fallThrough ++ matched).take j) (declaredParams.mapItems starterSpec))
  raises : (∃ e, buildStarterSearchSpace declaredParams = .error e) ↔
    cardinalityCap <
      estimateCardinality (discretiseFloats (declaredParams.mapItems starterSpec))

/-- Declared names lead to such a space or to an exception. -/
theorem starter_discretises_shortest_prefix (declaredParams : Dict String String)
    (h : declaredParams.entries ≠ []) :
    ∃ fallThrough matched, DiscretisesShortestPrefix declaredParams fallThrough matched := by
  obtain ⟨fallThrough, matched, horder, hcandidates⟩ :=
    isFallbackOrder (declaredParams.mapItems starterSpec)
  obtain ⟨k, hk, hbefore, hcases⟩ := buildStarterSearchSpace_eq h
  rw [horder] at hk hcases
  simp only [horder] at hbefore
  rcases hcases with ⟨space, hok, hparams⟩ | ⟨⟨e, herror⟩, hbig⟩
  · refine ⟨fallThrough, matched, hcandidates, ?_, ?_⟩
    · intro starter hstarter
      obtain rfl := Except.ok.inj (hok.symm.trans hstarter)
      refine ⟨?_, space.capped, k, hk, hparams, rfl, hbefore⟩
      rw [hparams, keys_discretise, Dict.keys_mapItems]
    · have hfloat : ∀ name ∈ fallThrough ++ matched, ∀ spec,
          (declaredParams.mapItems starterSpec).get? name = some spec → spec.isFloat = true := by
        intro name hname spec hspec
        obtain ⟨p, hp⟩ := mem_fallbackOrder_iff.mp (horder ▸ hname)
        obtain rfl := Option.some.inj (hspec.symm.trans hp)
        rfl
      have hle := estimateCardinality_discretise_le (List.take_subset k _) hfloat
      rw [← hparams, ← horder, discretise_fallbackOrder] at hle
      constructor
      · rintro ⟨e, herror⟩
        rw [hok] at herror
        cases herror
      · intro hbig
        exact absurd (hbig.trans_le (hle.trans space.capped)) (lt_irrefl _)
  · refine ⟨fallThrough, matched, hcandidates, ?_, fun _ => hbig, fun _ => ⟨e, herror⟩⟩
    intro starter hstarter
    rw [herror] at hstarter
    cases hstarter

/-- Four floats are too many. -/
def fourFloats : Dict String String :=
  Dict.ofList [("d", "float"), ("title_boost", "float"), ("b", "float"), ("a", "float")]

theorem starter_discretises_shortest_prefix_fourFloats :
    fourFloats.entries ≠ [] ∧
      ∃ fallThrough matched, DiscretisesShortestPrefix fourFloats fallThrough matched :=
  ⟨by decide, starter_discretises_shortest_prefix fourFloats (by decide)⟩

end RelyLoop.Spaces
