import RelyLoop.Spaces.Fallback
import RelyLoop.Spaces.Wizard
import RelyLoop.Text.Ascii

/-!
# Two starter spaces

The browser and the server build the same starter space, unless a parameter is named `__proto__`
or the two orders of names differ among those that the fallback converts.
-/

namespace RelyLoop.Spaces

open Python Text EcmaScript

/-! ## The space of the wizard -/

namespace Wizard

variable {declaredParams : Dict String String} {params : Dict String ParamSpec}
  {order : List String}

/-- The object has the declared parameters, but for `__proto__`. -/
theorem starterParams_eq (hplain : ∀ name ∈ declaredParams.keys, IsPlainName name) :
    starterParams declaredParams =
      (declaredParams.erase "__proto__").mapItems Spaces.starterSpec := by
  rw [starterParams, objectEntries_of_forall fun name hname => (hplain name hname).arrayIndex,
    foldl_assign]
  apply Dict.ext
  apply List.map_congr_left
  intro e he
  have hmem : e.1 ∈ declaredParams.keys := List.mem_map_of_mem (List.mem_of_mem_filter he)
  exact congrArg (Prod.mk e.1) (starterSpec_eq (hplain e.1 hmem).one_line e.2)

/-- Rounding does not move a size across the cap. -/
theorem estimateCardinality_le_iff (hkeys : ∀ name ∈ params.keys, arrayIndex? name = none) :
    estimateCardinality params ≤ cardinalityCap ↔
      Spaces.estimateCardinality params ≤ cardinalityCap := by
  rw [estimateCardinality, objectEntries_of_forall hkeys]
  apply product_le_iff
  · intro size hsize
    obtain ⟨e, -, rfl⟩ := List.mem_map.mp hsize
    exact e.2.one_le_size
  · decide

theorem applyFallback_eq (hkeys : ∀ name ∈ params.keys, arrayIndex? name = none)
    (horder : ∀ name ∈ order, name ∈ params.keys ∧ name ≠ "__proto__") :
    applyFallback order params = Spaces.applyFallback order params := by
  induction order generalizing params with
  | nil => rfl
  | cons name order ih =>
    obtain ⟨⟨hname, hproto⟩, hothers⟩ := List.forall_mem_cons.mp horder
    have hset : assign params name smallIntParam = params.set name smallIntParam := if_neg hproto
    have hsame := Dict.keys_set_of_mem hname smallIntParam
    have hkeys' : ∀ name' ∈ (params.set name smallIntParam).keys, arrayIndex? name' = none :=
      hsame ▸ hkeys
    have hrest := ih hkeys' fun name' hname' => hsame ▸ hothers name' hname'
    rw [applyFallback, Spaces.applyFallback, hset, hrest]
    exact if_congr (estimateCardinality_le_iff hkeys') rfl rfl

theorem perm_fallbackOrder (hkeys : ∀ name ∈ params.keys, arrayIndex? name = none) :
    (fallbackOrder params).Perm (floatNames params) := by
  have hfloats : ((objectKeys params).filter fun name =>
      (params.get? name).any ParamSpec.isFloat) = floatNames params := by
    rw [objectKeys_of_forall hkeys, Dict.keys, List.filter_map, floatNames]
    congr 1
    apply List.filter_congr
    intro e he
    rw [Function.comp_apply, (Dict.get?_eq_some_iff params e.1 e.2).mpr he]
    rfl
  rw [fallbackOrder, hfloats]
  have hsplit := List.filter_append_perm regexMatched (floatNames params)
  exact (((perm_sortByCodeUnits _).append (perm_sortByCodeUnits _)).trans
    List.perm_append_comm).trans hsplit

/-- The starter space of the wizard falls back in its order, or an error is thrown. -/
theorem buildStarterSearchSpace_spec (hne : declaredParams.entries ≠ [])
    (hplain : ∀ name ∈ declaredParams.keys, IsPlainName name) {start : Dict String ParamSpec}
    (hstart : start = (declaredParams.erase "__proto__").mapItems Spaces.starterSpec) :
    (¬Exhausts start ∧ ∃ starter, buildStarterSearchSpace declaredParams = .ok starter ∧
        FallsBack start (fallbackOrder start) starter.params
          starter.capAwareFallbackParamNames) ∨
      (Exhausts start ∧ ∃ e, buildStarterSearchSpace declaredParams = .error e) := by
  have hnames (name : String) (hname : name ∈ start.keys) :
      arrayIndex? name = none ∧ name ≠ "__proto__" := by
    rw [hstart, Dict.keys_mapItems, Dict.mem_keys_erase] at hname
    exact ⟨(hplain name hname.1).arrayIndex, hname.2⟩
  have hkeys := fun name hname => (hnames name hname).1
  have hperm := perm_fallbackOrder hkeys
  have hsome : ¬(objectKeys declaredParams).length = 0 := by
    rw [objectKeys_of_forall fun name hname => (hplain name hname).arrayIndex, Dict.keys,
      List.length_map, List.length_eq_zero_iff]
    exact hne
  rw [buildStarterSearchSpace, if_neg hsome, starterParams_eq hplain, ← hstart]
  by_cases hcap : Spaces.estimateCardinality start ≤ cardinalityCap
  · have hzero : Spaces.estimateCardinality (discretise ((fallbackOrder start).take 0) start) ≤
        cardinalityCap := by rwa [List.take_zero, discretise_nil]
    have hfalls := fallsBack_take hperm (Nat.zero_le _)
      (fun j hj => absurd hj (Nat.not_lt_zero j)) hzero
    rw [List.take_zero, discretise_nil] at hfalls
    exact Or.inl ⟨not_exhausts_of_le hperm hzero, _,
      if_pos ((estimateCardinality_le_iff hkeys).mpr hcap), hfalls⟩
  · have horder (name : String) (hname : name ∈ fallbackOrder start) :
        name ∈ start.keys ∧ name ≠ "__proto__" := by
      obtain ⟨p, hp⟩ := mem_floatNames.mp (hperm.subset hname)
      have hmem := Dict.mem_keys_of_get? hp
      exact ⟨hmem, (hnames name hmem).2⟩
    obtain ⟨k, hk, heq, hbefore, hafter⟩ :=
      Spaces.applyFallback_eq (fun name hname => (horder name hname).1) (not_le.mp hcap)
    have hkept : ∀ name ∈ (discretise ((fallbackOrder start).take k) start).keys,
        arrayIndex? name = none := by
      rw [keys_discretise]
      exact hkeys
    rw [if_neg fun h => hcap ((estimateCardinality_le_iff hkeys).mp h),
      applyFallback_eq hkeys horder, heq]
    by_cases hfits : Spaces.estimateCardinality (discretise ((fallbackOrder start).take k) start) ≤
        cardinalityCap
    · have hunder := (estimateCardinality_le_iff hkept).mpr hfits
      exact Or.inl ⟨not_exhausts_of_le hperm hfits, _, if_neg (not_lt.mpr hunder),
        fallsBack_take hperm hk hbefore hfits⟩
    · have hover := mt (estimateCardinality_le_iff hkept).mp hfits
      have hall : k = (fallbackOrder start).length :=
        le_antisymm hk (not_lt.mp fun hlt => hfits (hafter hlt))
      refine Or.inr ⟨?_, _, if_pos (not_le.mp hover)⟩
      rw [Exhausts, ← discretise_of_perm hperm, ← List.take_length (l := fallbackOrder start),
        ← hall]
      exact not_le.mp hfits

end Wizard

/-! ## Agreement -/

/-- Both raise, or both return the same parameters and the same converted names. -/
def StartersAgree :
    Except SpaceError StarterSearchSpace → Except Wizard.StarterError Wizard.StarterSearchSpace →
      Prop
  | .error _, .error _ => True
  | .ok starter, .ok starter' =>
    (∀ name, starter.space.params.get? name = starter'.params.get? name) ∧
      starter.capAwareFallbackParamNames = starter'.capAwareFallbackParamNames
  | _, _ => False

/-- While the space is over the cap, the next name is the same in both orders. -/
def SameConversions (params : Dict String ParamSpec) : Prop :=
  ∀ j, cardinalityCap < sizeAfter params j →
    (fallbackOrder params)[j]? = (Wizard.fallbackOrder params)[j]?

section Agreement

variable {declaredParams : Dict String String} {start params params' : Dict String ParamSpec}
  {order order' converted converted' : List String}

theorem FallsBack.keys_eq (h : FallsBack start order params converted) :
    params.keys = start.keys := by
  rw [h.params_eq, keys_discretise]

/-- Two fallbacks from one space agree as far as their orders do. -/
theorem FallsBack.same_iff (h : FallsBack start order params converted)
    (h' : FallsBack start order' params' converted') :
    ((∀ name, params.get? name = params'.get? name) ∧ converted = converted') ↔
      ∀ j, cardinalityCap < sizeAfter start j → order[j]? = order'[j]? := by
  constructor
  · rintro ⟨-, rfl⟩ j hj
    have hboth := (h.names j).symm.trans (h'.names j)
    rwa [if_pos hj, if_pos hj] at hboth
  · intro hsame
    have heq : converted = converted' := by
      apply List.ext_getElem?
      intro j
      rw [h.names j, h'.names j]
      split_ifs with hj
      · exact hsame j hj
      · rfl
    refine ⟨fun name => ?_, heq⟩
    rw [h.params_eq, h'.params_eq, heq]

theorem erase_eq_self {name : String} (h : name ∉ declaredParams.keys) :
    declaredParams.erase name = declaredParams := by
  apply Dict.ext
  rw [Dict.erase, List.filter_eq_self]
  intro e he
  apply decide_eq_true
  rintro rfl
  exact h (List.mem_map_of_mem he)

/-- A property named `__proto__` is missing from the object, unless both raise. -/
theorem startersAgree_iff_of_mem (hne : declaredParams.entries ≠ [])
    (hplain : ∀ name ∈ declaredParams.keys, Wizard.IsPlainName name)
    (hproto : "__proto__" ∈ declaredParams.keys) :
    StartersAgree (buildStarterSearchSpace declaredParams)
        (Wizard.buildStarterSearchSpace declaredParams) ↔
      Exhausts ((declaredParams.erase "__proto__").mapItems starterSpec) := by
  have hserver := buildStarterSearchSpace_spec hne
  rcases Wizard.buildStarterSearchSpace_spec hne hplain rfl with
    ⟨hfits, starter', hok', hfalls'⟩ | ⟨hexhausts, e', herror'⟩
  · rw [hok', iff_false_right hfits]
    intro hagree
    rcases hserver with ⟨-, starter, hok, hfalls⟩ | ⟨-, e, herror⟩
    · rw [hok] at hagree
      have hsame : "__proto__" ∈ starter.space.params.keys ↔ "__proto__" ∈ starter'.params.keys := by
        rw [Dict.mem_keys_iff, Dict.mem_keys_iff, hagree.1 "__proto__"]
      rw [hfalls.keys_eq, hfalls'.keys_eq, Dict.keys_mapItems, Dict.keys_mapItems,
        Dict.mem_keys_erase] at hsame
      exact (hsame.mp hproto).2 rfl
    · rw [herror] at hagree
      exact hagree
  · have hsub : ((declaredParams.erase "__proto__").mapItems starterSpec).entries.Sublist
        (declaredParams.mapItems starterSpec).entries := List.filter_sublist.map _
    rcases hserver with ⟨hfits, -⟩ | ⟨-, e, herror⟩
    · exact absurd (hexhausts.of_sublist hsub) hfits
    · rw [herror, herror']
      exact iff_of_true trivial hexhausts

/-- Without `__proto__`, both fall back from the same space, each in its order. -/
theorem startersAgree_iff_of_notMem (hne : declaredParams.entries ≠ [])
    (hplain : ∀ name ∈ declaredParams.keys, Wizard.IsPlainName name)
    (hproto : "__proto__" ∉ declaredParams.keys) :
    StartersAgree (buildStarterSearchSpace declaredParams)
        (Wizard.buildStarterSearchSpace declaredParams) ↔
      Exhausts (declaredParams.mapItems starterSpec) ∨
        SameConversions (declaredParams.mapItems starterSpec) := by
  have hwizard := Wizard.buildStarterSearchSpace_spec hne hplain rfl
  rw [erase_eq_self hproto] at hwizard
  rcases buildStarterSearchSpace_spec hne with
    ⟨hfits, starter, hok, hfalls⟩ | ⟨hexhausts, e, herror⟩
  · rcases hwizard with ⟨-, starter', hok', hfalls'⟩ | ⟨hexhausts, -⟩
    · rw [hok, hok', or_iff_right hfits]
      exact hfalls.same_iff hfalls'
    · exact absurd hexhausts hfits
  · rcases hwizard with ⟨hfits, -⟩ | ⟨-, e', herror'⟩
    · exact absurd hexhausts hfits
    · rw [herror, herror']
      exact iff_of_true trivial (Or.inl hexhausts)

/-- The two starter spaces agree exactly when both raise without `__proto__`, or it is not declared
and the names that the fallback converts come in the same order. -/
theorem startersAgree_iff {table : Wizard.IdentifierTable} (htable : table.Documented)
    (hne : declaredParams.entries ≠ [])
    (hident : ∀ name ∈ declaredParams.keys, table.isIdentifier name = true) :
    StartersAgree (buildStarterSearchSpace declaredParams)
        (Wizard.buildStarterSearchSpace declaredParams) ↔
      Exhausts ((declaredParams.erase "__proto__").mapItems starterSpec) ∨
        "__proto__" ∉ declaredParams.keys ∧
          SameConversions (declaredParams.mapItems starterSpec) := by
  have hplain := fun name hname => Wizard.isPlainName_of_isIdentifier htable (hident name hname)
  by_cases hproto : "__proto__" ∈ declaredParams.keys
  · rw [startersAgree_iff_of_mem hne hplain hproto, or_iff_left fun h => h.1 hproto]
  · rw [startersAgree_iff_of_notMem hne hplain hproto, erase_eq_self hproto, and_iff_right hproto]

end Agreement

/-! ## A name beyond the basic plane -/

/-- The letters that the sample adds to ASCII: `_`, a ligature and a bold letter. -/
def sampleLetters : List Char := ['_', '\uFB00', Char.ofNat 0x1D41A]

/-- Identifiers of ASCII and of the sample letters. -/
def sampleIdentifiers : Wizard.IdentifierTable where
  isStart c := c.isAlpha || sampleLetters.contains c
  isContinue c := c.isAlphanum || sampleLetters.contains c

theorem documented_sampleIdentifiers : sampleIdentifiers.Documented := by
  constructor
  · intro c hc
    rcases Bool.or_eq_true_iff.mp hc with halpha | hsample
    · exact Bool.or_eq_true_iff.mpr (Or.inl (Bool.or_eq_true_iff.mpr (Or.inl halpha)))
    · exact Bool.or_eq_true_iff.mpr (Or.inr hsample)
  · intro c hc
    have hrange := toNat_of_isDigit hc
    rw [Bool.eq_false_iff]
    intro hstart
    rcases Bool.or_eq_true_iff.mp hstart with halpha | hsample
    · rcases Bool.or_eq_true_iff.mp halpha with hupper | hlower
      · have := toNat_of_isUpper hupper
        omega
      · have := toNat_of_isLower hlower
        omega
    · have hlarge : (sampleLetters.all fun c => 58 ≤ c.toNat) = true := by decide +kernel
      have := of_decide_eq_true (List.all_eq_true.mp hlarge c (List.contains_iff_mem.mp hsample))
      omega
  · intro c hc
    have hnone : (lineTerminators.all fun c => !sampleIdentifiers.isContinue c) = true := by
      decide +kernel
    exact Bool.eq_false_of_not_eq_true' (List.all_eq_true.mp hnone c hc)

theorem nodup_planes : ([("\uFB00", "float"), (String.singleton (Char.ofNat 0x1D41A), "float"),
    ("boost", "float"), ("flag", "bool")].map Prod.fst).Nodup := by
  decide +kernel

/-- A float before and a float beyond the surrogates, a boost and a flag. -/
def planesDeclared : Dict String String :=
  ⟨[("\uFB00", "float"), (String.singleton (Char.ofNat 0x1D41A), "float"), ("boost", "float"),
    ("flag", "bool")], nodup_planes⟩

theorem isIdentifier_planes :
    ∀ name ∈ planesDeclared.keys, sampleIdentifiers.isIdentifier name = true := by
  decide +kernel

/-- The server converts the ligature and the browser the bold letter. -/
theorem not_startersAgree_planes :
    (∀ name ∈ planesDeclared.keys, sampleIdentifiers.isIdentifier name = true) ∧
      ¬StartersAgree (buildStarterSearchSpace planesDeclared)
        (Wizard.buildStarterSearchSpace planesDeclared) := by
  have hplain := fun name hname =>
    Wizard.isPlainName_of_isIdentifier documented_sampleIdentifiers (isIdentifier_planes name hname)
  have hproto : "__proto__" ∉ planesDeclared.keys := by decide +kernel
  refine ⟨isIdentifier_planes, ?_⟩
  rw [startersAgree_iff_of_notMem (List.cons_ne_nil _ _) hplain hproto]
  rintro (hexhausts | hsame)
  · exact absurd hexhausts (not_lt.mpr (by decide +kernel))
  · have hfirst := hsame 0 (by decide +kernel)
    exact absurd hfirst (by decide +kernel)

theorem startersAgree_iff_planes :
    StartersAgree (buildStarterSearchSpace planesDeclared)
        (Wizard.buildStarterSearchSpace planesDeclared) ↔
      Exhausts ((planesDeclared.erase "__proto__").mapItems starterSpec) ∨
        "__proto__" ∉ planesDeclared.keys ∧
          SameConversions (planesDeclared.mapItems starterSpec) :=
  startersAgree_iff documented_sampleIdentifiers (List.cons_ne_nil _ _) isIdentifier_planes

end RelyLoop.Spaces
