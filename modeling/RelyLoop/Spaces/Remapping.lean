import RelyLoop.Spaces.Starter
import RelyLoop.Spaces.Swap

/-!
# What remapping yields

`remap_search_space_for_swap_target` works on three sets of names that may overlap in any way. It
raises for four reasons only; a space that it returns has the names of the target, and the lists
beside it say where each name has its specification from.
-/

namespace RelyLoop.Spaces

open Python

variable {parentDeclared swapDeclared : Dict String String} {llm : SearchSpace}
  {result : RemapResult} {filled : Dict String ParamSpec} {names : List String} {name : String}

/-- `trusted_intersection_names`. -/
def trustedNames (parentDeclared swapDeclared : Dict String String) (llm : SearchSpace) :
    List String :=
  swapDeclared.keys.filter (isShared parentDeclared llm)

/-- `disjoint_fill_names`. -/
def fillNames (parentDeclared swapDeclared : Dict String String) (llm : SearchSpace) :
    List String :=
  swapDeclared.keys.filter fun name => !isShared parentDeclared llm name

/-- `disjoint_declared_params`. -/
def disjointDeclared (parentDeclared swapDeclared : Dict String String) (llm : SearchSpace) :
    Dict String String :=
  restrict (fillNames parentDeclared swapDeclared llm) swapDeclared

theorem isShared_iff : isShared parentDeclared llm name = true ↔
    name ∈ parentDeclared.keys ∧ name ∈ llm.names :=
  decide_eq_true_iff

theorem mem_trustedNames : name ∈ trustedNames parentDeclared swapDeclared llm ↔
    name ∈ parentDeclared.keys ∧ name ∈ swapDeclared.keys ∧ name ∈ llm.names := by
  rw [trustedNames, List.mem_filter, isShared_iff]
  tauto

theorem mem_fillNames : name ∈ fillNames parentDeclared swapDeclared llm ↔
    name ∈ swapDeclared.keys ∧ ¬ (name ∈ parentDeclared.keys ∧ name ∈ llm.names) := by
  rw [fillNames, List.mem_filter, Bool.not_eq_true', ← Bool.not_eq_true, isShared_iff]

/-! ## The merged parameters -/

/-- The size of a merged space is the product of the sizes of its two parts. -/
theorem estimateCardinality_merged
    (h : ∀ name ∈ filled.keys, name ∉ names) :
    estimateCardinality (sortedByName ((restrict names llm.params).update filled)) =
      estimateCardinality (restrict names llm.params) * estimateCardinality filled := by
  have hdisjoint : ∀ name ∈ filled.keys, name ∉ (restrict names llm.params).keys :=
    fun name hname hmem => h name hname (mem_keys_restrict.mp hmem).1
  have hperm := List.perm_insertionSort (fun e e' : String × ParamSpec => e.1 ≤ e'.1)
    ((restrict names llm.params).update filled).entries
  have hprod := (hperm.map fun e => e.2.size).prod_eq
  rw [estimateCardinality, sortedByName, hprod, Dict.entries_update_of_disjoint hdisjoint,
    List.map_append, List.prod_append]
  rfl

/-- The fill is what the builder makes of the disjoint part, when there is one. -/
theorem fillParams_eq_ok (h : fillParams names swapDeclared = .ok filled) (hname : name ∈ names) :
    ∃ starter, buildStarterSearchSpace (restrict names swapDeclared) = .ok starter ∧
      filled = starter.space.params := by
  rw [fillParams, if_neg (List.ne_nil_of_mem hname)] at h
  cases hstarter : buildStarterSearchSpace (restrict names swapDeclared) with
  | error e => simp [hstarter, Except.map] at h
  | ok starter =>
    simp only [hstarter, Except.map, Except.ok.injEq] at h
    exact ⟨starter, rfl, h.symm⟩

/-- Nothing is filled in exactly when there is nothing to fill or the builder returns a space. -/
theorem fillParams_eq_error_iff : (∃ e, fillParams names swapDeclared = .error e) ↔
    names ≠ [] ∧ ∃ e, buildStarterSearchSpace (restrict names swapDeclared) = .error e := by
  unfold fillParams
  split
  · simp_all
  · cases buildStarterSearchSpace (restrict names swapDeclared) <;> simp_all [Except.map]

/-! ## When remapping raises -/

/-- The reasons to raise: a target without parameters, no name in all three sets, a disjoint part
that the builder rejects, and merged parameters over the cap. -/
inductive RemapRaises (parentDeclared swapDeclared : Dict String String) (llm : SearchSpace) :
    Prop where
  | noParams (h : swapDeclared.entries = [])
  | noShared (h : ∀ name, ¬ (name ∈ parentDeclared.keys ∧ name ∈ swapDeclared.keys ∧
      name ∈ llm.names))
  | fillRejected (hfill : fillNames parentDeclared swapDeclared llm ≠ [])
      (h : ∃ e, buildStarterSearchSpace (disjointDeclared parentDeclared swapDeclared llm) =
        .error e)
  | overCap (filled : Dict String ParamSpec)
      (hfill : fillParams (fillNames parentDeclared swapDeclared llm) swapDeclared = .ok filled)
      (h : cardinalityCap <
        estimateCardinality (restrict (trustedNames parentDeclared swapDeclared llm) llm.params) *
          estimateCardinality filled)

theorem trustedNames_eq_nil_iff : trustedNames parentDeclared swapDeclared llm = [] ↔
    ∀ name, ¬ (name ∈ parentDeclared.keys ∧ name ∈ swapDeclared.keys ∧ name ∈ llm.names) := by
  rw [List.eq_nil_iff_forall_not_mem]
  exact forall_congr' fun name => not_congr mem_trustedNames

/-- The merged parameters in the order of their names. -/
def mergedParams (parentDeclared swapDeclared : Dict String String) (llm : SearchSpace)
    (filled : Dict String ParamSpec) : Dict String ParamSpec :=
  sortedByName ((restrict (trustedNames parentDeclared swapDeclared llm) llm.params).update filled)

theorem size_mergedParams
    (hfill : fillParams (fillNames parentDeclared swapDeclared llm) swapDeclared = .ok filled) :
    estimateCardinality (mergedParams parentDeclared swapDeclared llm filled) =
      estimateCardinality (restrict (trustedNames parentDeclared swapDeclared llm) llm.params) *
        estimateCardinality filled := by
  have hfits := fits_of_fillParams (fun name hname => (mem_fillNames.mp hname).1) hfill
  apply estimateCardinality_merged
  intro name hname htrusted
  have hshared := mem_trustedNames.mp htrusted
  exact (mem_fillNames.mp ((hfits.keys name).mp hname)).2 ⟨hshared.1, hshared.2.2⟩

/-- A name that is trusted is merged. -/
theorem mergedParams_ne_nil (h : trustedNames parentDeclared swapDeclared llm ≠ []) :
    (mergedParams parentDeclared swapDeclared llm filled).entries ≠ [] := by
  obtain ⟨name, hname⟩ := List.exists_mem_of_ne_nil _ h
  obtain ⟨spec, hspec⟩ := Dict.exists_get?_of_mem_keys (mem_trustedNames.mp hname).2.2
  intro hempty
  have hget := get?_sortedByName
    ((restrict (trustedNames parentDeclared swapDeclared llm) llm.params).update filled) name
  have hnone : (mergedParams parentDeclared swapDeclared llm filled).get? name = none := by
    rw [Dict.eq_empty hempty, Dict.get?_empty]
  rw [← mergedParams, hnone, Dict.get?_update, get?_restrict, if_pos hname, hspec] at hget
  cases hfilled : filled.get? name <;> simp [hfilled] at hget

/-- The result of remapping, with the lists of names beside the space. -/
def remapResult (parentDeclared swapDeclared : Dict String String) (llm space : SearchSpace) :
    RemapResult where
  searchSpace := space
  trustedIntersectionParamNames := sortedNames (trustedNames parentDeclared swapDeclared llm)
  disjointFillParamNames := sortedNames (fillNames parentDeclared swapDeclared llm)
  droppedParentParamNames := sortedDifference parentDeclared.keys swapDeclared.keys
  ignoredLlmParamNames := sortedNames (llm.names.filter fun name =>
    ¬ (name ∈ parentDeclared.keys ∧ name ∈ swapDeclared.keys))

/-- What is left of remapping when it gets as far as the merge. -/
theorem remap_eq (hparams : swapDeclared.entries ≠ [])
    (hshared : trustedNames parentDeclared swapDeclared llm ≠ [])
    (hfill : fillParams (fillNames parentDeclared swapDeclared llm) swapDeclared = .ok filled) :
    remapSearchSpaceForSwapTarget parentDeclared swapDeclared llm =
      (SearchSpace.make (mergedParams parentDeclared swapDeclared llm filled)).map
        (remapResult parentDeclared swapDeclared llm) := by
  unfold trustedNames at hshared
  unfold fillNames at hfill
  simp only [remapSearchSpaceForSwapTarget, if_neg hparams, if_neg hshared, hfill]
  unfold mergedParams trustedNames
  cases SearchSpace.make (sortedByName ((restrict (swapDeclared.keys.filter
    (isShared parentDeclared llm)) llm.params).update filled)) <;> rfl

/-- A name that cannot be filled ends it. -/
theorem remap_eq_error {e : SpaceError} (hparams : swapDeclared.entries ≠ [])
    (hshared : trustedNames parentDeclared swapDeclared llm ≠ [])
    (hfill : fillParams (fillNames parentDeclared swapDeclared llm) swapDeclared = .error e) :
    remapSearchSpaceForSwapTarget parentDeclared swapDeclared llm = .error e := by
  unfold trustedNames at hshared
  unfold fillNames at hfill
  simp only [remapSearchSpaceForSwapTarget, if_neg hparams, if_neg hshared, hfill]

/-- Remapping raises for these reasons only. -/
theorem remap_raises_iff :
    (∃ e, remapSearchSpaceForSwapTarget parentDeclared swapDeclared llm = .error e) ↔
      RemapRaises parentDeclared swapDeclared llm := by
  by_cases hparams : swapDeclared.entries = []
  · apply iff_of_true
    · exact ⟨_, if_pos hparams⟩
    · exact .noParams hparams
  by_cases hshared : trustedNames parentDeclared swapDeclared llm = []
  · apply iff_of_true
    · exact ⟨_, (if_neg hparams).trans (if_pos hshared)⟩
    · exact .noShared (trustedNames_eq_nil_iff.mp hshared)
  cases hfill : fillParams (fillNames parentDeclared swapDeclared llm) swapDeclared with
  | error e =>
    obtain ⟨hnonempty, hraises⟩ := fillParams_eq_error_iff.mp ⟨e, hfill⟩
    apply iff_of_true
    · exact ⟨e, remap_eq_error hparams hshared hfill⟩
    · exact .fillRejected hnonempty hraises
  | ok filled =>
    have hsize := size_mergedParams hfill
    have hmerged : (mergedParams parentDeclared swapDeclared llm filled).entries ≠ [] :=
      mergedParams_ne_nil hshared
    rw [remap_eq hparams hshared hfill]
    by_cases hcap : estimateCardinality (mergedParams parentDeclared swapDeclared llm filled) ≤
        cardinalityCap
    · rw [SearchSpace.make_eq_ok hmerged hcap]
      apply iff_of_false
      · rintro ⟨e, herror⟩
        cases herror
      · rintro (hempty | hnone | ⟨hnonempty, hraises⟩ | ⟨filled', hfill', hbig⟩)
        · exact hparams hempty
        · exact hshared (trustedNames_eq_nil_iff.mpr hnone)
        · obtain ⟨e, herror⟩ := fillParams_eq_error_iff.mpr ⟨hnonempty, hraises⟩
          rw [hfill] at herror
          cases herror
        · obtain rfl := Except.ok.inj (hfill.symm.trans hfill')
          omega
    · apply iff_of_true
      · rw [SearchSpace.make, dif_neg hmerged, dif_neg hcap]
        exact ⟨_, rfl⟩
      · exact .overCap filled hfill (by omega)

/-! ## What remapping returns -/

/-- The names with a property, in order. -/
structure ListsNames (names : List String) (p : String → Prop) : Prop where
  sorted : names.Pairwise (· < ·)
  mem : ∀ name, name ∈ names ↔ p name

theorem listsNames_sortedNames {p : String → Prop} (hnodup : names.Nodup)
    (hmem : ∀ name, name ∈ names ↔ p name) : ListsNames (sortedNames names) p :=
  ⟨pairwise_sortedNames hnodup, fun name => mem_sortedNames.trans (hmem name)⟩

/-- A result with the names of the target: the specification of the suggestion for a name that all
three have, the builder's one for every other name, and four lists that say which is which. -/
structure RemapsTo (parentDeclared swapDeclared : Dict String String) (llm : SearchSpace)
    (result : RemapResult) : Prop where
  keys : ∀ name, name ∈ result.searchSpace.params.keys ↔ name ∈ swapDeclared.keys
  accepted : ∀ templateName,
    validateAgainstTemplate result.searchSpace swapDeclared templateName = .ok ()
  verbatim : ∀ name ∈ swapDeclared.keys, name ∈ parentDeclared.keys → name ∈ llm.names →
    result.searchSpace.params.get? name = llm.params.get? name
  filled : ∀ name ∈ swapDeclared.keys, ¬ (name ∈ parentDeclared.keys ∧ name ∈ llm.names) →
    ∃ starter,
      buildStarterSearchSpace (disjointDeclared parentDeclared swapDeclared llm) = .ok starter ∧
      result.searchSpace.params.get? name = starter.space.params.get? name
  trusted : ListsNames result.trustedIntersectionParamNames fun name =>
    name ∈ parentDeclared.keys ∧ name ∈ swapDeclared.keys ∧ name ∈ llm.names
  disjointFill : ListsNames result.disjointFillParamNames fun name =>
    name ∈ swapDeclared.keys ∧ ¬ (name ∈ parentDeclared.keys ∧ name ∈ llm.names)
  partition : (result.trustedIntersectionParamNames ++ result.disjointFillParamNames).Perm
    swapDeclared.keys
  dropped : ListsNames result.droppedParentParamNames fun name =>
    name ∈ parentDeclared.keys ∧ name ∉ swapDeclared.keys
  ignored : ListsNames result.ignoredLlmParamNames fun name =>
    name ∈ llm.names ∧ ¬ (name ∈ parentDeclared.keys ∧ name ∈ swapDeclared.keys)

/-- A result that is returned came from the merge. -/
theorem exists_of_remap_eq_ok
    (h : remapSearchSpaceForSwapTarget parentDeclared swapDeclared llm = .ok result) :
    ∃ filled space,
      fillParams (fillNames parentDeclared swapDeclared llm) swapDeclared = .ok filled ∧
      space.params = mergedParams parentDeclared swapDeclared llm filled ∧
      result = remapResult parentDeclared swapDeclared llm space := by
  have hno : ¬ RemapRaises parentDeclared swapDeclared llm := by
    rw [← remap_raises_iff, h]
    rintro ⟨e, herror⟩
    cases herror
  have hparams : swapDeclared.entries ≠ [] := fun hempty => hno (.noParams hempty)
  have hshared : trustedNames parentDeclared swapDeclared llm ≠ [] :=
    fun hnone => hno (.noShared (trustedNames_eq_nil_iff.mp hnone))
  cases hfill : fillParams (fillNames parentDeclared swapDeclared llm) swapDeclared with
  | error e =>
    obtain ⟨hnonempty, hraises⟩ := fillParams_eq_error_iff.mp ⟨e, hfill⟩
    exact absurd (.fillRejected hnonempty hraises) hno
  | ok filled =>
    rw [remap_eq hparams hshared hfill] at h
    cases hmake : SearchSpace.make (mergedParams parentDeclared swapDeclared llm filled) with
    | error e =>
      rw [hmake] at h
      cases h
    | ok space =>
      rw [hmake] at h
      exact ⟨filled, space, rfl, SearchSpace.params_of_make hmake, (Except.ok.inj h).symm⟩

/-- Remapping raises for its four reasons only, and returns nothing but such results. -/
theorem remap_spec (parentDeclared swapDeclared : Dict String String) (llm : SearchSpace) :
    ((∃ e, remapSearchSpaceForSwapTarget parentDeclared swapDeclared llm = .error e) ↔
      RemapRaises parentDeclared swapDeclared llm) ∧
    ∀ result, remapSearchSpaceForSwapTarget parentDeclared swapDeclared llm = .ok result →
      RemapsTo parentDeclared swapDeclared llm result := by
  refine ⟨remap_raises_iff, fun result h => ?_⟩
  have hremapped := remapped h
  obtain ⟨filled, space, hfill, hparams, rfl⟩ := exists_of_remap_eq_ok h
  have hswap : swapDeclared.keys.Nodup := swapDeclared.nodup
  constructor
  case keys => exact hremapped.keys
  case accepted => exact fun templateName => validateAgainstTemplate_iff.mpr hremapped.keys
  case verbatim =>
    exact fun name hname hparent hllm =>
      hremapped.shared name hname (isShared_iff.mpr ⟨hparent, hllm⟩)
  case filled =>
    intro name hname hnot
    have hfillName := mem_fillNames.mpr ⟨hname, hnot⟩
    obtain ⟨starter, hstarter, rfl⟩ := fillParams_eq_ok hfill hfillName
    refine ⟨starter, hstarter, ?_⟩
    have htrusted : name ∉ trustedNames parentDeclared swapDeclared llm := fun hmem =>
      hnot ⟨(mem_trustedNames.mp hmem).1, (mem_trustedNames.mp hmem).2.2⟩
    change space.params.get? name = _
    rw [hparams, mergedParams, get?_sortedByName, Dict.get?_update, get?_restrict,
      if_neg htrusted, Option.or_none]
  case trusted => exact listsNames_sortedNames (hswap.filter _) fun name => mem_trustedNames
  case disjointFill => exact listsNames_sortedNames (hswap.filter _) fun name => mem_fillNames
  case partition =>
    have hsplit := List.filter_append_perm (isShared parentDeclared llm) swapDeclared.keys
    have htrusted := List.perm_insertionSort (· ≤ ·) (trustedNames parentDeclared swapDeclared llm)
    have hfilled := List.perm_insertionSort (· ≤ ·) (fillNames parentDeclared swapDeclared llm)
    exact (htrusted.append hfilled).trans hsplit
  case dropped =>
    refine listsNames_sortedNames (parentDeclared.nodup.filter _) fun name => ?_
    rw [List.mem_filter, decide_eq_true_iff]
  case ignored =>
    refine listsNames_sortedNames (llm.params.nodup.filter _) fun name => ?_
    rw [List.mem_filter, decide_eq_true_iff]

theorem boostTitle_nonempty : (Dict.ofList [("boost_title", unitParam)]).entries ≠ [] := by decide

theorem boostTitle_capped :
    estimateCardinality (Dict.ofList [("boost_title", unitParam)]) ≤ cardinalityCap := by decide

/-- A suggestion for the one parameter that two templates share. -/
def sharedBoost : SearchSpace :=
  ⟨Dict.ofList [("boost_title", unitParam)], boostTitle_nonempty, boostTitle_capped⟩

/-- A target with one more parameter is filled up. -/
theorem remap_spec_sharedBoost :
    ∃ result, remapSearchSpaceForSwapTarget (Dict.ofList [("boost_title", "float")])
        (Dict.ofList [("boost_title", "float"), ("slop", "int")]) sharedBoost = .ok result ∧
      RemapsTo (Dict.ofList [("boost_title", "float")])
        (Dict.ofList [("boost_title", "float"), ("slop", "int")]) sharedBoost result := by
  have hok : (remapSearchSpaceForSwapTarget (Dict.ofList [("boost_title", "float")])
      (Dict.ofList [("boost_title", "float"), ("slop", "int")]) sharedBoost).isOk = true := by
    decide +kernel
  cases h : remapSearchSpaceForSwapTarget (Dict.ofList [("boost_title", "float")])
      (Dict.ofList [("boost_title", "float"), ("slop", "int")]) sharedBoost with
  | error e =>
    rw [h] at hok
    cases hok
  | ok result => exact ⟨result, rfl, (remap_spec _ _ sharedBoost).2 result h⟩

end RelyLoop.Spaces
