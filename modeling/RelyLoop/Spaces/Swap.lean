import RelyLoop.Spaces.Defaults

/-!
# Remapping a space to another template

`remap_search_space_for_swap_target` keeps what a suggestion says about the parameters that the
two templates share, and fills in starter specifications for the others. The result has the names
of the target, and reserves the normalizer key when the suggestion does.
-/

namespace RelyLoop.Spaces

open Python

/-- `RemapResult`. -/
structure RemapResult where
  searchSpace : SearchSpace
  trustedIntersectionParamNames : List String
  disjointFillParamNames : List String
  droppedParentParamNames : List String
  ignoredLlmParamNames : List String

/-- The part of a dictionary with the given names. -/
def restrict {ν : Type} (names : List String) (d : Dict String ν) : Dict String ν :=
  ⟨d.entries.filter fun e => e.1 ∈ names, d.nodup.sublist (List.filter_sublist.map Prod.fst)⟩

/-- `{k: params[k] for k in sorted(params)}`. -/
def sortedByName (params : Dict String ParamSpec) : Dict String ParamSpec :=
  ⟨params.entries.insertionSort fun e e' => e.1 ≤ e'.1,
    ((List.perm_insertionSort _ params.entries).map Prod.fst).nodup_iff.mpr params.nodup⟩

/-- The specifications of the disjoint fill; there is nothing to ask for without names. -/
def fillParams (names : List String) (swapDeclared : Dict String String) :
    Except SpaceError (Dict String ParamSpec) :=
  if names = [] then .ok Dict.empty
  else (buildStarterSearchSpace (restrict names swapDeclared)).map (·.space.params)

/-- The parent declares the parameter, and the suggestion has it. -/
def isShared (parentDeclared : Dict String String) (llm : SearchSpace) (name : String) : Bool :=
  name ∈ parentDeclared.keys ∧ name ∈ llm.names

/-- `remap_search_space_for_swap_target`. -/
def remapSearchSpaceForSwapTarget (parentDeclared swapDeclared : Dict String String)
    (llm : SearchSpace) : Except SpaceError RemapResult :=
  let trusted := swapDeclared.keys.filter (isShared parentDeclared llm)
  let fill := swapDeclared.keys.filter fun name => !isShared parentDeclared llm name
  if swapDeclared.entries = [] then .error .swapTargetWithoutParams
  else if trusted = [] then .error .noSharedParams
  else match fillParams fill swapDeclared with
    | .error e => .error e
    | .ok filled =>
      match SearchSpace.make (sortedByName ((restrict trusted llm.params).update filled)) with
      | .error e => .error e
      | .ok space => .ok
        { searchSpace := space
          trustedIntersectionParamNames := sortedNames trusted
          disjointFillParamNames := sortedNames fill
          droppedParentParamNames := sortedDifference parentDeclared.keys swapDeclared.keys
          ignoredLlmParamNames := sortedNames (llm.names.filter fun name =>
            ¬ (name ∈ parentDeclared.keys ∧ name ∈ swapDeclared.keys)) }

variable {names : List String} {parentDeclared swapDeclared : Dict String String}
  {llm : SearchSpace} {result : RemapResult}

theorem get?_restrict {ν : Type} (names : List String) (d : Dict String ν) (name : String) :
    (restrict names d).get? name = if name ∈ names then d.get? name else none := by
  ext v
  rw [Dict.get?_eq_some_iff, restrict, List.mem_filter, ← Dict.get?_eq_some_iff]
  by_cases hname : name ∈ names <;> simp [hname]

theorem mem_keys_restrict {ν : Type} {d : Dict String ν} {name : String} :
    name ∈ (restrict names d).keys ↔ name ∈ names ∧ name ∈ d.keys := by
  simp only [Dict.keys, restrict, List.mem_map, List.mem_filter, decide_eq_true_eq]
  constructor
  · rintro ⟨e, ⟨hmem, hname⟩, rfl⟩
    exact ⟨hname, e, hmem, rfl⟩
  · rintro ⟨hname, e, hmem, rfl⟩
    exact ⟨e, ⟨hmem, hname⟩, rfl⟩

theorem get?_sortedByName (params : Dict String ParamSpec) (name : String) :
    (sortedByName params).get? name = params.get? name := by
  ext spec
  rw [Dict.get?_eq_some_iff, Dict.get?_eq_some_iff]
  exact (List.perm_insertionSort _ params.entries).mem_iff

/-- The fill has its names, with allowed specifications. -/
theorem fits_of_fillParams {filled : Dict String ParamSpec}
    (hnames : ∀ name ∈ names, name ∈ swapDeclared.keys)
    (h : fillParams names swapDeclared = .ok filled) : Fits names filled := by
  unfold fillParams at h
  split at h
  · rename_i hnil
    cases h
    subst hnil
    exact ⟨fun name => by simp [Dict.keys, Dict.empty], fun name spec h => by simp at h⟩
  · cases hstarter : buildStarterSearchSpace (restrict names swapDeclared) with
    | error e => simp [hstarter, Except.map] at h
    | ok starter =>
      simp only [hstarter, Except.map, Except.ok.injEq] at h
      subst h
      have hfits := fits_of_buildStarterSearchSpace hstarter
      refine ⟨fun name => (hfits.keys name).trans ?_, hfits.allowed⟩
      rw [mem_keys_restrict]
      exact ⟨And.left, fun hname => ⟨hname, hnames name hname⟩⟩

/-- A remapped space: what the suggestion says about the shared parameters, and specifications
that are allowed for the others. -/
structure Remapped (parentDeclared swapDeclared : Dict String String) (llm space : SearchSpace) :
    Prop where
  keys : ∀ name, name ∈ space.params.keys ↔ name ∈ swapDeclared.keys
  shared : ∀ name ∈ swapDeclared.keys, isShared parentDeclared llm name = true →
    space.params.get? name = llm.params.get? name
  filled : ∀ name spec, isShared parentDeclared llm name = false →
    space.params.get? name = some spec → SpecAllowed name spec

theorem remapped (h : remapSearchSpaceForSwapTarget parentDeclared swapDeclared llm = .ok result) :
    Remapped parentDeclared swapDeclared llm result.searchSpace := by
  simp only [remapSearchSpaceForSwapTarget] at h
  split at h
  · cases h
  split at h
  · cases h
  split at h
  · cases h
  rename_i filled hfill
  split at h
  · cases h
  rename_i space hspace
  cases h
  have hfits := fits_of_fillParams (fun name hname => List.mem_of_mem_filter hname) hfill
  have hget : ∀ name, space.params.get? name = (filled.get? name).or
      (if name ∈ swapDeclared.keys.filter (isShared parentDeclared llm) then llm.params.get? name
        else none) := by
    intro name
    rw [SearchSpace.params_of_make hspace, get?_sortedByName, Dict.get?_update, get?_restrict]
  have hfill : ∀ name, (filled.get? name).isSome = true ↔
      name ∈ swapDeclared.keys ∧ isShared parentDeclared llm name = false := by
    intro name
    rw [← Dict.mem_keys_iff, hfits.keys, List.mem_filter, Bool.not_eq_true']
  have hshared : ∀ name, isShared parentDeclared llm name = true →
      space.params.get? name =
        if name ∈ swapDeclared.keys then llm.params.get? name else none := by
    intro name hname
    have hnone : filled.get? name = none := by
      rw [← Option.not_isSome_iff_eq_none, hfill, hname]
      simp
    simp [hget name, hnone, hname]
  refine ⟨fun name => ?_, fun name hname hisShared => ?_, fun name spec hisShared hspec => ?_⟩
  · rw [Dict.mem_keys_iff]
    cases hname : isShared parentDeclared llm name with
    | true =>
      have hllm : (llm.params.get? name).isSome = true :=
        Dict.mem_keys_iff.mp (of_decide_eq_true hname).2
      rw [hshared name hname]
      split <;> simp_all
    | false =>
      rw [hget name, if_neg (by simp [hname]), Option.or_none, hfill, hname]
      simp
  · rw [hshared name hisShared, if_pos hname]
  · rw [hget name, if_neg (by simp [hisShared]), Option.or_none] at hspec
    exact hfits.allowed name spec hspec

/-- A remapped space fits its target exactly when what the suggestion says about the shared
parameters is allowed. -/
theorem Remapped.fits_iff {space : SearchSpace}
    (h : Remapped parentDeclared swapDeclared llm space) :
    Fits swapDeclared.keys space.params ↔
      ∀ name ∈ swapDeclared.keys, isShared parentDeclared llm name = true →
        ∀ spec, llm.params.get? name = some spec → SpecAllowed name spec := by
  constructor
  · intro hfits name hname hshared spec hspec
    exact hfits.allowed name spec ((h.shared name hname hshared).trans hspec)
  · intro hallowed
    refine ⟨h.keys, fun name spec hspec => ?_⟩
    have hname := (h.keys name).mp (Dict.mem_keys_of_get? hspec)
    cases hshared : isShared parentDeclared llm name with
    | true =>
      exact hallowed name hname hshared spec ((h.shared name hname hshared).symm.trans hspec)
    | false => exact h.filled name spec hshared hspec

end RelyLoop.Spaces
