import RelyLoop.Followups.Worker
import RelyLoop.Spaces.Narrowing

/-!
# The narrow path

Without an item to run, the follow-up worker builds a starter space from the template and narrows
it around the parent's best trial. The ranges of the starter come from the declared names and
types alone, so the child's ranges need not have to do with those of the parent.
-/

namespace RelyLoop.Followups

open Python Spaces Studies Ranges

/-! ## Starter ranges are small -/

/-- A range of a starter space lies between 0 and 10. -/
def IsSmall (spec : ParamSpec) : Prop :=
  ∀ range, spec.range? = some range → 0 ≤ range.fst ∧ range.snd ≤ 10

theorem isSmall_boostParam : IsSmall boostParam := by
  intro range hrange
  obtain rfl := Option.some.inj hrange
  norm_num

theorem isSmall_unitParam : IsSmall unitParam := by
  intro range hrange
  obtain rfl := Option.some.inj hrange
  norm_num

theorem isSmall_smallIntParam : IsSmall smallIntParam := by
  intro range hrange
  obtain rfl := Option.some.inj hrange
  norm_num

theorem isSmall_categorical (choice : Choice) (choices : List Choice) :
    IsSmall (categorical choice choices) := by
  intro range hrange
  cases hrange

theorem isSmall_starterSpec (name typeName : String) : IsSmall (starterSpec name typeName) := by
  have hrules : ∀ rule ∈ heuristicRules, IsSmall rule.2 := by
    simp only [heuristicRules, List.forall_mem_cons]
    exact ⟨isSmall_boostParam, isSmall_boostParam, isSmall_unitParam, isSmall_smallIntParam,
      isSmall_categorical _ _, List.forall_mem_nil _⟩
  unfold starterSpec
  split
  · intro range hrange
    cases hrange
  · split
    · rename_i hmatch
      obtain ⟨rule, hrule, rfl⟩ := Option.map_eq_some_iff.mp hmatch
      exact hrules rule (List.mem_of_find?_eq_some hrule)
    · unfold simpleFormSpec
      split_ifs
      · exact isSmall_smallIntParam
      · exact isSmall_unitParam
      · exact isSmall_categorical _ _
      · exact isSmall_categorical _ _
      · exact isSmall_unitParam

variable {params : Dict String ParamSpec}

/-- The fallback only adds small integers. -/
theorem isSmall_applyFallback {order : List String}
    (h : ∀ name spec, params.get? name = some spec → IsSmall spec) :
    ∀ name spec, (applyFallback order params).1.get? name = some spec → IsSmall spec := by
  induction order generalizing params with
  | nil => exact h
  | cons name order ih =>
    have hset : ∀ name' spec, (params.set name smallIntParam).get? name' = some spec →
        IsSmall spec := by
      intro name' spec hget
      rw [Dict.get?_set] at hget
      split at hget
      · exact Option.some.inj hget ▸ isSmall_smallIntParam
      · exact h name' spec hget
    unfold applyFallback
    simp only
    split
    · exact hset
    · exact ih hset

/-- Every specification of a starter space is small. -/
theorem isSmall_starter {declaredParams : Dict String String} {starter : StarterSearchSpace}
    (h : buildStarterSearchSpace declaredParams = .ok starter) :
    ∀ name spec, starter.space.params.get? name = some spec → IsSmall spec := by
  have hstart : ∀ name spec, (declaredParams.mapItems starterSpec).get? name = some spec →
      IsSmall spec := by
    intro name spec hget
    rw [Dict.get?_mapItems] at hget
    obtain ⟨typeName, -, rfl⟩ := Option.map_eq_some_iff.mp hget
    exact isSmall_starterSpec name typeName
  have hmake : ∀ {params : Dict String ParamSpec} {converted : List String},
      (SearchSpace.make params).map (fun space => (⟨space, converted⟩ : StarterSearchSpace)) =
        .ok starter → starter.space.params = params := by
    intro params converted hok
    cases hspace : SearchSpace.make params with
    | error e => simp [hspace, Except.map] at hok
    | ok space =>
      simp only [hspace, Except.map, Except.ok.injEq] at hok
      subst hok
      exact SearchSpace.params_of_make hspace
  unfold buildStarterSearchSpace at h
  split at h
  · cases h
  · simp only at h
    split at h
    · rw [hmake h]
      exact hstart
    · split at h
      · rw [hmake h]
        exact isSmall_applyFallback hstart
      · cases h

/-! ## One parameter -/

variable {A : FloatArith} {start spec spec' : ParamSpec} {winner : Json ℚ} {value : ℚ}
  {winningParams : Dict String (Json ℚ)}

/-- The starter range is narrowed around the winner. -/
def Narrowed (A : FloatArith) (start : ParamSpec) (winner : Json ℚ) : Prop :=
  ∃ value, start.winnerValue winner = some value ∧ start.Bracketed A value (1 / 2)

/-- How the starter range has to lie to the range of the parent: if it is narrowed, no end of the
parent's range lies inside what is left of it; else it lies in the parent's range and has the
winner's value. -/
def StarterFits (A : FloatArith) (start spec : ParamSpec) (winner : Json ℚ) (value : ℚ) : Prop :=
  ∃ startRange range, start.range? = some startRange ∧ spec.range? = some range ∧
    (Narrowed A start winner →
      (range.fst ≤ startRange.fst ∨ range.fst ≤ (start.ends A value (1 / 2)).1) ∧
        (startRange.snd ≤ range.snd ∨ (start.ends A value (1 / 2)).2 ≤ range.snd)) ∧
    (¬ Narrowed A start winner → value ∈ startRange ∧ startRange ≤ range)

/-- Two specifications that take a value from a winner take the same. -/
theorem winnerValue_unique {value' : ℚ} (h : spec.winnerValue winner = some value)
    (h' : spec'.winnerValue winner = some value') : value = value' := by
  have hnumber : ∀ {spec : ParamSpec} {value : ℚ}, spec.winnerValue winner = some value →
      winner = .float value ∨ ∃ i : ℤ, winner = .int i ∧ (i : ℚ) = value := by
    intro spec value hvalue
    cases spec <;> cases winner <;> simp_all [ParamSpec.winnerValue]
  rcases hnumber h with rfl | ⟨i, rfl, rfl⟩
  · rcases hnumber h' with heq | ⟨i, hint, -⟩
    · exact Json.float.inj heq
    · cases hint
  · rcases hnumber h' with hfloat | ⟨j, heq, rfl⟩
    · cases hfloat
    · rw [Json.int.inj heq]

/-- An integer that is no float of 53 bits lies outside of every small range. -/
theorem not_bracketed_of_large {i : ℤ} (hsmall : IsSmall start) (hlarge : ¬ |i| ≤ 2 ^ 53) :
    ¬ start.Bracketed A i (1 / 2) := by
  rintro ⟨range, hrange, hfst, hsnd, -⟩
  obtain ⟨hlow, hhigh⟩ := hsmall range hrange
  have hpos : (0 : ℚ) < i := hlow.trans_lt hfst
  have hten : (i : ℚ) < 10 := hsnd.trans_le hhigh
  have hpos' : 0 < i := by exact_mod_cast hpos
  have hten' : i < 10 := by exact_mod_cast hten
  rw [abs_of_pos hpos'] at hlarge
  omega

/-- A float that is further away than any small range is not narrowed. -/
theorem narrowFloatBounds_of_large (hA : A.Rounds) {p : FloatParam} {i : ℤ} {q : ℚ}
    (hsmall : IsSmall (.float p)) (hlarge : ¬ |i| ≤ 2 ^ 53) (hofInt : A.ofInt i = some q) :
    narrowFloatBounds A p q (1 / 2) = none := by
  obtain ⟨hlow, hhigh⟩ := hsmall p.range rfl
  rw [FloatParam.fst_range] at hlow
  rw [FloatParam.snd_range] at hhigh
  have hzero : A.ofInt 0 = some 0 := by simpa using hA.ofInt_exact 0 (by norm_num)
  have hten : A.ofInt 10 = some 10 := by simpa using hA.ofInt_exact 10 (by norm_num)
  have houtside : q ≤ p.low ∨ q ≥ p.high := by
    rw [not_le] at hlarge
    rcases lt_abs.mp hlarge with hpos | hneg
    · right
      exact hhigh.trans (hA.ofInt_mono 10 i 10 q (by omega) hten hofInt)
    · left
      exact (hA.ofInt_mono i 0 q 0 (by omega) hofInt hzero).trans hlow
  rw [narrowFloatBounds, if_pos houtside]

/-- What narrowing makes of a small range, whatever the winner is. -/
theorem narrowSpec_small_cases (hA : A.Rounds) (hsmall : IsSmall start) {r : Option ParamSpec}
    (h : narrowSpec A start winner (1 / 2) = .ok r) :
    (r = none ∧ ¬ Narrowed A start winner) ∨
      ∃ spec' value, r = some spec' ∧ start.winnerValue winner = some value ∧
        NarrowedBy A start value (1 / 2) spec' := by
  by_cases hfits : FitsFloat A winner
  · have hhalf : (0 : ℚ) < 1 / 2 := by norm_num
    rcases narrowSpec_cases hA hhalf hfits start with
      ⟨hnarrow, houtside⟩ | ⟨spec', value, hnarrow, hvalue, hby⟩
    · left
      refine ⟨Except.ok.inj (h.symm.trans hnarrow), ?_⟩
      rintro ⟨value, hvalue, hbracketed⟩
      exact houtside value hvalue hbracketed
    · exact Or.inr ⟨spec', value, Except.ok.inj (h.symm.trans hnarrow), hvalue, hby⟩
  · have hlarge : ∃ i, winner = .int i ∧ ¬ |i| ≤ 2 ^ 53 := by
      by_contra hnone
      apply hfits
      rintro i rfl
      have hsize : |i| ≤ 2 ^ 53 := by
        by_contra hsize
        exact hnone ⟨i, rfl, hsize⟩
      refine ⟨hA.ofInt_exact i hsize, ?_⟩
      rw [← Int.cast_abs]
      exact hA.ofInt_exact |i| (by rwa [abs_abs])
    obtain ⟨i, rfl, hlarge⟩ := hlarge
    have hnot : ¬ Narrowed A start (.int i) := by
      rintro ⟨value, hvalue, hbracketed⟩
      have hint : value = i := by
        cases start <;> simp_all [ParamSpec.winnerValue]
      exact not_bracketed_of_large hsmall hlarge (hint ▸ hbracketed)
    refine Or.inl ⟨?_, hnot⟩
    cases start with
    | categorical p => exact (Except.ok.inj h).symm
    | normalizerPipeline p => exact (Except.ok.inj h).symm
    | float p =>
      rw [narrowSpec] at h
      cases hofInt : A.ofInt i with
      | none => simp [hofInt] at h
      | some q =>
        simp only [hofInt, narrowFloatBounds_of_large hA hsmall hlarge hofInt] at h
        exact (Except.ok.inj h).symm
    | int p =>
      obtain ⟨hlow, hhigh⟩ := hsmall p.range rfl
      rw [IntParam.fst_range] at hlow
      rw [IntParam.snd_range] at hhigh
      have hlow' : 0 ≤ p.low := by exact_mod_cast hlow
      have hhigh' : p.high ≤ 10 := by exact_mod_cast hhigh
      have houtside : i ≤ p.low ∨ i ≥ p.high := by
        rw [not_le] at hlarge
        rcases lt_abs.mp hlarge with hpos | hneg
        · exact Or.inr (by omega)
        · exact Or.inl (by omega)
      rw [narrowSpec, narrowIntBounds, if_pos houtside] at h
      exact (Except.ok.inj h).symm

/-- The child's range lies in the parent's, around the winner's value, exactly when the starter
range fits. -/
theorem narrowsTo_starter_iff (hA : A.Rounds) (hsmall : IsSmall start) {r : Option ParamSpec}
    (hvalue : spec.winnerValue winner = some value)
    (h : narrowSpec A start winner (1 / 2) = .ok r) :
    spec.NarrowsTo (r.getD start) value ↔ StarterFits A start spec winner value := by
  rcases narrowSpec_small_cases hA hsmall h with
    ⟨rfl, hnot⟩ | ⟨spec', value', rfl, hvalue', hby⟩
  · rw [Option.getD_none]
    constructor
    · rintro ⟨range, startRange, hrange, hstart, hle, hmem⟩
      exact ⟨startRange, range, hstart, hrange, fun h => absurd h hnot, fun _ => ⟨hmem, hle⟩⟩
    · rintro ⟨startRange, range, hstart, hrange, -, hrest⟩
      obtain ⟨hmem, hle⟩ := hrest hnot
      exact ⟨range, startRange, hrange, hstart, hle, hmem⟩
  · obtain rfl := winnerValue_unique hvalue hvalue'
    obtain ⟨startRange, range', hstart, hrange', hclamped⟩ := hby.clamped
    have hmem : value ∈ range' := by
      obtain ⟨_, _, _, hsame, -, hmem⟩ := hby.narrowsTo hA (by norm_num)
      rwa [← Option.some.inj (hsame.symm.trans hrange')]
    have hyes : Narrowed A start winner := ⟨value, hvalue', hby.bracketed⟩
    rw [Option.getD_some]
    constructor
    · rintro ⟨range, _, hrange, hsame, hle, -⟩
      obtain rfl := Option.some.inj (hrange'.symm.trans hsame)
      exact ⟨startRange, range, hstart, hrange, fun _ => hclamped.le_iff.mp hle,
        fun hnot => absurd hyes hnot⟩
    · rintro ⟨_, range, hsame, hrange, hends, -⟩
      obtain rfl := Option.some.inj (hstart.symm.trans hsame)
      exact ⟨range, range', hrange, hrange', hclamped.le_iff.mpr (hends hyes), hmem⟩

/-! ## The child of the narrow path -/

variable {validate : Json ℚ → Except String FollowupItem} {reads : FollowupReads}
  {parent child : StudyRow SearchSpace} {template : QueryTemplate} {starter : StarterSearchSpace}

/-- The space of an inserted child that runs no item. -/
theorem narrowedStarter_of_narrowPath
    (h : followupRow A validate reads parent = .ok (some child))
    (hpath : itemToRun validate reads parent = none)
    (hwinner : parent.bestTrialId.bind reads.trialParams = some winningParams)
    (htemplate : reads.template parent.templateId = some template) :
    narrowedStarter A template winningParams = .ok child.searchSpace := by
  have hruns : ∀ narrowed, (childRow reads parent (dispatch validate reads parent narrowed)
      ).searchSpace = narrowed := by
    intro narrowed
    have hspace : Runs parent narrowed (itemToRun validate reads parent)
        (dispatch validate reads parent narrowed) := dispatch_runs
    rw [hpath] at hspace
    exact hspace.space
  unfold followupRow at h
  split at h
  · cases h
  split at h
  · cases h
  split at h
  · cases h
  rw [hwinner, htemplate] at h
  simp only at h
  split at h
  · cases h
  · rename_i narrowed hnarrowed
    obtain rfl := Option.some.inj (Except.ok.inj h)
    rw [hruns]
    exact hnarrowed

/-- The child admits the winner of its parent: each numeric parameter of the parent that the child
has keeps a part of its range, and the winner's value in it. -/
def AdmitsWinner (parent child : SearchSpace) (winningParams : Dict String (Json ℚ)) : Prop :=
  ∀ name spec spec' winner value, parent.params.get? name = some spec → spec.isNumeric = true →
    child.params.get? name = some spec' → winningParams.get? name = some winner →
    spec.winnerValue winner = some value → spec.NarrowsTo spec' value

/-- The starter range of each numeric parameter of the parent fits. -/
def StarterAdmits (A : FloatArith) (parent : SearchSpace) (starter : StarterSearchSpace)
    (winningParams : Dict String (Json ℚ)) : Prop :=
  ∀ name spec start winner value, parent.params.get? name = some spec → spec.isNumeric = true →
    starter.space.params.get? name = some start → winningParams.get? name = some winner →
    spec.winnerValue winner = some value → StarterFits A start spec winner value

/-- The narrow path admits the parent's winner exactly when the starter ranges of the template fit
the ranges of the parent. -/
theorem narrow_path_admits_iff (hA : A.Rounds)
    (h : followupRow A validate reads parent = .ok (some child))
    (hpath : itemToRun validate reads parent = none)
    (hwinner : parent.bestTrialId.bind reads.trialParams = some winningParams)
    (htemplate : reads.template parent.templateId = some template)
    (hstarter : buildStarterSearchSpace template.declaredParams = .ok starter) :
    AdmitsWinner parent.searchSpace child.searchSpace winningParams ↔
      StarterAdmits A parent.searchSpace starter winningParams := by
  have hchild := narrowedStarter_of_narrowPath h hpath hwinner htemplate
  unfold narrowedStarter at hchild
  rw [hstarter] at hchild
  simp only at hchild
  split at hchild
  · cases hchild
  rename_i narrowed hnarrow
  obtain rfl := Except.ok.inj hchild
  obtain ⟨hparams, -⟩ := of_narrowBoundsAroundWinner hnarrow
  have hsmall := isSmall_starter hstarter
  -- One parameter at a time: the child has what narrowing makes of the starter.
  have hone : ∀ name spec start winner value, starter.space.params.get? name = some start →
      winningParams.get? name = some winner → spec.winnerValue winner = some value →
      ∃ spec', child.searchSpace.params.get? name = some spec' ∧
        (spec.NarrowsTo spec' value ↔ StarterFits A start spec winner value) := by
    intro name spec start winner value hget hwin hvalue
    obtain ⟨r, hr⟩ := narrowSpec_ok_of_ok hnarrow hget hwin
    refine ⟨r.getD start, ?_, narrowsTo_starter_iff hA (hsmall name start hget) hvalue hr⟩
    rw [get?_narrowed hparams hget]
    rw [narrowItem, hwin, Option.bind_some, hr]
    rfl
  constructor
  · intro hadmits name spec start winner value hget hnumeric hstart hwin hvalue
    obtain ⟨spec', hchildget, hiff⟩ := hone name spec start winner value hstart hwin hvalue
    exact hiff.mp (hadmits name spec spec' winner value hget hnumeric hchildget hwin hvalue)
  · intro hfits name spec spec' winner value hget hnumeric hchildget hwin hvalue
    rw [hparams, Dict.get?_mapItems] at hchildget
    obtain ⟨start, hstart, -⟩ := Option.map_eq_some_iff.mp hchildget
    obtain ⟨spec'', hchildget', hiff⟩ := hone name spec start winner value hstart hwin hvalue
    rw [hparams, Dict.get?_mapItems] at hchildget'
    obtain rfl := Option.some.inj (hchildget.symm.trans hchildget')
    exact hiff.mpr (hfits name spec start winner value hget hnumeric hstart hwin hvalue)

/-! ## Two parents with bounds of their own -/

/-- A space of one boost. -/
def boostParams (p : FloatParam) : Dict String ParamSpec := Dict.empty.set "boost" (.float p)

theorem boostParams_ne_nil (p : FloatParam) : (boostParams p).entries ≠ [] := by
  simp [boostParams, Dict.set, Dict.empty]

theorem boostParams_capped (p : FloatParam) :
    estimateCardinality (boostParams p) ≤ cardinalityCap := by
  simp [boostParams, Dict.set, Dict.empty, estimateCardinality, ParamSpec.size, cardinalityCap]

/-- The space of an operator who chooses the bounds of the boost. -/
def ownBounds (p : FloatParam) : SearchSpace where
  params := boostParams p
  nonempty := boostParams_ne_nil p
  capped := boostParams_capped p

theorem quarter_lt_twenty : (1 / 4 : ℚ) < 20 := by norm_num

theorem quarter_pos (_ : true = true) : (0 : ℚ) < 1 / 4 := by norm_num

theorem twenty_lt_fifty : (20 : ℚ) < 50 := by norm_num

theorem twenty_pos (_ : true = true) : (0 : ℚ) < 20 := by norm_num

/-- From 1/4 to 20, around the starter range. -/
def widerBoost : FloatParam := ⟨1 / 4, 20, true, quarter_lt_twenty, quarter_pos⟩

/-- From 20 to 50, beyond the starter range. -/
def higherBoost : FloatParam := ⟨20, 50, true, twenty_lt_fifty, twenty_pos⟩

/-- A completed study with a follow-up to come. -/
def completedOver (p : FloatParam) : StudyRow SearchSpace where
  objective := ⟨.ndcg, some .k10, .maximize⟩
  config := { autoFollowupDepth := some 1 }
  status := .completed
  baselineMetric := some (1 / 10)
  bestMetric := some (3 / 5)
  bestTrialId := some 5
  id := 1
  name := "products"
  clusterId := 1
  target := "products"
  templateId := 1
  querySetId := 1
  judgmentListId := 1
  searchSpace := ownBounds p
  optunaStudyName := 1

/-- A template with one boost. -/
def oneBoost : QueryTemplate := ⟨"products", "elasticsearch", Dict.empty.set "boost" "float"⟩

/-- A delivery whose best trial has one boost. -/
def wonWith (boost : ℚ) : FollowupReads where
  childId := 2
  now := 3
  existingChildren := []
  allTrials := []
  budget := 0
  modelKnown := true
  peekTotal := 0
  maxCallCost := 0
  trialParams _ := some (Dict.empty.set "boost" (.float boost))
  template _ := some oneBoost
  suggestedFollowups := .ok none
  swapReadRaises := false

/-- No text is an item. -/
def readNothing (_ : Json ℚ) : Except String FollowupItem := .error "not an item"

theorem exists_inserted {x : Except FollowupError (Option (StudyRow SearchSpace))}
    (h : x.toOption.join.isSome = true) : ∃ child, x = .ok (some child) := by
  rcases x with e | _ | child
  · cases h
  · cases h
  · exact ⟨child, rfl⟩

/-- The starter space of the template. -/
def oneBoostStarter : StarterSearchSpace := ⟨ownBounds ⟨1 / 2, 10, true, half_lt_ten, half_pos⟩, []⟩

theorem buildStarterSearchSpace_oneBoost :
    buildStarterSearchSpace oneBoost.declaredParams = .ok oneBoostStarter := by
  have hentries : (oneBoost.declaredParams.mapItems starterSpec).entries =
      oneBoostStarter.space.params.entries := by decide +kernel
  have hmake : SearchSpace.make oneBoostStarter.space.params = .ok oneBoostStarter.space := by
    rw [SearchSpace.make, dif_neg oneBoostStarter.space.nonempty,
      dif_pos oneBoostStarter.space.capped]
  unfold buildStarterSearchSpace
  rw [if_neg (by decide), Dict.ext hentries]
  simp only [if_pos oneBoostStarter.space.capped, hmake]
  rfl

/-- Around 2 the starter range is narrowed inside of the parent's. -/
theorem narrow_path_admits_widerBoost :
    ∃ child, followupRow exactArith readNothing (wonWith 2) (completedOver widerBoost) =
        .ok (some child) ∧
      AdmitsWinner (completedOver widerBoost).searchSpace child.searchSpace
        (Dict.empty.set "boost" (.float 2)) := by
  have hrun : ∃ child, followupRow exactArith readNothing (wonWith 2) (completedOver widerBoost) =
      .ok (some child) := exists_inserted (by decide +kernel)
  obtain ⟨child, hchild⟩ := hrun
  refine ⟨child, hchild, (narrow_path_admits_iff exact_exactArith.rounds hchild rfl rfl rfl
    buildStarterSearchSpace_oneBoost).mpr ?_⟩
  intro name spec start winner value hget _ hstart hwin hvalue
  have hname : name = "boost" := by
    by_contra hne
    simp [completedOver, ownBounds, boostParams, Dict.get?_set, hne] at hget
  subst hname
  obtain rfl : ParamSpec.float widerBoost = spec := Option.some.inj hget
  obtain rfl : boostParam = start := Option.some.inj hstart
  obtain rfl : Json.float 2 = winner := Option.some.inj hwin
  obtain rfl : (2 : ℚ) = value := Option.some.inj hvalue
  refine ⟨⟨(1 / 2, 10), half_lt_ten.le⟩, widerBoost.range, rfl, rfl, fun _ => ⟨Or.inl ?_, Or.inl ?_⟩,
    fun _ => ⟨?_, ?_⟩⟩
  · norm_num [widerBoost]
  · norm_num [widerBoost]
  · norm_num [NonemptyInterval.mem_def]
  · norm_num [NonemptyInterval.le_def, widerBoost]

/-- From 20 to 50 with the winner 30 the child runs from 1/2 to 10. -/
theorem starter_leaves_higherBoost :
    ∃ child, followupRow exactArith readNothing (wonWith 30) (completedOver higherBoost) =
        .ok (some child) ∧
      itemToRun readNothing (wonWith 30) (completedOver higherBoost) = none ∧
      child.searchSpace.params.entries = [("boost", boostParam)] ∧
      ¬ AdmitsWinner (completedOver higherBoost).searchSpace child.searchSpace
        (Dict.empty.set "boost" (.float 30)) := by
  have hrun : ∃ child, followupRow exactArith readNothing (wonWith 30) (completedOver higherBoost) =
      .ok (some child) := exists_inserted (by decide +kernel)
  obtain ⟨child, hchild⟩ := hrun
  have hentries : child.searchSpace.params.entries = [("boost", boostParam)] := by
    have heval : (followupRow exactArith readNothing (wonWith 30)
        (completedOver higherBoost)).toOption.join.map (·.searchSpace.params.entries) =
        some [("boost", boostParam)] := by decide +kernel
    rw [hchild] at heval
    exact Option.some.inj heval
  refine ⟨child, hchild, rfl, hentries, fun hadmits => ?_⟩
  have hget : child.searchSpace.params.get? "boost" = some boostParam := by
    rw [Dict.get?_eq_some_iff, hentries]
    exact List.mem_singleton_self _
  obtain ⟨range, range', hrange, hrange', -, hmem⟩ :=
    hadmits "boost" (.float higherBoost) boostParam (.float 30) 30 rfl rfl hget rfl rfl
  obtain rfl := Option.some.inj hrange'
  norm_num [NonemptyInterval.mem_def] at hmem

end RelyLoop.Followups
