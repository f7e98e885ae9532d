import RelyLoop.Followups.ChainRuns
import RelyLoop.Spaces.Swap

/-!
# Follow-ups and the checks of the create endpoint

The follow-up worker inserts a study without the checks that the create endpoint makes. The
starter space passes them; what a digest suggests has to pass them as it stands there. The digest
worker remaps the swaps to their templates, and leaves the other suggestions as they are.
-/

namespace RelyLoop.Followups

open Python Spaces Studies

/-! ## What the digest worker stores -/

/-- The reasons of `_downgrade_swap_template_to_text`, with their prefixes. -/
inductive DowngradeReason where
  | notFound
  | sameAsParent
  | engineTypeMismatch
  | remapInvalidSearchSpace (e : SpaceError)

/-- `_SWAP_DOWNGRADE_PREFIXES`. -/
def DowngradeReason.text : DowngradeReason → String
  | notFound => "swap_template target template not found"
  | sameAsParent => "swap_template target is the same as the parent template"
  | engineTypeMismatch => "swap_template target engine_type differs from parent cluster"
  | remapInvalidSearchSpace _ => "swap_template remap produced an invalid search_space"

/-- How ids and errors are written. -/
structure Texts where
  id : ℕ → String
  error : SpaceError → String

/-- `_downgrade_swap_template_to_text`. -/
def downgradeSwapTemplateToText (texts : Texts) (rationale : String) (templateId : ℕ)
    (reason : DowngradeReason) : FollowupItem :=
  let body := "[validation failed: " ++ reason.text ++ ": " ++ texts.id templateId ++ "]"
  match reason with
  | .remapInvalidSearchSpace e =>
    let tail := String.ofList (truncateValidationError (texts.error e).toList)
    .text (if texts.error e = "" then body ++ " " ++ rationale
      else body ++ " (" ++ tail ++ ") " ++ rationale)
  | _ => .text (body ++ " " ++ rationale)

/-- What the digest worker knows of the study. -/
structure DigestStudy where
  templateId : ℕ
  declaredParams : Dict String String
  engineType : String
  template : ℕ → Option QueryTemplate

/-- One item of `_apply_swap_template_remap`. -/
def remapItem (texts : Texts) (study : DigestStudy) : FollowupItem → FollowupItem
  | .swapTemplate rationale templateId space =>
    let downgrade := downgradeSwapTemplateToText texts rationale templateId
    match study.template templateId with
    | none => downgrade .notFound
    | some target =>
      if templateId = study.templateId then downgrade .sameAsParent
      else if target.engineType ≠ study.engineType then downgrade .engineTypeMismatch
      else
        match remapSearchSpaceForSwapTarget study.declaredParams target.declaredParams space with
        | .error e => downgrade (.remapInvalidSearchSpace e)
        | .ok result => .swapTemplate rationale templateId result.searchSpace
  | item => item

/-- The follow-ups that the digest worker stores; without a cluster nothing is remapped. -/
def storedFollowups (texts : Texts) (study : Option DigestStudy) (parsed : List FollowupItem) :
    List FollowupItem :=
  match study with
  | none => parsed.take 5
  | some study => (parsed.take 5).map (remapItem texts study)

/-! ## What an insert has to meet -/

/-- The checks of the create endpoint accept the space of a study under its template. -/
structure CreateAccepts (reads : FollowupReads) (row : StudyRow SearchSpace) (t : QueryTemplate) :
    Prop where
  found : reads.template row.templateId = some t
  template : validateAgainstTemplate row.searchSpace t.declaredParams t.name = .ok ()
  reservation : validateNormalizerReservation row.searchSpace = .ok ()

/-- The space of an item has the names of the template that it runs on, the normalizer key holds
a pipeline or choices of the allowlist, and no other key a pipeline. -/
def ItemFits (reads : FollowupReads) (parent : StudyRow SearchSpace) (item : FollowupItem) :
    Prop :=
  ∀ space t, item.space? = some space →
    reads.template (item.target parent.templateId) = some t →
    Fits t.declaredParams.keys space.params

variable {A : FloatArith} {validate : Json ℚ → Except String FollowupItem}
  {reads : FollowupReads} {parent child : StudyRow SearchSpace} {texts : Texts}
  {study : DigestStudy}

/-- Both checks pass exactly for the spaces that fit. -/
theorem fits_iff {space : SearchSpace} {t : QueryTemplate} :
    Fits t.declaredParams.keys space.params ↔
      validateAgainstTemplate space t.declaredParams t.name = .ok () ∧
        validateNormalizerReservation space = .ok () := by
  constructor
  · exact fun h => h.accepted t.name
  · rintro ⟨htemplate, hreservation⟩
    exact ⟨validateAgainstTemplate_iff.mp htemplate,
      validateNormalizerReservation_iff.mp hreservation⟩

/-- The narrowed starter space fits its template. -/
theorem fits_of_narrowedStarter {t : QueryTemplate} {winningParams : Dict String (Json ℚ)}
    {space : SearchSpace} (h : narrowedStarter A t winningParams = .ok space) :
    Fits t.declaredParams.keys space.params := by
  unfold narrowedStarter at h
  split at h
  · cases h
  · rename_i starter hstarter
    split at h
    · cases h
    · rename_i narrowed hnarrow
      obtain rfl := Except.ok.inj h
      exact (fits_of_buildStarterSearchSpace hstarter).narrowBoundsAroundWinner hnarrow

/-- The template of an inserted row exists. -/
theorem exists_template (h : followupRow A validate reads parent = .ok (some child)) :
    ∃ t, reads.template child.templateId = some t := by
  obtain ⟨t, narrowed, hinserted⟩ := inserted_of_followupRow h
  have hchild := child_of_inserted hinserted
  cases hitem : itemToRun validate reads parent with
  | none =>
    refine ⟨t, ?_⟩
    rw [hchild.template, hitem]
    exact hinserted.found
  | some item =>
    have hfound := (of_itemToRun hitem).2
    rw [hchild.template, hitem, Option.map_some, Option.getD_some]
    cases item with
    | swapTemplate rationale templateId space =>
      simp only [targetFound, Bool.and_eq_true] at hfound
      exact Option.isSome_iff_exists.mp hfound.2
    | narrow rationale space => exact ⟨t, hinserted.found⟩
    | widen rationale space => exact ⟨t, hinserted.found⟩
    | text rationale => exact ⟨t, hinserted.found⟩

/-- What a delivery inserts passes the checks of the create endpoint exactly when the follow-up
of the digest that it runs, if any, fits its template. -/
theorem child_accepted_iff (h : followupRow A validate reads parent = .ok (some child)) :
    (∃ t, CreateAccepts reads child t) ↔
      ∀ item, itemToRun validate reads parent = some item → ItemFits reads parent item := by
  obtain ⟨t, narrowed, hinserted⟩ := inserted_of_followupRow h
  obtain ⟨winningParams, hnarrowed⟩ := hinserted.narrows
  have hchild := child_of_inserted hinserted
  have haccepts : (∃ t, CreateAccepts reads child t) ↔
      ∀ t, reads.template child.templateId = some t →
        Fits t.declaredParams.keys child.searchSpace.params := by
    obtain ⟨t', ht'⟩ := exists_template h
    constructor
    · rintro ⟨t'', haccepted⟩ t₁ ht₁
      obtain rfl : t'' = t₁ := Option.some.inj (haccepted.found.symm.trans ht₁)
      exact fits_iff.mpr ⟨haccepted.template, haccepted.reservation⟩
    · intro hfits
      obtain ⟨htemplate, hreservation⟩ := fits_iff.mp (hfits t' ht')
      exact ⟨t', ht', htemplate, hreservation⟩
  rw [haccepts]
  cases hitem : itemToRun validate reads parent with
  | none =>
    rw [hitem] at hchild
    simp only [reduceCtorEq, false_imp_iff, implies_true, iff_true]
    intro t' ht'
    rw [hchild.template] at ht'
    obtain rfl : t = t' := Option.some.inj (hinserted.found.symm.trans ht')
    rw [hchild.space]
    exact fits_of_narrowedStarter hnarrowed
  | some item =>
    rw [hitem] at hchild
    have htemplate : child.templateId = item.target parent.templateId := hchild.template
    obtain ⟨space, hspace⟩ : ∃ space, item.space? = some space := by
      have hexecutable := (of_itemToRun hitem).1
      cases item with
      | text rationale => cases hexecutable
      | narrow rationale space => exact ⟨space, rfl⟩
      | widen rationale space => exact ⟨space, rfl⟩
      | swapTemplate rationale templateId space => exact ⟨space, rfl⟩
    have hchildSpace : child.searchSpace = space := by
      rw [hchild.space, Option.bind_some, hspace, Option.getD_some]
    rw [hchildSpace, htemplate]
    constructor
    · intro hfits item' hitem' space' t' hspace' ht'
      obtain rfl := Option.some.inj hitem'
      obtain rfl : space = space' := Option.some.inj (hspace.symm.trans hspace')
      exact hfits t' ht'
    · exact fun hfits t' ht' => hfits item rfl space t' hspace ht'

/-! ## Suggestions of the digest worker -/

/-- A stored swap was remapped to its template. -/
theorem remapped_of_stored {parsed : List FollowupItem} {rationale : String} {templateId : ℕ}
    {space : SearchSpace}
    (h : .swapTemplate rationale templateId space ∈ storedFollowups texts (some study) parsed) :
    ∃ target llm, study.template templateId = some target ∧
      .swapTemplate rationale templateId llm ∈ parsed ∧
      Remapped study.declaredParams target.declaredParams llm space := by
  obtain ⟨item, hitem, hremap⟩ := List.mem_map.mp h
  have hmem := List.mem_of_mem_take hitem
  cases item with
  | narrow rationale' space' => cases hremap
  | widen rationale' space' => cases hremap
  | text rationale' => cases hremap
  | swapTemplate rationale' templateId' llm =>
    have hdowngrade : ∀ reason, downgradeSwapTemplateToText texts rationale' templateId' reason ≠
        .swapTemplate rationale templateId space := by
      rintro (_ | _ | _ | e) <;> simp [downgradeSwapTemplateToText]
    simp only [remapItem] at hremap
    split at hremap
    · exact absurd hremap (hdowngrade _)
    rename_i target htarget
    split at hremap
    · exact absurd hremap (hdowngrade _)
    split at hremap
    · exact absurd hremap (hdowngrade _)
    split at hremap
    · exact absurd hremap (hdowngrade _)
    rename_i result hresult
    obtain ⟨rfl, rfl, rfl⟩ := FollowupItem.swapTemplate.inj hremap
    exact ⟨target, llm, htarget, hmem, remapped hresult⟩

/-- What the digest worker knows of a study of the template 1. -/
def boostStudy : DigestStudy where
  templateId := 1
  declaredParams := boostTemplate.declaredParams
  engineType := "elasticsearch"
  template := (suggesting 2 (swapJson secondId)).template

/-- Ids in decimal, and errors without a text. -/
def plainTexts : Texts where
  id := toString
  error _ := ""

theorem nodup_slop : ([("slop", smallIntParam)].map Prod.fst).Nodup := List.nodup_singleton _

theorem slop_capped :
    estimateCardinality ⟨[("slop", smallIntParam)], nodup_slop⟩ ≤ cardinalityCap := by
  decide

/-- One slop from 0 to 5. -/
def slopSpace : SearchSpace where
  params := ⟨[("slop", smallIntParam)], nodup_slop⟩
  nonempty := List.cons_ne_nil _ _
  capped := slop_capped

/-- A suggestion to narrow the slop. -/
def narrowJson : Json ℚ :=
  .dict ["kind", "rationale", "search_space"]
    [.str "narrow", .str "Lower the slop.",
     .dict ["params"] [.dict ["slop"] [.dict ["type", "low", "high"] [.str "int", .int 0, .int 5]]]]

/-- How the suggestion with the slop is read. -/
def readNarrow : Json ℚ → Except String FollowupItem
  | .dict _ [.str "narrow", .str rationale, _] => .ok (.narrow rationale slopSpace)
  | _ => .error "not a narrow"

/-- The parent of both deliveries. -/
def liftedParent : StudyRow SearchSpace := ended lifted followingRoot.row

theorem exists_child {validate : Json ℚ → Except String FollowupItem} {reads : FollowupReads}
    (h : (followupRow exactArith validate reads liftedParent).toOption.join.isSome = true) :
    ∃ child, followupRow exactArith validate reads liftedParent = .ok (some child) := by
  cases hrow : followupRow exactArith validate reads liftedParent with
  | error e => simp [hrow, Except.toOption] at h
  | ok row =>
    cases row with
    | none => simp [hrow, Except.toOption] at h
    | some child => exact ⟨child, rfl⟩

/-- A swap to a template with the same parameter is accepted. -/
theorem child_accepted_of_swap : ∃ child,
    followupRow exactArith readSwap (suggesting 2 (swapJson secondId)) liftedParent =
      .ok (some child) ∧
    ∃ t, CreateAccepts (suggesting 2 (swapJson secondId)) child t := by
  obtain ⟨child, hchild⟩ : ∃ child, followupRow exactArith readSwap
      (suggesting 2 (swapJson secondId)) liftedParent = .ok (some child) :=
    exists_child (by decide +kernel)
  refine ⟨child, hchild, (child_accepted_iff hchild).mpr fun item hitem => ?_⟩
  have hswap : itemToRun readSwap (suggesting 2 (swapJson secondId)) liftedParent =
      some (.swapTemplate "Try another template." 2 boostSpace) := rfl
  obtain rfl := Option.some.inj (hswap.symm.trans hitem)
  intro space t hspace ht
  obtain rfl := Option.some.inj hspace
  obtain rfl := Option.some.inj ht
  exact fits_iff.mpr ⟨by decide +kernel, by decide +kernel⟩

/-- A narrow suggestion with a parameter that the template does not declare is inserted, and would
be refused. -/
theorem narrow_with_undeclared_param : ∃ child,
    followupRow exactArith readNarrow (suggesting 2 narrowJson) liftedParent =
      .ok (some child) ∧
    ¬ ∃ t, CreateAccepts (suggesting 2 narrowJson) child t := by
  obtain ⟨child, hrow⟩ : ∃ child, followupRow exactArith readNarrow
      (suggesting 2 narrowJson) liftedParent = .ok (some child) :=
    exists_child (by decide +kernel)
  refine ⟨child, hrow, ?_⟩
  rintro ⟨t, haccepted⟩
  obtain ⟨t', narrowed, hinserted⟩ := inserted_of_followupRow hrow
  have hchild := child_of_inserted hinserted
  have hspace : child.searchSpace = slopSpace := hchild.space
  have hfound : (suggesting 2 narrowJson).template child.templateId = some boostTemplate := by
    rw [hchild.template]
    rfl
  obtain rfl := Option.some.inj (haccepted.found.symm.trans hfound)
  have haccepts := haccepted.template
  rw [hspace] at haccepts
  exact absurd haccepts (by decide +kernel)

end RelyLoop.Followups
