import RelyLoop.Followups.Documents

/-!
# Reading stored follow-ups back

The validators invert `model_dump` level by level: elements of lists, parameters, search
spaces and follow-ups. What the parser returns is therefore stable, whatever it was read from.
-/

namespace RelyLoop.Followups

open Python Spaces

variable {c : Coercions} {errorText : Json ℚ → String}

/-! ## Levels of a document -/

theorem mapM_map_of_inverse {α β : Type} {encode : α → β} {decode : β → Option α}
    (h : ∀ a, decode (encode a) = some a) (xs : List α) : (xs.map encode).mapM decode = some xs := by
  induction xs with
  | nil => rfl
  | cons x xs ih => rw [List.map_cons, List.mapM_cons, h, ih]; rfl

theorem validateChoice_toJson (choice : Choice) :
    validateChoice choice.toJson = some choice := by
  cases choice <;> rfl

theorem validateStep_stepValue (step : NormalizerStep) :
    validateStep (.str (stepValue step)) = some step := by
  cases step <;> rfl

/-- A parameter is read back. -/
theorem validateSpec_dumpSpec (hc : c.Documented) (spec : ParamSpec) :
    validateSpec c (dumpSpec spec) = some spec := by
  cases spec with
  | float p =>
    have hp : p.low < p.high ∧ (p.log = true → 0 < p.low) := ⟨p.bounds, p.positive⟩
    change validateFloatParam c (dumpSpec (.float p)) = some (.float p)
    have hlow : ((dumpSpec (.float p)).get? "low").bind c.toFloat = some p.low :=
      hc.toFloat_float p.low
    have hhigh : ((dumpSpec (.float p)).get? "high").bind c.toFloat = some p.high :=
      hc.toFloat_float p.high
    have hlog : validateLog c (dumpSpec (.float p)) = some p.log := hc.toBool_bool p.log
    rw [validateFloatParam, hlow, hhigh, hlog]
    exact dif_pos hp
  | int p =>
    change validateIntParam c (dumpSpec (.int p)) = some (.int p)
    have hlow : ((dumpSpec (.int p)).get? "low").bind c.toInt = some p.low := hc.toInt_int p.low
    have hhigh : ((dumpSpec (.int p)).get? "high").bind c.toInt = some p.high :=
      hc.toInt_int p.high
    rw [validateIntParam, hlow, hhigh]
    exact dif_pos p.bounds
  | categorical p =>
    change validateCategoricalParam (dumpSpec (.categorical p)) = some (.categorical p)
    have hchoices : listField validateChoice "choices" (dumpSpec (.categorical p)) =
        some p.choices := mapM_map_of_inverse validateChoice_toJson p.choices
    rw [validateCategoricalParam, hchoices]
    exact dif_pos p.nonempty
  | normalizerPipeline p =>
    change validateNormalizerPipelineParam (dumpSpec (.normalizerPipeline p)) =
      some (.normalizerPipeline p)
    have hsteps : listField validateStep "steps" (dumpSpec (.normalizerPipeline p)) =
        some p.steps := mapM_map_of_inverse validateStep_stepValue p.steps
    rw [validateNormalizerPipelineParam, hsteps]
    exact (dif_pos p.nonempty).trans (dif_pos p.distinct)

theorem ofList_entries (params : Dict String ParamSpec) : Dict.ofList params.entries = params :=
  Dict.ext (Dict.entries_ofList params.nodup)

/-- A search space is read back, with its parameters in their order. -/
theorem validateSearchSpace_dumpSpace (hc : c.Documented) (space : SearchSpace) :
    validateSearchSpace c (dumpSpace space) = some space := by
  have hentries : (space.params.keys.zip (space.params.entries.map fun e => dumpSpec e.2)).mapM
      (validateEntry c) = some space.params.entries := by
    rw [Dict.keys, List.zip_map']
    apply mapM_map_of_inverse
    intro e
    rw [validateEntry, validateSpec_dumpSpec hc]
    rfl
  change ((space.params.keys.zip (space.params.entries.map fun e => dumpSpec e.2)).mapM
    (validateEntry c)).bind (fun entries => (SearchSpace.make (Dict.ofList entries)).toOption) = _
  rw [hentries, Option.bind_some, ofList_entries, SearchSpace.make, dif_neg space.nonempty,
    dif_pos space.capped]
  rfl

/-- A follow-up is read back. -/
theorem validateFollowup_dumpFollowup (hc : c.Documented) (item : TypedFollowup) :
    validateFollowup c (dumpFollowup item) = some item := by
  cases item with
  | narrow rationale space =>
    change (validateSearchSpace c (dumpSpace space)).bind
      (fun space => some (TypedFollowup.narrow rationale space)) = _
    rw [validateSearchSpace_dumpSpace hc]
    rfl
  | widen rationale space =>
    change (validateSearchSpace c (dumpSpace space)).bind
      (fun space => some (TypedFollowup.widen rationale space)) = _
    rw [validateSearchSpace_dumpSpace hc]
    rfl
  | text rationale => rfl
  | swapTemplate rationale templateId space =>
    change (validateSearchSpace c (dumpSpace space)).bind (fun space =>
      if h : templateId.1.length = 36 then
        some (TypedFollowup.swapTemplate rationale ⟨templateId.1, h⟩ space) else none) = _
    rw [validateSearchSpace_dumpSpace hc, Option.bind_some, dif_pos templateId.2]

/-! ## The parser -/

/-- A text follow-up can be made of every rationale. -/
theorem makeText_eq (rationale : String) : makeText rationale = .ok (.text rationale) := rfl

/-- What counts as a well-formed item: a legacy string, or an object that is validated. -/
def wellFormedItem (c : Coercions) : Json ℚ → Option TypedFollowup
  | .str rationale => some (.text rationale)
  | .dict keys values => validateFollowup c (.dict keys values)
  | _ => none

theorem tryTextOnlyDoc_ok (doc : Json ℚ) (validationError : String) :
    ∃ item, tryTextOnlyDoc doc validationError = .ok item := by
  unfold tryTextOnlyDoc
  split
  · split
    · exact ⟨_, rfl⟩
    · exact ⟨_, rfl⟩
  · exact ⟨_, rfl⟩

/-- One item never raises, and is kept when it is well formed. -/
theorem parseDoc_spec (c : Coercions) (errorText : Json ℚ → String) (doc : Json ℚ) :
    ∃ item, parseDoc c errorText doc = .ok item ∧
      ∀ kept, wellFormedItem c doc = some kept → item = some kept := by
  cases doc with
  | str rationale => exact ⟨some (.text rationale), rfl, fun kept h => h⟩
  | dict keys values =>
    rw [parseDoc]
    cases hvalid : validateFollowup c (.dict keys values) with
    | some item => exact ⟨some item, rfl, fun kept h => hvalid.symm.trans h⟩
    | none =>
      obtain ⟨item, hitem⟩ :=
        tryTextOnlyDoc_ok (.dict keys values) (errorText (.dict keys values))
      refine ⟨item, hitem, fun kept h => ?_⟩
      cases hvalid.symm.trans h
  | null => exact ⟨none, rfl, fun kept h => by cases h⟩
  | bool b => exact ⟨none, rfl, fun kept h => by cases h⟩
  | int i => exact ⟨none, rfl, fun kept h => by cases h⟩
  | float q => exact ⟨none, rfl, fun kept h => by cases h⟩
  | list items => exact ⟨none, rfl, fun kept h => by cases h⟩

/-- The loop never raises, and keeps the well-formed items in order. -/
theorem parseDocs_spec (c : Coercions) (errorText : Json ℚ → String) (docs : List (Json ℚ)) :
    ∃ items, parseDocs c errorText docs = .ok items ∧
      (docs.filterMap (wellFormedItem c)).Sublist items := by
  induction docs with
  | nil => exact ⟨[], rfl, .slnil⟩
  | cons doc docs ih =>
    obtain ⟨item, hitem, hkept⟩ := parseDoc_spec c errorText doc
    obtain ⟨items, hitems, hsublist⟩ := ih
    refine ⟨item.toList ++ items, ?_, ?_⟩
    · rw [parseDocs, hitem, hitems]
      rfl
    · cases hdoc : wellFormedItem c doc with
      | none =>
        rw [List.filterMap_cons_none hdoc]
        exact hsublist.trans (List.sublist_append_right _ _)
      | some kept =>
        rw [List.filterMap_cons_some hdoc, hkept kept hdoc]
        exact hsublist.cons_cons kept

/-- Documents that are dumps of follow-ups are read back as these. -/
theorem parseDocs_serializeFollowupList (hc : c.Documented) (items : List TypedFollowup) :
    parseDocs c errorText (serializeFollowupList items) = .ok items := by
  induction items with
  | nil => rfl
  | cons item items ih =>
    have hitem : parseDoc c errorText (dumpFollowup item) = .ok (some item) := by
      obtain ⟨parsed, hparsed, hkept⟩ := parseDoc_spec c errorText (dumpFollowup item)
      have hwell : wellFormedItem c (dumpFollowup item) = some item := by
        have hvalid := validateFollowup_dumpFollowup hc item
        cases item <;> exact hvalid
      rw [hparsed, hkept item hwell]
    change parseDocs c errorText (dumpFollowup item :: serializeFollowupList items) = _
    rw [parseDocs, hitem, ih]
    rfl

/-- Reading never raises, keeps the well-formed items, inverts the serialization, and is
stable under writing and reading again. -/
theorem followups_round_trip (hc : c.Documented) (errorText : Json ℚ → String) :
    (∀ items, parseStoredFollowups c errorText (.list (serializeFollowupList items)) = .ok items) ∧
      ∀ raw, ∃ items, parseStoredFollowups c errorText raw = .ok items ∧
        (∀ docs, raw = .list docs → (docs.filterMap (wellFormedItem c)).Sublist items) ∧
        parseStoredFollowups c errorText (.list (serializeFollowupList items)) = .ok items := by
  have hround : ∀ items,
      parseStoredFollowups c errorText (.list (serializeFollowupList items)) = .ok items :=
    parseDocs_serializeFollowupList hc
  refine ⟨hround, fun raw => ?_⟩
  cases raw with
  | list docs =>
    obtain ⟨items, hitems, hsublist⟩ := parseDocs_spec c errorText docs
    refine ⟨items, hitems, fun docs' h => ?_, hround items⟩
    obtain rfl := Json.list.inj h
    exact hsublist
  | null => exact ⟨[], rfl, fun docs h => (by cases h), rfl⟩
  | bool b => exact ⟨[], rfl, fun docs h => (by cases h), rfl⟩
  | int i => exact ⟨[], rfl, fun docs h => (by cases h), rfl⟩
  | float q => exact ⟨[], rfl, fun docs h => (by cases h), rfl⟩
  | str s => exact ⟨[], rfl, fun docs h => (by cases h), rfl⟩
  | dict keys values => exact ⟨[], rfl, fun docs h => (by cases h), rfl⟩

/-- The conversions of numbers and booleans. -/
def plainCoercions : Coercions where
  toFloat
    | .float q => some q
    | .int i => some i
    | _ => none
  toInt
    | .int i => some i
    | _ => none
  toBool
    | .bool b => some b
    | _ => none

/-- A legacy string, an item with integer bounds of a float, one of an unknown kind, and null. -/
def mixedColumn : Json ℚ :=
  .list
    [.str "Try more fields.",
      .dict ["kind", "rationale", "search_space"]
        [.str "narrow", .str "The winner is inside.",
          .dict ["params"] [.dict ["boost"] [.dict ["type", "low", "high"]
            [.str "float", .int 1, .int 3]]]],
      .dict ["kind", "rationale"] [.str "rerank", .str "Use a model."],
      .null]

theorem followups_round_trip_mixedColumn :
    ∃ items, parseStoredFollowups plainCoercions (fun _ => "union_tag_invalid") mixedColumn =
        .ok items ∧
      (∀ docs, mixedColumn = .list docs →
        (docs.filterMap (wellFormedItem plainCoercions)).Sublist items) ∧
      parseStoredFollowups plainCoercions (fun _ => "union_tag_invalid")
        (.list (serializeFollowupList items)) = .ok items :=
  (followups_round_trip ⟨fun _ => rfl, fun _ => rfl, fun _ => rfl⟩
    fun _ => "union_tag_invalid").2 mixedColumn

/-! ## The follow-ups that the worker reads -/

/-- A typed follow-up as the selection sees it; template ids are numbered. -/
def TypedFollowup.toItem (idOf : String → ℕ) : TypedFollowup → FollowupItem
  | narrow rationale space => .narrow rationale space
  | widen rationale space => .widen rationale space
  | text rationale => .text rationale
  | swapTemplate rationale templateId space => .swapTemplate rationale (idOf templateId) space

/-- The validation of an item for the selection. -/
def validateForSelection (c : Coercions) (errorText : Json ℚ → String) (idOf : String → ℕ)
    (doc : Json ℚ) : Except String FollowupItem :=
  match validateFollowup c doc with
  | some item => .ok (item.toItem idOf)
  | none => .error (errorText doc)

theorem tryTextOnlyDoc_eq (idOf : String → ℕ) (doc : Json ℚ) (validationError : String) :
    (tryTextOnlyDoc doc validationError).map (Option.map (TypedFollowup.toItem idOf)) =
      .ok (tryTextOnly doc validationError) := by
  unfold tryTextOnlyDoc tryTextOnly
  cases doc.get? "rationale" with
  | none => rfl
  | some value =>
    cases value with
    | str rationale =>
      by_cases hblank : strip rationale.toList = []
      · simp only [if_pos hblank]
        rfl
      · simp only [if_neg hblank]
        rfl
    | _ => rfl

theorem parseDoc_eq (idOf : String → ℕ) (doc : Json ℚ) :
    (parseDoc c errorText doc).map (Option.map (TypedFollowup.toItem idOf)) =
      .ok (parseFollowup (validateForSelection c errorText idOf) doc) := by
  cases doc with
  | dict keys values =>
    rw [parseDoc, parseFollowup, validateForSelection]
    cases validateFollowup c (.dict keys values) with
    | some item => rfl
    | none => exact tryTextOnlyDoc_eq idOf _ _
  | str rationale => rfl
  | null => rfl
  | bool b => rfl
  | int i => rfl
  | float q => rfl
  | list items => rfl

end RelyLoop.Followups
