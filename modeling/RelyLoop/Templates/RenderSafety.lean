import RelyLoop.Python.Loops
import RelyLoop.Spaces.Midpoints
import RelyLoop.Templates.Validator

/-!
# Rendering an accepted template

A template that was accepted, a space that was accepted for it and any assignment of the space:
rendering finds every parameter and knows every normalizer. An undefined value is one that an
expression of the template computes.
-/

namespace RelyLoop.Templates

open Python Spaces Normalizers

/-! ## Labels -/

theorem stepForToken_labelToken {F : Type} (label : String) (step : NormalizerStep) :
    stepForToken (F := F) label step.labelToken.toList = .ok step := by
  cases step <;> rfl

/-- The label of a subset is read as steps. -/
theorem stepsForLabel_labelForSubset {F : Type} (subset : List NormalizerStep) :
    ∃ steps, stepsForLabel (F := F) (labelForSubset subset) = .ok steps := by
  unfold stepsForLabel
  split_ifs with hnone
  · exact ⟨[], rfl⟩
  · obtain ⟨step, hstep⟩ : ∃ step, step ∈ subset := by
      apply List.exists_mem_of_ne_nil
      rintro rfl
      exact hnone rfl
    have hne : (labelOrder.filter (· ∈ subset)).map
        (fun step => step.labelToken.toList) ≠ [] := by
      rw [ne_eq, List.map_eq_nil_iff, List.filter_eq_nil_iff]
      intro hnot
      exact hnot step (by cases step <;> decide) (decide_eq_true hstep)
    have hplus : ∀ token ∈ (labelOrder.filter (· ∈ subset)).map
        (fun step => step.labelToken.toList), '+' ∉ token := by
      intro token htoken
      obtain ⟨step, -, rfl⟩ := List.mem_map.mp htoken
      cases step <;> decide
    have hsplit : (labelForSubset subset).toList.splitOn '+' =
        (labelOrder.filter (· ∈ subset)).map fun step => step.labelToken.toList := by
      rw [labelForSubset, if_neg (List.ne_nil_of_mem hstep), String.toList_intercalate,
        List.map_map]
      exact List.splitOn_intercalate '+' hplus hne
    have hresolved : ∃ resolved, ((labelForSubset subset).toList.splitOn '+').mapM
        (stepForToken (F := F) (labelForSubset subset)) = .ok resolved := by
      rw [hsplit, mapM_isOk_iff]
      intro token htoken
      obtain ⟨step, -, rfl⟩ := List.mem_map.mp htoken
      exact ⟨step, stepForToken_labelToken _ step⟩
    obtain ⟨resolved, hresolved⟩ := hresolved
    rw [hresolved]
    exact ⟨_, rfl⟩

/-- What the reserved parameter takes is the label of a subset. -/
theorem exists_subset_of_allows {spec : ParamSpec} {value : Json ℚ}
    (hspec : IsNormalizerSpec spec) (h : spec.Allows value) :
    ∃ subset, value = .str (labelForSubset subset) := by
  cases spec with
  | float p => cases hspec
  | int p => cases hspec
  | categorical p =>
    obtain ⟨choice, hchoice, rfl⟩ := h
    have hlabel := hspec choice hchoice
    cases choice with
    | str s =>
      have hmem : s ∈ normalizerChoices := by simpa [isNormalizerChoice] using hlabel
      simp only [normalizerChoices, List.mem_cons, List.not_mem_nil, or_false] at hmem
      rcases hmem with rfl | rfl | rfl | rfl
      · exact ⟨[], rfl⟩
      · exact ⟨[.lowercase], rfl⟩
      · exact ⟨[.lowercase, .trim], rfl⟩
      · exact ⟨[.lowercase, .trim, .expandContractionsEn], rfl⟩
    | int i => cases hlabel
    | float q => cases hlabel
    | bool b => cases hlabel
  | normalizerPipeline p =>
    obtain ⟨label, hlabel, rfl⟩ := h
    obtain ⟨⟨size, label⟩, hsized, rfl⟩ := List.mem_map.mp hlabel
    obtain ⟨r, -, hcombo⟩ := List.mem_flatMap.mp ((List.perm_insertionSort _ _).mem_iff.mp hsized)
    obtain ⟨combo, -, heq⟩ := List.mem_map.mp hcombo
    obtain ⟨-, rfl⟩ := Prod.mk.inj heq
    exact ⟨combo, rfl⟩

/-! ## The context -/

variable {template : QueryTemplate} {params : Dict String (Json ℚ)}

/-- With every declared parameter and a label there is a context, with every name that an accepted
template may look up. -/
theorem renderContext_ok (table : CharacterTable) (queryText : List Char)
    (hdeclared : ∀ name ∈ template.declaredParams.keys, name ∈ params.keys)
    (hlabel : ∃ subset, (params.get? queryNormalizer).getD (.str defaultNormalizer) =
      .str (labelForSubset subset)) :
    ∃ context, renderContext table template params queryText = .ok context ∧
      ∀ name, (name = "query_text" ∨ name ∈ template.declaredParams.keys) →
        name ≠ queryNormalizer → context.get? name ≠ none := by
  obtain ⟨subset, hsubset⟩ := hlabel
  obtain ⟨steps, hsteps⟩ := stepsForLabel_labelForSubset (F := ℚ) subset
  have hkept (name : String) (hname : name ∈ template.declaredParams.keys)
      (hne : name ≠ queryNormalizer) : name ∈ (params.erase queryNormalizer).keys :=
    Dict.mem_keys_erase.mpr ⟨hdeclared name hname, hne⟩
  have hmissing : (template.declaredParams.keys.filter fun name =>
      name ∉ (params.erase queryNormalizer).keys ∧ name ≠ queryNormalizer) = [] := by
    rw [List.filter_eq_nil_iff]
    intro name hname hmissing
    obtain ⟨hnot, hne⟩ := of_decide_eq_true hmissing
    exact hnot (hkept name hname hne)
  refine ⟨(params.erase queryNormalizer).set "query_text"
    (.str (String.ofList (normalizePipeline table queryText steps))), ?_, ?_⟩
  · rw [renderContext, hsubset]
    dsimp only
    rw [hsteps]
    exact if_pos hmissing
  · intro name hname hne
    rw [Dict.get?_set]
    split_ifs with hquery
    · exact Option.some_ne_none _
    · have hkey := hkept name (hname.resolve_left hquery) hne
      obtain ⟨value, hvalue⟩ := Dict.exists_get?_of_mem_keys hkey
      rw [hvalue]
      exact Option.some_ne_none value

/-! ## Errors of a trial -/

/-- An error about a parameter that is missing or undefined, or about a normalizer. -/
def IsParameterError : RenderError ℚ → Prop
  | .missingParams _ | .undefinedParameter _ => True
  | .unknownNormalizer _ | .unknownLabelToken _ _ => True
  | .template _ => False

/-- What is checked when the template is registered and when the study is created. -/
structure Accepted {ρ : Type} (engine : TemplateEngine ρ) (template : QueryTemplate)
    (templateName : String) (space : SearchSpace) : Prop where
  body : validateTemplateBody engine template.body template.declaredParams = .ok ()
  params : validateAgainstTemplate space template.declaredParams templateName = .ok ()
  reservation : validateNormalizerReservation space = .ok ()

/-- The optimizer suggests values that the parameters allow. -/
def SuggestsAllowed (suggest : String → ParamSpec → Json ℚ) (space : SearchSpace) : Prop :=
  ∀ name spec, space.params.get? name = some spec → spec.Allows (suggest name spec)

variable {ρ : Type} {engine : TemplateEngine ρ} {templateName : String} {space : SearchSpace}
  {suggest : String → ParamSpec → Json ℚ}

/-- A sampled assignment has every declared parameter and no label that is unknown. -/
theorem renderContext_of_accepted (haccepted : Accepted engine template templateName space)
    (hsuggest : SuggestsAllowed suggest space) (table : CharacterTable) (queryText : List Char) :
    ∃ context, renderContext table template (applySearchSpace suggest space) queryText =
        .ok context ∧
      ∀ name, (name = "query_text" ∨ name ∈ template.declaredParams.keys) →
        name ≠ queryNormalizer → context.get? name ≠ none := by
  apply renderContext_ok
  · intro name hname
    rw [keys_applySearchSpace]
    exact (validateAgainstTemplate_iff.mp haccepted.params name).mpr hname
  · rw [applySearchSpace, Dict.get?_mapItems]
    cases hspec : space.params.get? queryNormalizer with
    | none => exact ⟨[], rfl⟩
    | some spec =>
      have hallowed := validateNormalizerReservation_iff.mp haccepted.reservation _ spec hspec
      rw [SpecAllowed, if_pos rfl] at hallowed
      exact exists_subset_of_allows hallowed (hsuggest queryNormalizer spec hspec)

/-- The only parameter error of a trial is an undefined value that the template computes. -/
theorem parameter_error_is_computed (haccepted : Accepted engine template templateName space)
    (hsuggest : SuggestsAllowed suggest space) (table : CharacterTable) (queryText : List Char)
    {error : RenderError ℚ} (h : renderTemplateToDict engine.renderTemplate table template
      (applySearchSpace suggest space) queryText = .error error) (herror : IsParameterError error) :
    ∃ ast context text, engine.parse template.body = .ok ast ∧
      renderContext table template (applySearchSpace suggest space) queryText = .ok context ∧
      (∀ name ∈ engine.findUndeclaredVariables ast, context.get? name ≠ none) ∧
      engine.render ast context = .error (.undefinedValue text) ∧
      error = .undefinedParameter text := by
  obtain ⟨ast, hparse, hnames⟩ := validateTemplateBody_ok haccepted.body
  obtain ⟨context, hcontext, hdefined⟩ :=
    renderContext_of_accepted haccepted hsuggest table queryText
  have hlookups (name : String) (hname : name ∈ engine.findUndeclaredVariables ast) :
      context.get? name ≠ none := hdefined name (hnames name hname).1 (hnames name hname).2
  rw [renderTemplateToDict, hcontext] at h
  dsimp only [bind, Except.bind] at h
  rw [TemplateEngine.renderTemplate, hparse] at h
  dsimp only at h
  cases hrender : engine.render ast context with
  | ok rendered =>
    rw [hrender] at h
    cases h
  | error failure =>
    rw [hrender] at h
    cases failure with
    | undefinedName name =>
      obtain ⟨hname, hnone⟩ := engine.looked_up hrender
      exact absurd hnone (hlookups name hname)
    | undefinedValue text =>
      obtain rfl := Except.error.inj h
      exact ⟨ast, context, text, hparse, hcontext, hlookups, hrender, rfl⟩
    | other text =>
      obtain rfl := Except.error.inj h
      cases herror

/-! ## A subscript -/

/-- A template that subscripts its boost. -/
def subscriptBody : String := "\x7b\"boost\": \x7b\x7b boost[\"x\"] \x7d\x7d\x7d"

/-- Its syntax tree. -/
def subscriptAst : Node :=
  .mk (.other "Template") [.mk .output [.mk (.templateData "\x7b\"boost\": ") [],
    .mk .getitem [.mk (.name "boost") [], .mk (.const (.str "x")) []],
    .mk (.templateData "\x7d") []]]

/-- What the subscript of the boost comes to, where a context has a float there or nothing. -/
def renderSubscript (context : Dict String (Json ℚ)) : Except RenderFailure String :=
  match context.get? "boost" with
  | none => .error (.undefinedName "boost")
  | some (.float _) => .error (.undefinedValue "'float object' has no attribute 'x'")
  | some _ => .error (.other "unexpected boost")

theorem looked_up_renderSubscript {context : Dict String (Json ℚ)} {name : String}
    (h : renderSubscript context = .error (.undefinedName name)) :
    name ∈ ["boost"] ∧ context.get? name = none := by
  unfold renderSubscript at h
  split at h
  · rename_i hnone
    cases h
    exact ⟨List.mem_singleton_self _, hnone⟩
  · cases h
  · cases h

/-- Jinja, on this template with a float for its boost. -/
def subscriptEngine : TemplateEngine String where
  parse body := if body = subscriptBody then .ok subscriptAst else .error "unexpected template"
  findUndeclaredVariables _ := ["boost"]
  render _ context := renderSubscript context
  looked_up h := looked_up_renderSubscript h

theorem nodup_declared : ([("boost", "float")].map Prod.fst).Nodup := List.nodup_singleton _

/-- The template with its declared boost. -/
def subscriptTemplate : QueryTemplate where
  body := subscriptBody
  declaredParams := ⟨[("boost", "float")], nodup_declared⟩

theorem one_lt_two_rat : (1 : ℚ) < 2 := by norm_num

theorem not_log (h : false = true) : (0 : ℚ) < 1 := by cases h

theorem nodup_subscriptParams :
    ([("boost", ParamSpec.float ⟨1, 2, false, one_lt_two_rat, not_log⟩)].map Prod.fst).Nodup :=
  List.nodup_singleton _

/-- One boost from 1 to 2. -/
def subscriptParams : Dict String ParamSpec :=
  ⟨[("boost", .float ⟨1, 2, false, one_lt_two_rat, not_log⟩)], nodup_subscriptParams⟩

theorem subscriptParams_ne_nil : subscriptParams.entries ≠ [] := List.cons_ne_nil _ _

theorem subscriptParams_capped : estimateCardinality subscriptParams ≤ cardinalityCap := by
  decide

/-- The space of the boost. -/
def subscriptSpace : SearchSpace where
  params := subscriptParams
  nonempty := subscriptParams_ne_nil
  capped := subscriptParams_capped

theorem subscript_accepted :
    Accepted subscriptEngine subscriptTemplate "boosted" subscriptSpace where
  body := by decide
  params := by decide
  reservation := by decide

theorem subscript_suggests : SuggestsAllowed (fun _ _ => .float 1) subscriptSpace := by
  intro name spec hspec
  have hentry := (Dict.get?_eq_some_iff _ name spec).mp hspec
  obtain ⟨rfl, rfl⟩ := Prod.mk.inj (List.mem_singleton.mp hentry)
  exact ⟨le_rfl, one_lt_two_rat.le⟩

/-- An accepted template fails with an undefined parameter. -/
theorem subscript_is_undefined :
    Accepted subscriptEngine subscriptTemplate "boosted" subscriptSpace ∧
      SuggestsAllowed (fun _ _ => .float 1) subscriptSpace ∧
      ¬∀ error, renderTemplateToDict subscriptEngine.renderTemplate asciiTable subscriptTemplate
        (applySearchSpace (fun _ _ => .float 1) subscriptSpace) "shoes".toList = .error error →
          ¬IsParameterError error := by
  refine ⟨subscript_accepted, subscript_suggests, fun h => ?_⟩
  exact h (.undefinedParameter "'float object' has no attribute 'x'") rfl trivial

theorem parameter_error_is_computed_subscript : ∃ ast context text,
    subscriptEngine.parse subscriptTemplate.body = .ok ast ∧
      renderContext asciiTable subscriptTemplate
        (applySearchSpace (fun _ _ => .float 1) subscriptSpace) "shoes".toList = .ok context ∧
      (∀ name ∈ subscriptEngine.findUndeclaredVariables ast, context.get? name ≠ none) ∧
      subscriptEngine.render ast context = .error (.undefinedValue text) ∧
      (.undefinedParameter "'float object' has no attribute 'x'" : RenderError ℚ) =
        .undefinedParameter text := by
  have hfails : renderTemplateToDict subscriptEngine.renderTemplate asciiTable subscriptTemplate
      (applySearchSpace (fun _ _ => .float 1) subscriptSpace) "shoes".toList =
        .error (.undefinedParameter "'float object' has no attribute 'x'") := rfl
  exact parameter_error_is_computed subscript_accepted subscript_suggests asciiTable _ hfails
    trivial

end RelyLoop.Templates
