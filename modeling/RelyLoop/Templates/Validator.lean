import RelyLoop.Normalizers.Pipeline

/-!
# Validating a template

A template is checked when it is created: its syntax tree has no call, no attribute access and no
private name, the query text flows through `tojson`, and the names that it takes from the context
are those that it declares. The template engine is a parameter.
-/

namespace RelyLoop.Templates

open Python Spaces Normalizers

/-! ## Syntax trees -/

/-- The classes of `jinja2.nodes` that the validator asks for, and some others. -/
inductive NodeKind where
  | call
  | getattr (attr : String)
  | getitem
  | name (name : String)
  | output
  | filter (name : String)
  | templateData (data : String)
  | const (value : Json ℚ)
  /-- Any other class. -/
  | other (className : String)

/-- A node with its child nodes, in the order of their fields. -/
inductive Node where
  | mk (kind : NodeKind) (children : List Node)

def Node.kind : Node → NodeKind
  | .mk kind _ => kind

def Node.children : Node → List Node
  | .mk _ children => children

mutual

/-- The nodes below a node, with their places in the tree, in the order of `find_all`. -/
def Node.found (place : List ℕ) : Node → List (List ℕ × Node)
  | .mk _ children => Node.amongChildren place 0 children

/-- The nodes of some children, which begin with the child of an index. -/
def Node.amongChildren (place : List ℕ) (index : ℕ) : List Node → List (List ℕ × Node)
  | [] => []
  | child :: rest =>
    (place ++ [index], child) ::
      (child.found (place ++ [index]) ++ Node.amongChildren place (index + 1) rest)

end

/-- All nodes below the root. -/
def Node.descendants (ast : Node) : List Node := (ast.found []).map Prod.snd

/-- A `Name` of this name. -/
def Node.isName (name : String) (node : Node) : Bool :=
  match node.kind with
  | .name other => other = name
  | _ => false

/-- A `Filter` of this name. -/
def Node.isFilter (name : String) (node : Node) : Bool :=
  match node.kind with
  | .filter other => other = name
  | _ => false

/-- An `Output`. -/
def Node.isOutput (node : Node) : Bool :=
  match node.kind with
  | .output => true
  | _ => false

/-! ## The template engine -/

/-- What rendering raises. -/
inductive RenderFailure where
  /-- A name that is looked up in the context and is not there. -/
  | undefinedName (name : String)
  /-- Any other undefined value that is used. -/
  | undefinedValue (text : String)
  | other (text : String)
  deriving DecidableEq

/-- Jinja: parsing, `meta.find_undeclared_variables`, which finds the names that are looked up in
the context, and rendering with `StrictUndefined`. -/
structure TemplateEngine (ρ : Type) where
  parse : String → Except String Node
  findUndeclaredVariables : Node → List String
  render : Node → Dict String (Json ℚ) → Except RenderFailure ρ
  looked_up : ∀ {ast context name}, render ast context = .error (.undefinedName name) →
    name ∈ findUndeclaredVariables ast ∧ context.get? name = none

variable {ρ : Type}

/-- `render_template`. -/
def TemplateEngine.renderTemplate (engine : TemplateEngine ρ) (templateBody : String)
    (context : Dict String (Json ℚ)) : Except TemplateError ρ :=
  match engine.parse templateBody with
  | .error message => .error (.other message)
  | .ok ast =>
    match engine.render ast context with
    | .ok rendered => .ok rendered
    | .error (.undefinedName name) => .error (.undefined ("'" ++ name ++ "' is undefined"))
    | .error (.undefinedValue text) => .error (.undefined text)
    | .error (.other text) => .error (.other text)

/-! ## The validator -/

/-- The errors of `validate_template_body`. -/
inductive TemplateBodyError where
  | invalidTemplateSyntax (message : String)
  | unsafeQueryTextInterpolation
  | undeclaredParamUsed (names : List String)
  | reservedParamReferenced (names : List String)
  | declaredParamUnused (names : List String)
  deriving DecidableEq

/-- The text of an error, with `repr` of a list of texts. -/
def TemplateBodyError.message (repr : List String → String) : TemplateBodyError → String
  | invalidTemplateSyntax message => message
  | unsafeQueryTextInterpolation =>
    "query_text must be interpolated through the \x60| tojson\x60 filter (e.g. " ++
      "\x60\x7b\x7b query_text | tojson \x7d\x7d\x60) so untrusted query text is " ++
      "JSON-escaped and cannot inject query-DSL; found a raw \x60query_text\x60 reference"
  | undeclaredParamUsed names => "template references undeclared param(s): " ++ repr names
  | reservedParamReferenced names =>
    "template body references reserved non-render param(s): " ++ repr names ++
      "; these are consumed by the adapter and MUST NOT appear in the template body"
  | declaredParamUnused names => "declared param(s) unused in template: " ++ repr names

/-- `name.startswith("_")`. -/
def isPrivate (name : String) : Bool := name.toList.head? = some '_'

/-- The check of a `Call`, a `Getattr` or a `Getitem`. -/
def checkConstruct (node : Node) : Except TemplateBodyError Unit :=
  match node.kind, node.children with
  | .call, _ =>
    .error (.invalidTemplateSyntax ("template body contains a call expression; Jinja2 sandbox " ++
      "forbids function/method invocation in query templates"))
  | .getattr attr, _ =>
    .error (.invalidTemplateSyntax ("template body contains attribute access (." ++ attr ++
      "); Jinja2 sandbox forbids attribute access in query templates"))
  | .getitem, .mk (.name target) _ :: _ =>
    if isPrivate target then
      .error (.invalidTemplateSyntax
        ("template body subscripts a dunder/private name ('" ++ target ++ "')"))
    else .ok ()
  | _, _ => .ok ()

/-- The check of a `Name`. -/
def checkName (node : Node) : Except TemplateBodyError Unit :=
  match node.kind with
  | .name name =>
    if isPrivate name then
      .error (.invalidTemplateSyntax ("template body references dunder/private name ('" ++ name ++
        "'); Jinja2 sandbox forbids underscore-prefixed identifiers in query templates"))
    else .ok ()
  | _ => .ok ()

/-- The places of `query_text` in the outputs that end with `tojson`. -/
def covered (ast : Node) : List (List ℕ) :=
  ((ast.found []).filter fun entry => entry.2.isOutput).flatMap fun entry =>
    (entry.2.children.zipIdx.filter fun expr => expr.1.isFilter "tojson").flatMap fun expr =>
      ((expr.1.found (entry.1 ++ [expr.2])).filter fun use => use.2.isName "query_text").map
        Prod.fst

/-- `_assert_query_text_is_tojson_escaped`. -/
def assertQueryTextIsTojsonEscaped (ast : Node) : Except TemplateBodyError Unit :=
  if (ast.found []).any fun entry => entry.2.isName "query_text" && entry.1 ∉ covered ast then
    .error .unsafeQueryTextInterpolation
  else .ok ()

/-- The cross-check of the names that are referenced with those that are declared. -/
def crossCheck (referenced : List String) (declaredParams : Dict String String) :
    Except TemplateBodyError Unit :=
  let undeclaredUses := sortedDifference referenced ("query_text" :: declaredParams.keys)
  let reservedReferenced := sortedNames (referenced.filter (· = queryNormalizer))
  let unusedDeclarations := sortedDifference declaredParams.keys (queryNormalizer :: referenced)
  if undeclaredUses ≠ [] then .error (.undeclaredParamUsed undeclaredUses)
  else if reservedReferenced ≠ [] then .error (.reservedParamReferenced reservedReferenced)
  else if unusedDeclarations ≠ [] then .error (.declaredParamUnused unusedDeclarations)
  else .ok ()

/-- `validate_template_body`. -/
def validateTemplateBody (engine : TemplateEngine ρ) (body : String)
    (declaredParams : Dict String String) : Except TemplateBodyError Unit :=
  match engine.parse body with
  | .error message => .error (.invalidTemplateSyntax ("jinja2 parse error: " ++ message))
  | .ok ast => do
    ast.descendants.forM checkConstruct
    ast.descendants.forM checkName
    assertQueryTextIsTojsonEscaped ast
    crossCheck (engine.findUndeclaredVariables ast) declaredParams

/-! ## What it accepts -/

theorem crossCheck_ok {referenced : List String} {declaredParams : Dict String String}
    (h : crossCheck referenced declaredParams = .ok ()) {name : String}
    (hname : name ∈ referenced) :
    (name = "query_text" ∨ name ∈ declaredParams.keys) ∧ name ≠ queryNormalizer := by
  unfold crossCheck at h
  dsimp only at h
  split_ifs at h with hundeclared hreserved hunused
  rw [not_not] at hundeclared hreserved
  constructor
  · by_contra hnot
    have hmem : name ∈ sortedDifference referenced ("query_text" :: declaredParams.keys) := by
      rw [mem_sortedDifference, List.mem_cons]
      exact ⟨hname, hnot⟩
    rw [hundeclared] at hmem
    cases hmem
  · rintro rfl
    have hmem : queryNormalizer ∈ sortedNames (referenced.filter (· = queryNormalizer)) := by
      rw [mem_sortedNames, List.mem_filter]
      exact ⟨hname, decide_eq_true rfl⟩
    rw [hreserved] at hmem
    cases hmem

/-- The names that an accepted template looks up are declared, or the query text. -/
theorem validateTemplateBody_ok {engine : TemplateEngine ρ} {body : String}
    {declaredParams : Dict String String}
    (h : validateTemplateBody engine body declaredParams = .ok ()) :
    ∃ ast, engine.parse body = .ok ast ∧ ∀ name ∈ engine.findUndeclaredVariables ast,
      (name = "query_text" ∨ name ∈ declaredParams.keys) ∧ name ≠ queryNormalizer := by
  unfold validateTemplateBody at h
  split at h
  · cases h
  · rename_i ast hparse
    refine ⟨ast, hparse, fun name hname => crossCheck_ok ?_ hname⟩
    cases hconstructs : ast.descendants.forM checkConstruct with
    | error e =>
      rw [hconstructs] at h
      cases h
    | ok _ =>
      cases hnames : ast.descendants.forM checkName with
      | error e =>
        rw [hconstructs, hnames] at h
        cases h
      | ok _ =>
        cases hquery : assertQueryTextIsTojsonEscaped ast with
        | error e =>
          rw [hconstructs, hnames, hquery] at h
          cases h
        | ok _ =>
          rw [hconstructs, hnames, hquery] at h
          exact h

end RelyLoop.Templates
