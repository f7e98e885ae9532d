import RelyLoop.Python.Text
import RelyLoop.Spaces.Midpoints
import RelyLoop.Spaces.Params
import RelyLoop.Text.Whitespace

/-!
# Query normalizers

`normalize_pipeline`: the selected steps rewrite the query text, always in the order of
`STEP_ORDER`. `str.lower` and `\w` are read off the Unicode tables, which are a parameter.
-/

namespace RelyLoop.Normalizers

open Python Spaces Text

/-- `_CONTRACTIONS_RAW`. -/
def contractions : List (String × String) :=
  [("ain't", "is not"), ("aren't", "are not"), ("can't", "cannot"), ("couldn't", "could not"),
    ("didn't", "did not"), ("doesn't", "does not"), ("don't", "do not"), ("hadn't", "had not"),
    ("hasn't", "has not"), ("haven't", "have not"), ("he's", "he is"), ("i'd", "i would"),
    ("i'll", "i will"), ("i'm", "i am"), ("i've", "i have"), ("isn't", "is not"),
    ("it's", "it is"), ("let's", "let us"), ("shouldn't", "should not"), ("that's", "that is"),
    ("they're", "they are"), ("they've", "they have"), ("wasn't", "was not"),
    ("we're", "we are"), ("we've", "we have"), ("weren't", "were not"), ("what's", "what is"),
    ("won't", "will not"), ("wouldn't", "would not"), ("you're", "you are")]

/-- The contractions and their expansions, character by character. -/
def contractionTable : List (List Char × List Char) :=
  contractions.map fun e => (e.1.toList, e.2.toList)

/-- `sorted(_CONTRACTIONS, key=len, reverse=True)`. -/
def contractionWords : List (List Char) :=
  (contractionTable.map Prod.fst).insertionSort fun w w' => w'.length ≤ w.length

/-- `_CONTRACTIONS[m.group(1)]`. -/
def expansion (word : List Char) : List Char := (contractionTable.lookup word).getD []

/-- `_CONTRACTION_PATTERN`. -/
def contractionPattern : Pattern := Pattern.boundedWord contractionWords

/-- `_SMART_APOSTROPHE`. -/
def smartApostrophe : Char := '\u2019'

/-- `_PUNCTUATION_TO_STRIP`: the ASCII punctuation without the apostrophe. -/
def punctuationToStrip : List Char :=
  "!\"#$%&()*+,-./:;<=>?@[\\]^_`\x7b|\x7d~".toList

/-- `_PUNCTUATION_PATTERN`. -/
def punctuationPattern : Pattern := Pattern.one (.oneOf punctuationToStrip)

/-- `re` with the tables. -/
def flavour (table : CharacterTable) : Flavour Char := pythonFlavour table.isWord isWhitespace

/-- `_apply_step`. -/
def applyStep (table : CharacterTable) (step : NormalizerStep) (text : List Char) : List Char :=
  match step with
  | .lowercase => table.lower text
  | .stripPunctuation => punctuationPattern.sub (flavour table) (fun _ => []) text
  | .expandContractionsEn =>
    let pre := text.map fun c => if c = smartApostrophe then '\'' else c
    contractionPattern.sub (flavour table) expansion pre
  | .expandContractionsCustom => text
  | .collapseWhitespace => (Pattern.plus .space).sub (flavour table) (fun _ => [' ']) text
  | .trim => strip text

/-- The loop of `normalize_pipeline` over the given order. -/
def applySelected (table : CharacterTable) (steps order : List NormalizerStep)
    (text : List Char) : List Char :=
  order.foldl (fun result step => if step ∈ steps then applyStep table step result else result) text

/-- `normalize_pipeline`. -/
def normalizePipeline (table : CharacterTable) (queryText : List Char)
    (steps : List NormalizerStep) : List Char :=
  applySelected table steps stepOrder queryText

end RelyLoop.Normalizers

/-!
## Rendering a query

`render_template_to_dict` normalizes the query text by the label in the parameters and hands it to
the template. The Solr adapter neutralizes a leading local-params block before. The template engine
is a parameter.
-/

namespace RelyLoop.Normalizers

open Python Spaces

/-- What a template engine raises. -/
inductive TemplateError where
  /-- `UndefinedError`. -/
  | undefined (text : String)
  | other (text : String)
  deriving DecidableEq

/-- The errors of `render_template_to_dict`. -/
inductive RenderError (F : Type) where
  | unknownNormalizer (choice : Json F)
  | unknownLabelToken (token label : String)
  | missingParams (names : List String)
  | undefinedParameter (text : String)
  | template (text : String)

/-- The text of an error, with `repr` for `!r`. -/
def RenderError.message {F : Type} (repr : Json F → String) : RenderError F → String
  | unknownNormalizer choice => "unknown normalizer: " ++ repr choice
  | unknownLabelToken token label =>
    "unknown normalizer label token " ++ repr (.str token) ++ " in label " ++ repr (.str label)
  | missingParams names =>
    "render: missing required template params: " ++ repr (.list (names.map .str))
  | undefinedParameter text => "render: undefined parameter \u2014 " ++ text
  | template text => text

/-- The fields of `QueryTemplate` that rendering reads. -/
structure QueryTemplate where
  body : String
  declaredParams : Dict String String

variable {F ρ : Type}

/-- `_TOKEN_TO_STEP[token]`. -/
def stepForToken (label : String) (token : List Char) : Except (RenderError F) NormalizerStep :=
  match stepOrder.find? fun step => step.labelToken.toList == token with
  | some step => .ok step
  | none => .error (.unknownLabelToken (String.ofList token) label)

/-- `steps_for_label`. -/
def stepsForLabel (label : String) : Except (RenderError F) (List NormalizerStep) :=
  if label = "none" then .ok []
  else do
    let resolved ← (label.toList.splitOn '+').mapM (stepForToken label)
    return stepOrder.filter (· ∈ resolved)

/-- The context that `render_template_to_dict` builds. -/
def renderContext (table : CharacterTable) (template : QueryTemplate)
    (params : Dict String (Json F)) (queryText : List Char) :
    Except (RenderError F) (Dict String (Json F)) := do
  let localParams := params.erase queryNormalizer
  match (params.get? queryNormalizer).getD (.str defaultNormalizer) with
  | .str label =>
    let normalizedQueryText := normalizePipeline table queryText (← stepsForLabel label)
    let missing := template.declaredParams.keys.filter fun name =>
      name ∉ localParams.keys ∧ name ≠ queryNormalizer
    if missing = [] then
      return localParams.set "query_text" (.str (String.ofList normalizedQueryText))
    else throw (.missingParams (sortedNames missing))
  | choice => throw (.unknownNormalizer choice)

/-- `render_template_to_dict`. -/
def renderTemplateToDict
    (renderTemplate : String → Dict String (Json F) → Except TemplateError ρ)
    (table : CharacterTable) (template : QueryTemplate) (params : Dict String (Json F))
    (queryText : List Char) : Except (RenderError F) ρ := do
  let context ← renderContext table template params queryText
  match renderTemplate template.body context with
  | .ok rendered => return rendered
  | .error (.undefined text) => throw (.undefinedParameter text)
  | .error (.other text) => throw (.template text)

/-- What opens a block of local parameters. -/
def localParamsPrefix : List Char := "\x7b!".toList

/-- `_neutralize_leading_local_params`. -/
def neutralizeLeadingLocalParams (q : List Char) : List Char :=
  let stripped := q.dropWhile isWhitespace
  if localParamsPrefix.isPrefixOf stripped then
    let idx := q.length - stripped.length
    q.take idx ++ '\\' :: q.drop idx
  else q

/-- The context of the template in `SolrAdapter.render`. -/
def solrContext (table : CharacterTable) (template : QueryTemplate)
    (params : Dict String (Json F)) (queryText : List Char) :
    Except (RenderError F) (Dict String (Json F)) :=
  renderContext table template params (neutralizeLeadingLocalParams queryText)

/-- `SolrAdapter.render` up to the rendered template. -/
def solrRendered (renderTemplate : String → Dict String (Json F) → Except TemplateError ρ)
    (table : CharacterTable) (template : QueryTemplate) (params : Dict String (Json F))
    (queryText : List Char) : Except (RenderError F) ρ :=
  renderTemplateToDict renderTemplate table template params
    (neutralizeLeadingLocalParams queryText)

end RelyLoop.Normalizers
