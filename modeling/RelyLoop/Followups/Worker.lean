import RelyLoop.Followups.Documents
import RelyLoop.Studies.Followup

/-!
# The row of a follow-up

`enqueue_followup_study` from the gates to the insert: the search space it narrows, the follow-up
of the digest that it runs instead under the `follow_suggestions` strategy, and the row with all
columns that it writes.
-/

namespace RelyLoop.Followups

open Python Spaces Studies

/-- A row of `query_templates`. -/
structure QueryTemplate where
  name : String
  engineType : String
  declaredParams : Dict String String

/-- A row of `studies` with all columns of an insert. The two keys of `config` that only the
follow-up worker writes stand beside the others. -/
structure StudyRow (S : Type) extends Study where
  id : ℕ
  name : String
  clusterId : ℕ
  target : String
  templateId : ℕ
  querySetId : ℕ
  judgmentListId : ℕ
  searchSpace : S
  visitedTemplateIds : Option (List ℕ) := none
  selectedKind : Option SelectedKind := none
  optunaStudyName : ℕ
  parentProposalId : Option ℕ := none
  parentProposalFollowupIndex : Option ℕ := none

/-- What a delivery reads: its uuid and clock, the settings, the answers of Redis, and the rows of
the tables. `.error` is a read that raises. -/
structure FollowupReads where
  childId : ℕ
  now : ℕ
  existingChildren : List ℕ
  allTrials : List Trial
  budget : ℚ
  modelKnown : Bool
  peekTotal : ℚ
  maxCallCost : ℚ
  trialParams : ℕ → Option (Dict String (Json ℚ))
  template : ℕ → Option QueryTemplate
  suggestedFollowups : Except Unit (Option (Json ℚ))
  swapReadRaises : Bool

/-- The delivery without the contents of trials, templates and digests. -/
def FollowupReads.delivery (reads : FollowupReads) (parent : StudyRow SearchSpace) : Delivery where
  childId := reads.childId
  now := reads.now
  allTrials := reads.allTrials
  budget := reads.budget
  modelKnown := reads.modelKnown
  peekTotal := reads.peekTotal
  maxCallCost := reads.maxCallCost
  bestTrialFound := (parent.bestTrialId.bind reads.trialParams).isSome
  templateFound := (reads.template parent.templateId).isSome

/-- The strategy whose dispatch reads the digest. -/
def followSuggestions : String := "follow_suggestions"

/-- `parent.config.get("auto_followup_visited_template_ids", [parent.template_id])`. -/
def visitedTemplateIds (parent : StudyRow SearchSpace) : List ℕ :=
  parent.visitedTemplateIds.getD [parent.templateId]

/-- What the dispatch decides. -/
structure Dispatch where
  childTemplateId : ℕ
  childSpace : SearchSpace
  selected : Option FollowupItem := none
  swapTargetMissing : Bool := false

/-- The `follow_suggestions` branch; what raises falls back to the narrowed space. -/
def dispatchFollowup (validate : Json ℚ → Except String FollowupItem) (reads : FollowupReads)
    (parent : StudyRow SearchSpace) (narrowed : SearchSpace) : Dispatch :=
  match reads.suggestedFollowups with
  | .error _ => ⟨parent.templateId, narrowed, none, false⟩
  | .ok digest =>
    let followups := parseFollowupList validate (digest.getD (.list []))
    let outcome := selectExecutableFollowup followups (visitedTemplateIds parent)
    match outcome.selected with
    | some (.narrow rationale space) =>
      ⟨parent.templateId, space, some (.narrow rationale space), false⟩
    | some (.widen rationale space) =>
      ⟨parent.templateId, space, some (.widen rationale space), false⟩
    | some (.swapTemplate rationale templateId space) =>
      if reads.swapReadRaises then ⟨parent.templateId, narrowed, none, false⟩
      else match reads.template templateId with
        | none =>
          ⟨parent.templateId, narrowed, some (.swapTemplate rationale templateId space), true⟩
        | some _ => ⟨templateId, space, some (.swapTemplate rationale templateId space), false⟩
    | selected => ⟨parent.templateId, narrowed, selected, false⟩

/-- The `auto_followup_selected_kind` of a dispatch. -/
def Dispatch.kind (d : Dispatch) : SelectedKind :=
  match d.selected with
  | some (.narrow _ _) => .narrow
  | some (.widen _ _) => .widen
  | some (.swapTemplate _ _ _) => if d.swapTargetMissing then .narrowDefault else .swapTemplate
  | _ => .narrowDefault

/-- The strategy of a study is `follow_suggestions`. -/
def followsSuggestions (row : StudyRow SearchSpace) : Bool :=
  row.config.autoFollowupStrategy == some followSuggestions

/-- The row that `repo.create_study` inserts. -/
def childRow (reads : FollowupReads) (parent : StudyRow SearchSpace) (d : Dispatch) :
    StudyRow SearchSpace where
  toStudy := childStudy (reads.delivery parent) parent.id parent.toStudy
  id := reads.childId
  name := parent.name ++ " (chain depth " ++
    String.ofList (intText (parent.config.autoFollowupDepth.getD 0 - 1)) ++ ")"
  clusterId := parent.clusterId
  target := parent.target
  templateId := d.childTemplateId
  querySetId := parent.querySetId
  judgmentListId := parent.judgmentListId
  searchSpace := d.childSpace
  visitedTemplateIds :=
    if followsSuggestions parent then
      some (fromKeys (visitedTemplateIds parent ++ [d.childTemplateId]))
    else parent.visitedTemplateIds
  selectedKind := if followsSuggestions parent then some d.kind else none
  optunaStudyName := reads.childId

/-- How the job raises. -/
inductive FollowupError where
  | starter (e : SpaceError)
  | narrow (e : NarrowError)
  deriving DecidableEq, Repr

variable (A : FloatArith) (validate : Json ℚ → Except String FollowupItem)

/-- The starter space of a template, narrowed around the best trial. -/
def narrowedStarter (template : QueryTemplate) (winningParams : Dict String (Json ℚ)) :
    Except FollowupError SearchSpace :=
  match buildStarterSearchSpace template.declaredParams with
  | .error e => .error (.starter e)
  | .ok starter =>
    match narrowBoundsAroundWinner A starter.space winningParams with
    | .error e => .error (.narrow e)
    | .ok (space, _) => .ok space

/-- The dispatch of the strategy. -/
def dispatch (reads : FollowupReads) (parent : StudyRow SearchSpace) (narrowed : SearchSpace) :
    Dispatch :=
  if followsSuggestions parent then dispatchFollowup validate reads parent narrowed
  else ⟨parent.templateId, narrowed, none, false⟩

/-- `enqueue_followup_study`, for a parent that exists: the inserted row, or `none` where a gate
does not pass. -/
def followupRow (reads : FollowupReads) (parent : StudyRow SearchSpace) :
    Except FollowupError (Option (StudyRow SearchSpace)) :=
  if reads.existingChildren ≠ [] then .ok none
  else if (evaluateChainGate parent.toStudy (completeTrials reads.allTrials)).decision ≠ .enqueue
    then .ok none
  else if skipsForBudget (reads.delivery parent) then .ok none
  else
    match parent.bestTrialId.bind reads.trialParams, reads.template parent.templateId with
    | some winningParams, some template =>
      match narrowedStarter A template winningParams with
      | .error e => .error e
      | .ok narrowed =>
        .ok (some (childRow reads parent (dispatch validate reads parent narrowed)))
    | _, _ => .ok none

/-! ## What an inserted row is -/

variable {A validate} {reads : FollowupReads} {parent child : StudyRow SearchSpace}
  {narrowed : SearchSpace}

/-- The gates that an insert has passed, and the dispatch it comes from. -/
structure Inserted (A : FloatArith) (validate : Json ℚ → Except String FollowupItem)
    (reads : FollowupReads) (parent child : StudyRow SearchSpace) (template : QueryTemplate)
    (narrowed : SearchSpace) : Prop where
  gate : (evaluateChainGate parent.toStudy (completeTrials reads.allTrials)).decision = .enqueue
  found : reads.template parent.templateId = some template
  narrows : ∃ winningParams, narrowedStarter A template winningParams = .ok narrowed
  row : child = childRow reads parent (dispatch validate reads parent narrowed)

theorem inserted_of_followupRow (h : followupRow A validate reads parent = .ok (some child)) :
    ∃ template narrowed, Inserted A validate reads parent child template narrowed := by
  unfold followupRow at h
  split at h
  · cases h
  split at h
  · cases h
  rename_i hgate
  split at h
  · cases h
  split at h
  · rename_i winningParams template hwinning htemplate
    split at h
    · cases h
    · rename_i narrowed hnarrowed
      obtain rfl := Option.some.inj (Except.ok.inj h)
      exact ⟨template, narrowed, not_not.mp hgate, htemplate, ⟨winningParams, hnarrowed⟩, rfl⟩
  · cases h

/-- The columns of `Study` are those of the insert that the transaction of the worker makes. -/
theorem toStudy_childRow (d : Dispatch) :
    (childRow reads parent d).toStudy =
      childStudy (reads.delivery parent) parent.id parent.toStudy :=
  rfl

/-! ## Which follow-up runs -/

/-- The template of a swap is found when the dispatch looks for it. -/
def targetFound (reads : FollowupReads) : FollowupItem → Bool
  | .swapTemplate _ templateId _ => !reads.swapReadRaises && (reads.template templateId).isSome
  | .narrow _ _ | .widen _ _ | .text _ => true

/-- The item of the digest that a delivery runs: the first executable one, unless the digest
cannot be read or the template of a swap is not found. -/
def followupToRun (validate : Json ℚ → Except String FollowupItem) (reads : FollowupReads)
    (parent : StudyRow SearchSpace) : Option FollowupItem :=
  match reads.suggestedFollowups with
  | .error _ => none
  | .ok digest =>
    ((parseFollowupList validate (digest.getD (.list []))).find?
      (isExecutable (visitedTemplateIds parent))).filter (targetFound reads)

/-- A dispatch runs an item, or falls back to the narrowed space. -/
structure Runs (parent : StudyRow SearchSpace) (narrowed : SearchSpace)
    (item : Option FollowupItem) (d : Dispatch) : Prop where
  template : d.childTemplateId = (item.map (·.target parent.templateId)).getD parent.templateId
  space : d.childSpace = (item.bind FollowupItem.space?).getD narrowed
  kind : d.kind = (item.map FollowupItem.selectedKind).getD .narrowDefault

theorem dispatchFollowup_runs :
    Runs parent narrowed (followupToRun validate reads parent)
      (dispatchFollowup validate reads parent narrowed) := by
  unfold dispatchFollowup followupToRun
  cases reads.suggestedFollowups with
  | error e => exact ⟨rfl, rfl, rfl⟩
  | ok digest =>
    simp only [selected_eq_find?]
    cases hfound : (parseFollowupList validate (digest.getD (.list []))).find?
        (isExecutable (visitedTemplateIds parent)) with
    | none => exact ⟨rfl, rfl, rfl⟩
    | some item =>
      cases item with
      | narrow rationale space => exact ⟨rfl, rfl, rfl⟩
      | widen rationale space => exact ⟨rfl, rfl, rfl⟩
      | text rationale => cases List.find?_some hfound
      | swapTemplate rationale templateId space =>
        cases hraises : reads.swapReadRaises with
        | true =>
          rw [Option.filter_some_neg (by simp [targetFound, hraises])]
          exact ⟨rfl, rfl, rfl⟩
        | false =>
          cases htemplate : reads.template templateId with
          | none =>
            rw [Option.filter_some_neg (by simp [targetFound, htemplate])]
            simp only [htemplate]
            exact ⟨rfl, rfl, rfl⟩
          | some template =>
            rw [Option.filter_some_pos (by simp [targetFound, hraises, htemplate])]
            simp only [htemplate]
            exact ⟨rfl, rfl, rfl⟩

/-- The item of the digest that the worker runs, under any strategy. -/
def itemToRun (validate : Json ℚ → Except String FollowupItem) (reads : FollowupReads)
    (parent : StudyRow SearchSpace) : Option FollowupItem :=
  if followsSuggestions parent then followupToRun validate reads parent else none

theorem dispatch_runs :
    Runs parent narrowed (itemToRun validate reads parent)
      (dispatch validate reads parent narrowed) := by
  unfold dispatch itemToRun
  split
  · exact dispatchFollowup_runs
  · exact ⟨rfl, rfl, rfl⟩

/-- An item that runs is executable, and its template is found. -/
theorem of_itemToRun {item : FollowupItem} (h : itemToRun validate reads parent = some item) :
    isExecutable (visitedTemplateIds parent) item = true ∧ targetFound reads item = true := by
  have hrun : followupToRun validate reads parent = some item := by
    unfold itemToRun at h
    split at h
    · exact h
    · cases h
  unfold followupToRun at hrun
  cases hdigest : reads.suggestedFollowups with
  | error e => simp [hdigest] at hrun
  | ok digest =>
    rw [hdigest] at hrun
    obtain ⟨hfound, htarget⟩ := Option.filter_eq_some_iff.mp hrun
    exact ⟨List.find?_some hfound, htarget⟩

/-- The columns of an inserted row that depend on the item it runs. -/
structure Child (parent : StudyRow SearchSpace) (narrowed : SearchSpace)
    (item : Option FollowupItem) (child : StudyRow SearchSpace) : Prop where
  template : child.templateId = (item.map (·.target parent.templateId)).getD parent.templateId
  space : child.searchSpace = (item.bind FollowupItem.space?).getD narrowed
  kind : child.selectedKind = if followsSuggestions parent then
    some ((item.map FollowupItem.selectedKind).getD .narrowDefault) else none
  visited : child.visitedTemplateIds = if followsSuggestions parent then
    some (fromKeys (visitedTemplateIds parent ++ [child.templateId]))
    else parent.visitedTemplateIds
  config : child.config = { parent.config with
    autoFollowupDepth := some (parent.config.autoFollowupDepth.getD 0 - 1) }
  parentStudyId : child.parentStudyId = some parent.id

theorem child_of_inserted {template : QueryTemplate}
    (h : Inserted A validate reads parent child template narrowed) :
    Child parent narrowed (itemToRun validate reads parent) child := by
  have hruns : Runs parent narrowed (itemToRun validate reads parent)
      (dispatch validate reads parent narrowed) := dispatch_runs
  rw [h.row]
  exact ⟨hruns.template, hruns.space, by rw [← hruns.kind]; rfl, rfl, rfl, rfl⟩

end RelyLoop.Followups
