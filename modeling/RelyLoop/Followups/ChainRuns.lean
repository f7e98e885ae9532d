import RelyLoop.Followups.Worker
import RelyLoop.Studies.ConfigSpec

/-!
# Chains of follow-ups

A chain starts with a study that the create endpoint has inserted and grows by the rows of the
follow-up worker. The templates that a chain has visited stand in the configuration of every
link, a swap never returns to one of them, and the depth counts down.
-/

namespace RelyLoop.Followups

open Python Spaces Studies

/-- A study as the create endpoint inserts it: a valid configuration, without the keys that only
the worker writes. -/
structure RootStudy where
  row : StudyRow SearchSpace
  spec : StudyConfigSpec
  valid : spec.validate = .ok ()
  config : row.config = spec.stored
  visited : row.visitedTemplateIds = none
  kind : row.selectedKind = none

/-- What becomes of a link until a delivery reads it: the columns of a terminal study, and whether
a request that stops the chain takes its depth. -/
structure Outcome where
  status : StudyStatus
  failedReason : Option String
  baselineMetric : Option ℚ
  baselineTrialId : Option ℕ
  bestMetric : Option ℚ
  bestTrialId : Option ℕ
  startedAt : Option ℕ
  completedAt : Option ℕ
  stopped : Bool

/-- The depth after a request that stops the chain. -/
def stoppedDepth (depth : Option ℤ) : Option ℤ := depth.map fun d => if d > 0 then 0 else d

/-- The row of a link with an outcome. -/
def ended (o : Outcome) (link : StudyRow SearchSpace) : StudyRow SearchSpace :=
  { link with
    status := o.status
    failedReason := o.failedReason
    baselineMetric := o.baselineMetric
    baselineTrialId := o.baselineTrialId
    bestMetric := o.bestMetric
    bestTrialId := o.bestTrialId
    startedAt := o.startedAt
    completedAt := o.completedAt
    config := { link.config with
      autoFollowupDepth :=
        if o.stopped then stoppedDepth link.config.autoFollowupDepth
        else link.config.autoFollowupDepth } }

variable (A : FloatArith) (validate : Json ℚ → Except String FollowupItem)

/-- One delivery for the last link, which comes first in the list. -/
def extendChain : List (StudyRow SearchSpace) → Outcome × FollowupReads →
    List (StudyRow SearchSpace)
  | [], _ => []
  | tail :: ancestors, (o, reads) =>
    match followupRow A validate reads (ended o tail) with
    | .ok (some child) => child :: tail :: ancestors
    | _ => tail :: ancestors

/-- The chain of a root after some deliveries, the newest link first. -/
def chain (root : RootStudy) (deliveries : List (Outcome × FollowupReads)) :
    List (StudyRow SearchSpace) :=
  deliveries.foldl (extendChain A validate) [root.row]

/-- The templates of a link and its ancestors, the root's first. -/
def templatesUpTo (link : StudyRow SearchSpace) (ancestors : List (StudyRow SearchSpace)) :
    List ℕ :=
  (ancestors.reverse ++ [link]).map (·.templateId)

/-! ## What holds of a link -/

/-- What holds of a link that the worker has inserted below its ancestors. -/
structure LinkOk (root link parent : StudyRow SearchSpace)
    (ancestors : List (StudyRow SearchSpace)) : Prop where
  parentStudyId : link.parentStudyId = some parent.id
  visited : followsSuggestions root = true →
    link.visitedTemplateIds = some (fromKeys (templatesUpTo link (parent :: ancestors)))
  swap : link.selectedKind = some .swapTemplate →
    ∀ ancestor ∈ parent :: ancestors, ancestor.templateId ≠ link.templateId
  kept : link.selectedKind ≠ some .swapTemplate → link.templateId = parent.templateId
  depth : ∃ d, parent.config.autoFollowupDepth = some d ∧
    link.config.autoFollowupDepth = some (d - 1)

variable {A validate} {root tail child : StudyRow SearchSpace}
  {ancestors : List (StudyRow SearchSpace)} {o : Outcome} {reads : FollowupReads}

/-- The last link of a chain, as far as the next delivery depends on it. -/
structure TailOk (root tail : StudyRow SearchSpace) (ancestors : List (StudyRow SearchSpace)) :
    Prop where
  strategy : tail.config.autoFollowupStrategy = root.config.autoFollowupStrategy
  visited : followsSuggestions root = true →
    visitedTemplateIds tail = fromKeys (templatesUpTo tail ancestors)
  depth : tail.config.autoFollowupDepth.getD 0 + ancestors.length =
    root.config.autoFollowupDepth.getD 0
  nonneg : 0 ≤ tail.config.autoFollowupDepth.getD 0

/-- A study whose gate is open has depth left. -/
theorem depth_of_gate (h : (evaluateChainGate tail.toStudy
    (completeTrials reads.allTrials)).decision = .enqueue) :
    tail.config.autoFollowupDepth.getD 0 ≠ 0 := by
  intro hzero
  unfold evaluateChainGate at h
  split at h
  · cases h
  · cases h

/-- A delivery inserts below a link with its depth, which no request has taken. -/
theorem depth_of_inserted (h : followupRow A validate reads (ended o tail) = .ok (some child))
    (hnonneg : 0 ≤ tail.config.autoFollowupDepth.getD 0) :
    ∃ d, 0 < d ∧ tail.config.autoFollowupDepth = some d ∧
      child.config.autoFollowupDepth = some (d - 1) := by
  obtain ⟨template, narrowed, hinserted⟩ := inserted_of_followupRow h
  have hleft := depth_of_gate hinserted.gate
  have hchild : child.config.autoFollowupDepth =
      some ((ended o tail).config.autoFollowupDepth.getD 0 - 1) := by
    rw [hinserted.row]
    rfl
  cases hdepth : tail.config.autoFollowupDepth with
  | none => simp [ended, stoppedDepth, hdepth] at hleft
  | some d =>
    have hd : 0 ≤ d := by simpa [hdepth] using hnonneg
    have hended : (ended o tail).config.autoFollowupDepth = some d := by
      cases hstopped : o.stopped with
      | false => simp [ended, hstopped, hdepth]
      | true =>
        simp only [ended, stoppedDepth, hstopped, hdepth, if_true, Option.map_some,
          Option.getD_some] at hleft
        split at hleft <;> omega
    rw [hended] at hchild hleft
    refine ⟨d, ?_, rfl, hchild⟩
    simp only [Option.getD_some] at hleft
    omega

theorem templatesUpTo_cons (link parent : StudyRow SearchSpace)
    (ancestors : List (StudyRow SearchSpace)) :
    templatesUpTo link (parent :: ancestors) =
      templatesUpTo parent ancestors ++ [link.templateId] := by
  simp [templatesUpTo]

theorem mem_templatesUpTo {ancestor : StudyRow SearchSpace}
    (h : ancestor ∈ tail :: ancestors) : ancestor.templateId ∈ templatesUpTo tail ancestors := by
  refine List.mem_map_of_mem ?_
  rw [List.mem_append, List.mem_reverse, List.mem_singleton]
  exact (List.mem_cons.mp h).symm

/-- The strategy does not change along a chain. -/
theorem TailOk.followsSuggestions_eq (h : TailOk root tail ancestors) :
    followsSuggestions tail = followsSuggestions root := by
  rw [followsSuggestions, h.strategy, followsSuggestions]

/-- What the insert below the last link of a chain gives. -/
theorem linkOk_of_inserted (htail : TailOk root tail ancestors)
    (h : followupRow A validate reads (ended o tail) = .ok (some child)) :
    LinkOk root child tail ancestors := by
  obtain ⟨d, -, hdepth⟩ := depth_of_inserted h htail.nonneg
  obtain ⟨template, narrowed, hinserted⟩ := inserted_of_followupRow h
  have hchild := child_of_inserted hinserted
  have hfollows : followsSuggestions (ended o tail) = followsSuggestions root :=
    htail.followsSuggestions_eq
  have htemplates : visitedTemplateIds (ended o tail) = visitedTemplateIds tail := rfl
  refine ⟨hchild.parentStudyId, fun hroot => ?_, fun hswap => ?_, fun hkept => ?_, ⟨d, hdepth⟩⟩
  · rw [hchild.visited, hfollows, if_pos hroot, htemplates, htail.visited hroot,
      fromKeys_fromKeys_append, templatesUpTo_cons]
  · rw [hchild.kind, hfollows] at hswap
    cases hroot : followsSuggestions root with
    | false => simp [hroot] at hswap
    | true =>
      cases hitem : itemToRun validate reads (ended o tail) with
      | none => simp [hroot, hitem] at hswap
      | some item =>
        have hkind : item.selectedKind = .swapTemplate := by simpa [hroot, hitem] using hswap
        have hfresh := not_mem_of_isExecutable (of_itemToRun hitem).1 hkind tail.templateId
        have htarget : child.templateId = item.target tail.templateId := by
          rw [hchild.template, hitem]
          rfl
        rw [htemplates, htail.visited hroot, mem_fromKeys, ← htarget] at hfresh
        intro ancestor hancestor heq
        exact hfresh (heq ▸ mem_templatesUpTo hancestor)
  · cases hitem : itemToRun validate reads (ended o tail) with
    | none =>
      rw [hchild.template, hitem]
      rfl
    | some item =>
      have hroot : followsSuggestions (ended o tail) = true := by
        by_contra hnot
        simp [itemToRun, hnot] at hitem
      have hkind : item.selectedKind ≠ .swapTemplate := by
        simpa [hchild.kind, hroot, hitem] using hkept
      rw [hchild.template, hitem]
      exact FollowupItem.target_eq hkind tail.templateId

/-- The chain with one more link goes on as it did. -/
theorem TailOk.next (htail : TailOk root tail ancestors)
    (h : followupRow A validate reads (ended o tail) = .ok (some child)) :
    TailOk root child (tail :: ancestors) := by
  obtain ⟨d, hpos, htailDepth, hdepth⟩ := depth_of_inserted h htail.nonneg
  obtain ⟨template, narrowed, hinserted⟩ := inserted_of_followupRow h
  have hlink := linkOk_of_inserted htail h
  have hcount := htail.depth
  rw [htailDepth, Option.getD_some] at hcount
  refine ⟨?_, fun hroot => ?_, ?_, ?_⟩
  · rw [(child_of_inserted hinserted).config]
    exact htail.strategy
  · rw [visitedTemplateIds, hlink.visited hroot, Option.getD_some]
  · rw [hdepth, Option.getD_some, List.length_cons]
    omega
  · rw [hdepth, Option.getD_some]
    omega

/-- A chain with its last link. -/
structure Grown (root : StudyRow SearchSpace) (links : List (StudyRow SearchSpace)) : Prop where
  tail : ∃ tail ancestors, links = tail :: ancestors ∧ TailOk root tail ancestors
  link : ∀ link parent ancestors, (link :: parent :: ancestors) <:+ links →
    LinkOk root link parent ancestors

/-- One delivery keeps what holds of a chain. -/
theorem Grown.extendChain {links : List (StudyRow SearchSpace)} (h : Grown root links)
    (step : Outcome × FollowupReads) : Grown root (extendChain A validate links step) := by
  obtain ⟨tail, ancestors, rfl, htail⟩ := h.tail
  obtain ⟨o, reads⟩ := step
  rw [Followups.extendChain]
  split
  · rename_i child hchild
    refine ⟨⟨child, tail :: ancestors, rfl, htail.next hchild⟩, fun link parent rest hsuffix => ?_⟩
    rcases List.suffix_cons_iff.mp hsuffix with heq | hsuffix
    · obtain ⟨rfl, hrest⟩ := List.cons.inj heq
      obtain ⟨rfl, rfl⟩ := List.cons.inj hrest
      exact linkOk_of_inserted htail hchild
    · exact h.link link parent rest hsuffix
  · exact h

theorem grown_root (root : RootStudy) : Grown root.row [root.row] := by
  refine ⟨⟨root.row, [], rfl, rfl, fun _ => ?_, by simp, ?_⟩, fun link parent rest hsuffix => ?_⟩
  · rw [visitedTemplateIds, root.visited]
    rfl
  · rw [root.config]
    exact (root.spec.depth_bounds root.valid).1
  · have hlength := hsuffix.length_le
    simp only [List.length_cons, List.length_nil] at hlength
    omega

theorem grown_chain (root : RootStudy) (deliveries : List (Outcome × FollowupReads)) :
    Grown root.row (chain A validate root deliveries) := by
  induction deliveries using List.reverseRecOn with
  | nil => exact grown_root root
  | append_singleton deliveries step ih =>
    rw [chain, List.foldl_append]
    exact ih.extendChain step

theorem length_chain_le (root : RootStudy) (deliveries : List (Outcome × FollowupReads)) :
    ((chain A validate root deliveries).length : ℤ) ≤
      root.row.config.autoFollowupDepth.getD 0 + 1 := by
  obtain ⟨tail, ancestors, hchain, htail⟩ :=
    (grown_chain root deliveries : Grown root.row (chain A validate root deliveries)).tail
  have hcount := htail.depth
  have hnonneg := htail.nonneg
  rw [hchain, List.length_cons]
  omega

/-- In a chain below any study, whatever the digests and outcomes are, every link that the worker
inserts stores the distinct templates of its ancestors and itself in order under the
`follow_suggestions` strategy; a swap leads to a template that no ancestor has, and nothing else
changes the template; the depth goes down by one; and the chain has at most as many links as the
depth of its root, and one. -/
theorem chain_links_ok (root : RootStudy) (deliveries : List (Outcome × FollowupReads)) :
    (∀ link parent ancestors,
      (link :: parent :: ancestors) <:+ chain A validate root deliveries →
      LinkOk root.row link parent ancestors) ∧
    ((chain A validate root deliveries).length : ℤ) ≤
      root.row.config.autoFollowupDepth.getD 0 + 1 :=
  ⟨(grown_chain root deliveries).link, length_chain_le root deliveries⟩

/-! ## A chain with a swap -/

theorem nodup_boost : ([("boost", boostParam)].map Prod.fst).Nodup := List.nodup_singleton _

theorem boost_capped :
    estimateCardinality ⟨[("boost", boostParam)], nodup_boost⟩ ≤ cardinalityCap := by
  decide

/-- One boost from 0.5 to 10. -/
def boostSpace : SearchSpace where
  params := ⟨[("boost", boostParam)], nodup_boost⟩
  nonempty := List.cons_ne_nil _ _
  capped := boost_capped

theorem nodup_float : ([("boost", "float")].map Prod.fst).Nodup := List.nodup_singleton _

/-- A template that declares the boost. -/
def boostTemplate : QueryTemplate where
  name := "products"
  engineType := "elasticsearch"
  declaredParams := ⟨[("boost", "float")], nodup_float⟩

/-- A configuration with two follow-ups from the digests. -/
def followingSpec : StudyConfigSpec where
  maxTrials := some (some 20)
  autoFollowupDepth := some (some 2)
  autoFollowupStrategy := some (some followSuggestions)

theorem followingSpec_valid : followingSpec.validate = .ok () := by decide

/-- A study of the template 1. -/
def followingRoot : RootStudy where
  row :=
    { objective := ⟨.ndcg, some .k10, .maximize⟩
      config := followingSpec.stored
      status := .queued
      id := 1
      name := "products"
      clusterId := 1
      target := "products"
      templateId := 1
      querySetId := 1
      judgmentListId := 1
      searchSpace := boostSpace
      optunaStudyName := 1 }
  spec := followingSpec
  valid := followingSpec_valid
  config := rfl
  visited := rfl
  kind := rfl

/-- The study completes with a lift. -/
def lifted : Outcome where
  status := .completed
  failedReason := none
  baselineMetric := some (1 / 10)
  baselineTrialId := none
  bestMetric := some (3 / 5)
  bestTrialId := some 5
  startedAt := some 1
  completedAt := some 2
  stopped := false

/-- A delivery with one suggestion. -/
def suggesting (childId : ℕ) (item : Json ℚ) : FollowupReads where
  childId := childId
  now := 3
  existingChildren := []
  allTrials := []
  budget := 0
  modelKnown := true
  peekTotal := 0
  maxCallCost := 0
  trialParams _ := some Dict.empty
  template templateId := if templateId ≤ 2 then some boostTemplate else none
  suggestedFollowups := .ok (some (.list [item]))
  swapReadRaises := false

/-- The text of the id 1. -/
def firstId : String := "00000000-0000-7000-8000-000000000001"

/-- The text of the id 2. -/
def secondId : String := "00000000-0000-7000-8000-000000000002"

/-- The boost as a document. -/
def boostJson : Json ℚ :=
  .dict ["params"] [.dict ["boost"] [.dict ["type", "low", "high", "log"]
    [.str "float", .float (1 / 2), .float 10, .bool true]]]

/-- A suggestion to try another template. -/
def swapJson (templateId : String) : Json ℚ :=
  .dict ["kind", "rationale", "template_id", "search_space"]
    [.str "swap_template", .str "Try another template.", .str templateId, boostJson]

/-- How the suggestions with the boost are read. -/
def readSwap : Json ℚ → Except String FollowupItem
  | .dict _ [.str "swap_template", .str rationale, .str templateId, _] =>
    if templateId = firstId then .ok (.swapTemplate rationale 1 boostSpace)
    else if templateId = secondId then .ok (.swapTemplate rationale 2 boostSpace)
    else .error "not a template"
  | _ => .error "not a swap"

/-- A swap to the template 2, and one back, which the cycle guard drops. -/
def thereAndBack : List (StudyRow SearchSpace) :=
  chain exactArith readSwap followingRoot
    [(lifted, suggesting 2 (swapJson secondId)), (lifted, suggesting 3 (swapJson firstId))]

theorem chain_links_ok_thereAndBack :
    thereAndBack.map (·.templateId) = [2, 2, 1] ∧
      thereAndBack.map (·.selectedKind) = [some .narrowDefault, some .swapTemplate, none] ∧
      (∀ link parent ancestors, (link :: parent :: ancestors) <:+ thereAndBack →
        LinkOk followingRoot.row link parent ancestors) :=
  ⟨by decide +kernel, by decide +kernel, (chain_links_ok followingRoot _).1⟩

end RelyLoop.Followups
