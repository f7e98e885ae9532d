import RelyLoop.Proposals.ConfigDiff
import RelyLoop.Proposals.ProposalState

/-!
# The writers of a study's proposals

`_stop` inserts the pending proposal of a completed study with an empty diff, `generate_digest`
picks a pending proposal before its call to the language model and fills it after, and the chat
tool inserts one with a diff of its own. Once all have run, a pending proposal need not be unique,
and need not be one that a pull request can be opened for.
-/

namespace RelyLoop.Proposals.DiffWriters

open Python

/-- A proposal of the study, as far as the writers and the pull request depend on it. -/
structure StudyProposal where
  id : ℕ
  status : ProposalStatus
  configDiff : Document

/-- The study with its proposals, and the proposal that a running digest has picked. -/
structure StudyProposals where
  completed : Bool := false
  rows : List StudyProposal := []
  picked : Option ℕ := none

/-- What the writers do: `_stop` completes the study, in a transaction whose rollup may supersede
the proposals of the study; a digest picks a pending proposal, of several any, and writes; the tool
inserts. -/
inductive WriterStep where
  | stop (superseded : Bool)
  | pick (choice : ℕ)
  | write
  | tool

/-- A row with a new id. -/
def StudyProposals.insert (s : StudyProposals) (status : ProposalStatus) (configDiff : Document) :
    StudyProposals :=
  { s with rows := s.rows ++ [⟨s.rows.length, status, configDiff⟩] }

/-- The pending proposals of the study. -/
def StudyProposals.pending (s : StudyProposals) : List StudyProposal :=
  s.rows.filter fun p => p.status = .pending

/-- `_stop`: a study that is not running keeps what it has. -/
def stopStudy (superseded : Bool) (s : StudyProposals) : StudyProposals :=
  if s.completed then s
  else { s with completed := true }.insert
    (if superseded then .superseded else .pending) Dict.empty

/-- `_ensure_pending_proposal`. -/
def ensurePendingProposal (choice : ℕ) (s : StudyProposals) : StudyProposals :=
  if !s.completed then s
  else match s.pending[choice % s.pending.length]? with
    | some p => { s with picked := some p.id }
    | none => { s.insert .pending Dict.empty with picked := some s.rows.length }

/-- `update_proposal_for_digest`, the last write of a digest. -/
def updateProposalForDigest (configDiff : Document) (s : StudyProposals) : StudyProposals :=
  { s with
    picked := none
    rows := s.rows.map fun p =>
      if s.picked = some p.id ∧ p.status = .pending then { p with configDiff := configDiff }
      else p }

/-- `create_proposal_from_study_impl`: without a best trial the tool refuses. -/
def createProposalFromStudy (s : StudyProposals) : StudyProposals :=
  if !s.completed then s else s.insert .pending toolDiff

/-- One step, where the digest has computed a diff. -/
def StudyProposals.step (configDiff : Document) (s : StudyProposals) : WriterStep → StudyProposals
  | .stop superseded => stopStudy superseded s
  | .pick choice => ensurePendingProposal choice s
  | .write => updateProposalForDigest configDiff s
  | .tool => createProposalFromStudy s

/-- Where the calls of the tool stand in a run, how the rollup ends and which proposal the digest
picks. The digest runs once the study is completed. -/
structure WriterOrder where
  beforeStop : ℕ
  beforeDigest : ℕ
  duringDigest : ℕ
  afterDigest : ℕ
  superseded : Bool
  choice : ℕ

/-- The steps of an order. -/
def WriterOrder.steps (o : WriterOrder) : List WriterStep :=
  List.replicate o.beforeStop .tool ++ .stop o.superseded :: List.replicate o.beforeDigest .tool ++
    .pick o.choice :: List.replicate o.duringDigest .tool ++ .write ::
    List.replicate o.afterDigest .tool

/-- The proposals after all writers have run. -/
def WriterOrder.run (o : WriterOrder) (configDiff : Document) : StudyProposals :=
  o.steps.foldl (StudyProposals.step configDiff) {}

/-- Every pending proposal writes the best parameters, and there is at most one. -/
structure OnePending (table : CharacterTable) (declaredParams bestParams : Document)
    (s : StudyProposals) : Prop where
  writes : ∀ p ∈ s.pending, Writes table declaredParams bestParams p.configDiff
  unique : s.pending.length ≤ 1

/-- All calls of the tool are refused, or there is one that leaves the only pending proposal for
the digest to fill. -/
def WriterOrder.Harmless (o : WriterOrder) : Prop :=
  o.duringDigest = 0 ∧ o.afterDigest = 0 ∧
    (o.beforeDigest = 0 ∨ o.superseded = true ∧ o.beforeDigest = 1)

/-! ## Counting the pending proposals -/

variable {table : CharacterTable} {declaredParams bestParams templateDefaults configDiff : Document}
  {s : StudyProposals}

theorem pending_insert (status : ProposalStatus) (diff : Document) :
    (s.insert status diff).pending.length =
      s.pending.length + if status = .pending then 1 else 0 := by
  cases status <;> simp [StudyProposals.insert, StudyProposals.pending]

theorem foldl_tools (n : ℕ) (s : StudyProposals) :
    (List.replicate n WriterStep.tool).foldl (StudyProposals.step configDiff) s =
      createProposalFromStudy^[n] s := by
  induction n generalizing s with
  | zero => rfl
  | succ n ih =>
    rw [List.replicate_succ, List.foldl_cons, ih]
    rfl

/-- The tool adds a pending proposal each time. -/
theorem tools_of_completed (n : ℕ) (h : s.completed = true) :
    (createProposalFromStudy^[n] s).completed = true ∧
      (createProposalFromStudy^[n] s).pending.length = s.pending.length + n := by
  induction n generalizing s with
  | zero => exact ⟨h, rfl⟩
  | succ n ih =>
    have hstep : createProposalFromStudy s = s.insert .pending toolDiff := by
      simp [createProposalFromStudy, h]
    obtain ⟨hcompleted, hcount⟩ := @ih (s.insert .pending toolDiff) h
    rw [Function.iterate_succ_apply, hstep]
    refine ⟨hcompleted, ?_⟩
    rw [hcount, pending_insert, if_pos rfl]
    omega

/-- The tool refuses a study that is not completed. -/
theorem tools_of_not_completed (n : ℕ) (h : s.completed = false) :
    createProposalFromStudy^[n] s = s := by
  refine Function.iterate_fixed ?_ n
  simp [createProposalFromStudy, h]

theorem pick_of_completed (choice : ℕ) (h : s.completed = true) :
    (ensurePendingProposal choice s).completed = true ∧
      (ensurePendingProposal choice s).pending.length = max 1 s.pending.length := by
  unfold ensurePendingProposal
  rw [if_neg (by simp [h])]
  cases hpick : s.pending[choice % s.pending.length]? with
  | some p =>
    have hpos : 0 < s.pending.length := by
      by_contra hzero
      have hnil : s.pending = [] := List.length_eq_zero_iff.mp (by omega)
      simp [hnil] at hpick
    exact ⟨h, (max_eq_right hpos).symm⟩
  | none =>
    have hzero : s.pending.length = 0 := by
      by_contra hne
      have hlt := Nat.mod_lt choice (Nat.pos_of_ne_zero hne)
      simp [hlt] at hpick
    refine ⟨h, ?_⟩
    have hcount := pending_insert (s := s) .pending Dict.empty
    rw [hzero] at hcount ⊢
    exact hcount

/-- The digest changes no status. -/
theorem write_of_completed (configDiff : Document) (h : s.completed = true) :
    (updateProposalForDigest configDiff s).completed = true ∧
      (updateProposalForDigest configDiff s).pending.length = s.pending.length := by
  refine ⟨h, ?_⟩
  simp only [StudyProposals.pending, updateProposalForDigest, List.filter_map, List.length_map]
  congr 2
  funext p
  by_cases hpicked : s.picked = some p.id ∧ p.status = .pending <;> simp [hpicked]

/-- The study after `_stop`. -/
def afterStop (superseded : Bool) : StudyProposals := stopStudy superseded {}

theorem pending_afterStop (superseded : Bool) :
    (afterStop superseded).pending.length = if superseded then 0 else 1 := by
  cases superseded <;> rfl

/-- Nothing happens before the study is completed. -/
theorem run_eq (o : WriterOrder) (configDiff : Document) :
    o.run configDiff =
      createProposalFromStudy^[o.afterDigest] (updateProposalForDigest configDiff
        (createProposalFromStudy^[o.duringDigest] (ensurePendingProposal o.choice
          (createProposalFromStudy^[o.beforeDigest] (afterStop o.superseded))))) := by
  simp only [WriterOrder.run, WriterOrder.steps, List.foldl_append, List.foldl_cons, foldl_tools,
    tools_of_not_completed, StudyProposals.step, afterStop]

/-- How many proposals are pending in the end. -/
theorem pending_run (o : WriterOrder) (configDiff : Document) :
    (o.run configDiff).pending.length =
      max 1 ((if o.superseded then 0 else 1) + o.beforeDigest) + o.duringDigest +
        o.afterDigest := by
  have hstop : (afterStop o.superseded).completed = true := rfl
  obtain ⟨hbefore, hbeforeCount⟩ := tools_of_completed o.beforeDigest hstop
  obtain ⟨hpick, hpickCount⟩ := pick_of_completed o.choice hbefore
  obtain ⟨hduring, hduringCount⟩ := tools_of_completed o.duringDigest hpick
  obtain ⟨hwrite, hwriteCount⟩ := write_of_completed configDiff hduring
  rw [run_eq, (tools_of_completed o.afterDigest hwrite).2, hwriteCount, hduringCount, hpickCount,
    hbeforeCount, pending_afterStop]

/-- With harmless calls of the tool the only pending proposal has the diff of the digest. -/
theorem pending_of_harmless {o : WriterOrder} (h : o.Harmless) (configDiff : Document) :
    ∃ id, (o.run configDiff).pending = [⟨id, .pending, configDiff⟩] := by
  obtain ⟨hduring, hafter, hbefore⟩ := h
  rw [run_eq, hduring, hafter]
  rcases hbefore with hnone | ⟨hsuperseded, hone⟩
  · rw [hnone]
    cases o.superseded with
    | true => exact ⟨1, rfl⟩
    | false =>
      refine ⟨0, ?_⟩
      simp [afterStop, stopStudy, StudyProposals.insert, ensurePendingProposal,
        StudyProposals.pending, updateProposalForDigest, Nat.mod_one]
  · rw [hsuperseded, hone]
    refine ⟨1, ?_⟩
    simp [afterStop, stopStudy, StudyProposals.insert, ensurePendingProposal, createProposalFromStudy,
      StudyProposals.pending, updateProposalForDigest, Nat.mod_one]

/-- Once `_stop`, the digest and the calls of the tool have run, in any order, there is exactly one
pending proposal and it writes the best parameters, if and only if the calls were harmless and the
values have the declared types. -/
theorem onePending_iff (o : WriterOrder)
    (hdeclared : ∀ key ∈ bestParams.keys, key ∈ declaredParams.keys) :
    OnePending table declaredParams bestParams
        (o.run (digestDiff templateDefaults (recommendedConfig bestParams declaredParams))) ↔
      o.Harmless ∧ TypesOk table declaredParams bestParams := by
  rw [recommendedConfig_eq hdeclared]
  constructor
  · intro h
    have hunique := h.unique
    rw [pending_run] at hunique
    have hharmless : o.Harmless := by
      refine ⟨by omega, by omega, ?_⟩
      cases hsuperseded : o.superseded with
      | true =>
        rw [hsuperseded, if_pos rfl] at hunique
        rcases Nat.eq_zero_or_pos o.beforeDigest with hzero | hpos
        · exact Or.inl hzero
        · exact Or.inr ⟨rfl, by omega⟩
      | false =>
        rw [hsuperseded, if_neg Bool.false_ne_true] at hunique
        exact Or.inl (by omega)
    obtain ⟨id, hpending⟩ := pending_of_harmless hharmless (digestDiff templateDefaults bestParams)
    have hwrites : Writes table declaredParams bestParams
        (digestDiff templateDefaults bestParams) :=
      h.writes ⟨id, .pending, _⟩ (by rw [hpending]; exact List.mem_singleton_self _)
    exact ⟨hharmless, (writes_digestDiff_iff hdeclared).mp hwrites⟩
  · rintro ⟨hharmless, htypes⟩
    obtain ⟨id, hpending⟩ := pending_of_harmless hharmless (digestDiff templateDefaults bestParams)
    constructor
    · intro p hp
      rw [hpending, List.mem_singleton] at hp
      subst hp
      exact (writes_digestDiff_iff hdeclared).mpr htypes
    · rw [hpending, List.length_singleton]

/-! ## A study with one boost -/

theorem nodup_boost (value : Json ℚ) : ([("boost", value)].map Prod.fst).Nodup :=
  List.nodup_singleton _

/-- The template declares a float. -/
def boostDeclared : Document := ⟨[("boost", .str "float")], nodup_boost _⟩

/-- The best trial has the boost 3/2. -/
def boostBest : Document := ⟨[("boost", .float (3 / 2))], nodup_boost _⟩

theorem boost_declared : ∀ key ∈ boostBest.keys, key ∈ boostDeclared.keys := by
  simp [boostBest, boostDeclared, Dict.keys]

/-- The order in which the tool is called `n` times once the digest is done. -/
def toolAfterwards (n : ℕ) : WriterOrder := ⟨0, 0, 0, n, false, 0⟩

/-- The digest's diff of the boost. -/
def boostDiff : Document := digestDiff Dict.empty (recommendedConfig boostBest boostDeclared)

theorem typesOk_boost : TypesOk asciiTable boostDeclared boostBest := by
  intro key value hmem
  obtain ⟨rfl, rfl⟩ := Prod.mk.inj (List.mem_singleton.mp hmem)
  decide

/-- Without a call of the tool there is one proposal, and it writes the boost. -/
theorem onePending_without_tool :
    OnePending asciiTable boostDeclared boostBest ((toolAfterwards 0).run boostDiff) :=
  (onePending_iff (toolAfterwards 0) boost_declared).mpr
    ⟨⟨rfl, rfl, Or.inl rfl⟩, typesOk_boost⟩

/-- One call of the tool leaves a second pending proposal, which no pull request accepts. -/
theorem tool_leaves_second_pending :
    ((toolAfterwards 1).run boostDiff).pending.length = 2 ∧
      (∃ p ∈ ((toolAfterwards 1).run boostDiff).pending,
        ¬ Writes asciiTable boostDeclared boostBest p.configDiff) ∧
      ¬ OnePending asciiTable boostDeclared boostBest ((toolAfterwards 1).run boostDiff) := by
  have hcount : ((toolAfterwards 1).run boostDiff).pending.length = 2 := pending_run _ _
  refine ⟨hcount, ⟨⟨1, .pending, toolDiff⟩, ?_, not_writes_toolDiff⟩, fun h => ?_⟩
  · rw [run_eq]
    simp [toolAfterwards, afterStop, stopStudy, StudyProposals.insert, ensurePendingProposal,
      createProposalFromStudy, StudyProposals.pending, updateProposalForDigest]
  · have hunique := h.unique
    omega

end RelyLoop.Proposals.DiffWriters
