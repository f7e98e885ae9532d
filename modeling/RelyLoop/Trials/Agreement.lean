import RelyLoop.Trials.Recording
import RelyLoop.Concurrency.RowVersions

/-!
# The table and the optimizer

The rows of a trial agree with the optimizer over whole runs of `run_trial`,
deliveries that overlap, are repeated or die included, when the check for an
existing row still holds where a row is inserted, and when the handler's `tell`
has its effect. The workers ensure neither.
-/

namespace RelyLoop.Trials

open Concurrency Eval Studies Store

/-! ## Agreement -/

/-- A row and the optimizer say the same of the end of a trial. -/
def Agrees (row : Trial) : TrialState → Prop
  | .complete value => row.status = .complete ∧ row.primaryMetric = some value
  | .fail => row.status = .failed
  | .pruned value => row.status = .pruned ∧ row.primaryMetric = value
  | _ => False

/-- The row is one of the given trial. -/
def OfTrial (studyId : ℕ) (optunaTrialNumber : ℤ) (row : Trial) : Prop :=
  row.studyId = studyId ∧ row.optunaTrialNumber = optunaTrialNumber

theorem Agrees.isFinished {row : Trial} {state : TrialState} (h : Agrees row state) :
    state.isFinished = true := by
  cases state with
  | waiting => exact h.elim
  | running => exact h.elim
  | _ => rfl

/-- A row that agrees is complete exactly when the optimizer has its primary metric. -/
theorem Agrees.complete_iff {row : Trial} {state : TrialState} (h : Agrees row state) :
    row.status = .complete ↔ ∃ value, state = .complete value ∧ row.primaryMetric = some value := by
  cases state with
  | waiting => exact h.elim
  | running => exact h.elim
  | complete value => simpa [h.1] using h.2
  | fail => simp [show row.status = .failed from h]
  | pruned value => simp [h.1]

theorem agrees_completeRow (inputs : TrialInputs) (primary : ℚ) (scored : ScoreResult) :
    Agrees (completeRow inputs primary scored) (.complete primary) := ⟨rfl, rfl⟩

theorem agrees_failedRow (inputs : TrialInputs) (exc : TrialException) :
    Agrees (failedRow inputs exc) .fail := rfl

/-- A reconstructed row agrees with the state it is built from. -/
theorem agrees_reconstructedRow {inputs : TrialInputs} {objectiveKey : String}
    {state : TrialState} {row : Trial}
    (h : reconstructedRow inputs objectiveKey state = some row) : Agrees row state := by
  cases state with
  | waiting => cases h
  | running => cases h
  | complete value => exact Option.some.inj h ▸ ⟨rfl, rfl⟩
  | fail => exact Option.some.inj h ▸ rfl
  | pruned value => exact Option.some.inj h ▸ ⟨rfl, rfl⟩

/-- A reconstructed row is one of the delivery's trial. -/
theorem reconstructedRow_of {inputs : TrialInputs} {objectiveKey : String} {state : TrialState}
    {row : Trial} (h : reconstructedRow inputs objectiveKey state = some row) :
    OfTrial inputs.studyId inputs.optunaTrialNumber row := by
  cases state with
  | waiting => cases h
  | running => cases h
  | _ => exact Option.some.inj h ▸ ⟨rfl, rfl⟩

/-! ## The optimizer -/

/-- A finished trial keeps its state. -/
def Optuna.Grows (optuna optuna' : Optuna) : Prop :=
  ∀ studyId optunaTrialNumber, (optuna studyId optunaTrialNumber).isFinished →
    optuna' studyId optunaTrialNumber = optuna studyId optunaTrialNumber

theorem Optuna.grows_update {optuna : Optuna} {studyId : ℕ} {optunaTrialNumber : ℤ}
    (state : TrialState) (h : optuna studyId optunaTrialNumber = .running) :
    optuna.Grows (optuna.update studyId optunaTrialNumber state) := by
  intro study number hfinished
  by_cases htrial : study = studyId ∧ number = optunaTrialNumber
  · obtain ⟨rfl, rfl⟩ := htrial
    rw [h] at hfinished
    cases hfinished
  · simp [Optuna.update, htrial]

/-- A `tell` changes a running trial only, and when it answers without an
exception it has. -/
theorem execOptuna_tell {optuna optuna' : Optuna} {studyLoaded : Bool} {studyId : ℕ}
    {optunaTrialNumber : ℤ} {state : TrialState} {fault : Option TellFault} {a : Option String}
    (h : execOptuna optuna (.tell studyLoaded studyId optunaTrialNumber state fault) =
      some (optuna', a)) :
    (optuna' = optuna ∧ a.isSome ∧ (studyLoaded = false ∨ (∃ message,
      fault = some (.refused message)) ∨ optuna studyId optunaTrialNumber ≠ .running)) ∨
    (optuna studyId optunaTrialNumber = .running ∧
      optuna' = optuna.update studyId optunaTrialNumber state) := by
  cases studyLoaded with
  | false =>
    obtain ⟨rfl, rfl⟩ := Prod.mk.inj (Option.some.inj h)
    exact Or.inl ⟨rfl, rfl, Or.inl rfl⟩
  | true =>
    simp only [execOptuna] at h
    split at h
    · obtain ⟨rfl, rfl⟩ := Prod.mk.inj (Option.some.inj h)
      exact Or.inl ⟨rfl, rfl, Or.inr (Or.inl ⟨_, rfl⟩)⟩
    · split at h
      · rename_i hrunning
        obtain ⟨rfl, -⟩ := Prod.mk.inj (Option.some.inj h)
        exact Or.inr ⟨hrunning, rfl⟩
      · rename_i hrunning
        obtain ⟨rfl, rfl⟩ := Prod.mk.inj (Option.some.inj h)
        exact Or.inl ⟨rfl, rfl, Or.inr (Or.inr hrunning)⟩

theorem Optuna.grows_exec {optuna optuna' : Optuna} {o : OptunaOp} {a : o.Res}
    (h : execOptuna optuna o = some (optuna', a)) : optuna.Grows optuna' := by
  cases o with
  | snapshot studyId optunaTrialNumber =>
    obtain ⟨rfl, -⟩ := Prod.mk.inj (Option.some.inj h)
    exact fun _ _ _ => rfl
  | tell studyLoaded studyId optunaTrialNumber state fault =>
    rcases execOptuna_tell h with ⟨rfl, -⟩ | ⟨hrunning, rfl⟩
    · exact fun _ _ _ => rfl
    · exact Optuna.grows_update state hrunning

/-! ## The discipline -/

instance (studyId : ℕ) (optunaTrialNumber : ℤ) (row : Trial) :
    Decidable (OfTrial studyId optunaTrialNumber row) := inferInstanceAs (Decidable (_ ∧ _))

/-- The fault keeps the `tell` from having its effect. -/
def TellFault.refuses : TellFault → Bool
  | refused _ => true
  | unacknowledged _ => false

section Discipline

variable (studyId : ℕ) (optunaTrialNumber : ℤ)

/-- The condition on the runs considered. Where a row of the trial is inserted, the
check that the delivery has made still holds: no row of the trial is there, committed
or not. Where the trial is told to have failed, it has failed already, or it is
running and the `tell` has its effect. -/
def checkStillHolds {T : Type} (_ : T) (w : Beside T ℕ Trial Optuna) :
    BesideOp ℕ Trial OptunaOp → Bool
  | .row (.insert _ row) => OfTrial studyId optunaTrialNumber row →
      ∀ key ∈ w.table.keys, ∀ other ∈ w.table.versions key, ¬OfTrial studyId optunaTrialNumber other
  | .outside (.tell studyLoaded study number .fail fault) =>
      study = studyId ∧ number = optunaTrialNumber →
        w.outside study number = .fail ∨
          studyLoaded = true ∧ w.outside study number = .running ∧ ¬fault.any TellFault.refuses
  | _ => true

/-- The versions of the trial's rows are those of one row, and agree with the
optimizer. -/
structure Consistent {T : Type} (s : Store T ℕ Trial) (optuna : Optuna) : Prop where
  known : s.KeysKnown
  agrees : ∀ key, ∀ row ∈ s.versions key, OfTrial studyId optunaTrialNumber row →
    Agrees row (optuna studyId optunaTrialNumber)
  unique : ∀ key key' row row', row ∈ s.versions key → row' ∈ s.versions key' →
    OfTrial studyId optunaTrialNumber row → OfTrial studyId optunaTrialNumber row' → key = key'

variable {studyId optunaTrialNumber} {T : Type} {s s' : Store T ℕ Trial}
variable {optuna optuna' : Optuna}

/-- Giving up versions keeps the rest consistent. -/
theorem Consistent.mono (h : Consistent studyId optunaTrialNumber s optuna)
    (hkeys : s'.keys = s.keys) (hversions : ∀ key, ∀ row ∈ s'.versions key, row ∈ s.versions key) :
    Consistent studyId optunaTrialNumber s' optuna where
  known key row hrow := hkeys ▸ h.known key row (hversions key row hrow)
  agrees key row hrow := h.agrees key row (hversions key row hrow)
  unique key key' row row' hrow hrow' :=
    h.unique key key' row row' (hversions key row hrow) (hversions key' row' hrow')

/-- The optimizer does not leave the rows behind: what agrees is finished. -/
theorem Consistent.grows (h : Consistent studyId optunaTrialNumber s optuna)
    (hgrows : optuna.Grows optuna') : Consistent studyId optunaTrialNumber s optuna' where
  known := h.known
  agrees key row hrow hof := by
    have hagrees := h.agrees key row hrow hof
    rw [hgrows _ _ hagrees.isFinished]
    exact hagrees
  unique := h.unique

variable [DecidableEq T]

/-- The insertion of a row that agrees, where the trial has no row. -/
theorem Consistent.insert {t : T} {key : ℕ} {row : Trial} {a : Unit}
    (h : Consistent studyId optunaTrialNumber s optuna)
    (hexec : exec t s (.insert key row) = some (s', a))
    (hagrees : OfTrial studyId optunaTrialNumber row →
      Agrees row (optuna studyId optunaTrialNumber))
    (hnone : OfTrial studyId optunaTrialNumber row → ∀ key ∈ s.keys,
      ∀ other ∈ s.versions key, ¬OfTrial studyId optunaTrialNumber other) :
    Consistent studyId optunaTrialNumber s' optuna where
  known key' row' hrow' := by
    have hkeys : s'.keys = s.keys ++ [key] := by
      obtain ⟨-, -, rfl⟩ := exec_insert hexec
      rfl
    rw [hkeys, List.mem_append, List.mem_singleton]
    rcases mem_versions_of_insert hexec hrow' with ⟨hkey, -⟩ | hold
    · exact Or.inr hkey
    · exact Or.inl (h.known key' row' hold)
  agrees key' row' hrow' hof := by
    rcases mem_versions_of_insert hexec hrow' with ⟨-, rfl⟩ | hold
    · exact hagrees hof
    · exact h.agrees key' row' hold hof
  unique key₁ key₂ row₁ row₂ hrow₁ hrow₂ hof₁ hof₂ := by
    rcases mem_versions_of_insert hexec hrow₁ with ⟨rfl, rfl⟩ | hold₁ <;>
      rcases mem_versions_of_insert hexec hrow₂ with ⟨rfl, rfl⟩ | hold₂
    · rfl
    · exact absurd hof₂ (hnone hof₁ key₂ (h.known key₂ row₂ hold₂) row₂ hold₂)
    · exact absurd hof₁ (hnone hof₂ key₁ (h.known key₁ row₁ hold₁) row₁ hold₁)
    · exact h.unique key₁ key₂ row₁ row₂ hold₁ hold₂ hof₁ hof₂

variable (T studyId optunaTrialNumber)

/-- Committed rows do not change, the optimizer's finished trials neither, and
the two are consistent. -/
def agreement : Discipline T Delivery ℕ Trial Optuna OptunaOp where
  Rel := Eq
  Good _ := True
  touches _ _ := True
  Link := Consistent studyId optunaTrialNumber
  Grows := Optuna.Grows
  cond t w o := checkStillHolds studyId optunaTrialNumber t w o
  rel_refl _ := rfl
  rel_trans _ _ _ := Eq.trans
  grows_refl _ _ _ _ := rfl
  grows_trans _ _ _ h h' study number hfinished := by
    have hsame := h study number hfinished
    rw [← hsame] at hfinished
    exact (h' study number hfinished).trans hsame
  link_rollback _ _ _ h := h.mono rfl fun _ _ => mem_versions_of_rollback

end Discipline

/-! ## The code keeps the discipline -/

section Code

variable {studyId : ℕ} {optunaTrialNumber : ℤ} {T : Type} [DecidableEq T] {ev : Evaluator}
variable {t : T} {delivery : Delivery} {w : Beside T ℕ Trial Optuna} {α : Type}
variable {E : TrialFailure → Beside T ℕ Trial Optuna → Prop}

/-- A program of a delivery is safe under the agreement. -/
abbrev Keeps (ev : Evaluator) (studyId : ℕ) (optunaTrialNumber : ℤ) (t : T) (delivery : Delivery)
    (Q : α → Beside T ℕ Trial Optuna → Prop) (E : TrialFailure → Beside T ℕ Trial Optuna → Prop)
    (p : Db α) (w : Beside T ℕ Trial Optuna) : Prop :=
  Safe (trialSystem T ev) (agreement studyId optunaTrialNumber T).contract t delivery Q E p w

/-- What a row says of a finished trial stays true. -/
theorem agrees_stable {row : Trial} {w w' : Beside T ℕ Trial Optuna}
    (hrely : (agreement studyId optunaTrialNumber T).contract.rely t w w')
    (h : OfTrial studyId optunaTrialNumber row →
      Agrees row (w.outside studyId optunaTrialNumber)) :
    OfTrial studyId optunaTrialNumber row →
      Agrees row (w'.outside studyId optunaTrialNumber) := by
  intro hof
  have hagrees := h hof
  rw [hrely.2.2 studyId optunaTrialNumber hagrees.isFinished]
  exact hagrees

theorem safe_raiseIfAny {exc : Option TrialException} {studyLoaded tellSucceeded : Bool}
    {Q : Unit → Beside T ℕ Trial Optuna → Prop} (hQ : Q () w) :
    Keeps ev studyId optunaTrialNumber t delivery Q (fun _ _ => True)
      (raiseIfAny exc studyLoaded tellSucceeded) w := by
  cases exc with
  | none => exact hQ
  | some exc => trivial

/-- The idempotency check only reads. -/
theorem safe_existingTerminalAppRow (study : ℕ) (number : ℤ) :
    Keeps ev studyId optunaTrialNumber t delivery (fun _ _ => True) E
      (existingTerminalAppRow study number) w := by
  refine Discipline.safe_row (fun _ => True) trivial (fun _ _ _ h => h) (fun _ _ _ _ => trivial)
    (fun w s' a _ hinv _ hexec => ?_) (fun h => by cases h) fun _ _ _ _ _ _ _ => trivial
  obtain ⟨rfl, -⟩ := Prod.mk.inj (Option.some.inj hexec)
  refine hinv.2.mono (keys_foldl_load _) fun key row hrow => ?_
  rwa [versions_foldl_load] at hrow

/-- A row that agrees with the optimizer is inserted and committed. -/
theorem safe_createTrial {row : Trial} (hagrees : OfTrial studyId optunaTrialNumber row →
      Agrees row (w.outside studyId optunaTrialNumber)) :
    Keeps ev studyId optunaTrialNumber t delivery (fun _ _ => True) E (createTrial row) w := by
  refine Discipline.safe_row (fun w : Beside T ℕ Trial Optuna =>
    OfTrial studyId optunaTrialNumber row → Agrees row (w.outside studyId optunaTrialNumber))
    hagrees (fun _ _ => agrees_stable) (fun _ _ _ _ => trivial)
    (fun w s' a hagrees hinv hcond hexec => ?_) (fun h => by cases h) fun _ _ _ _ _ _ _ => ?_
  · exact hinv.2.insert hexec hagrees (of_decide_eq_true hcond)
  · refine Discipline.safe_row (fun _ => True) trivial (fun _ _ _ h => h)
      (fun _ _ _ _ => trivial) (fun w s' a _ hinv _ hexec => ?_)
      (fun _ _ _ _ _ _ _ _ => trivial) fun _ _ _ _ _ _ _ => trivial
    obtain ⟨rfl, -⟩ := Prod.mk.inj (Option.some.inj hexec)
    exact hinv.2.mono rfl fun _ _ => mem_versions_of_commit

/-- A call of the optimizer keeps the rows consistent. -/
theorem safe_optuna {o : OptunaOp} {Q : o.Res → Beside T ℕ Trial Optuna → Prop}
    (hanswer : ∀ (w : Beside T ℕ Trial Optuna) x' a,
      checkStillHolds studyId optunaTrialNumber t w (.outside o) →
      execOptuna w.outside o = some (x', a) → Q a ⟨w.table, x'⟩) :
    Keeps ev studyId optunaTrialNumber t delivery Q E (Program.perform (BesideOp.outside o)) w := by
  refine Discipline.safe_outside (fun _ => True) trivial (fun _ _ _ h => h)
    (fun w x' a _ hinv _ hexec => ?_) fun w x' a _ _ hcond hexec => hanswer w x' a hcond hexec
  have hgrows := Optuna.grows_exec hexec
  exact ⟨hinv.2.grows hgrows, hgrows⟩

/-- The snapshot is the state of the trial. -/
theorem safe_snapshotOptunaTrial (study : ℕ) (number : ℤ) :
    Keeps ev studyId optunaTrialNumber t delivery (fun state w => state = w.outside study number) E
      (snapshotOptunaTrial study number) w := by
  refine safe_optuna fun w x' a _ hexec => ?_
  obtain ⟨rfl, rfl⟩ := Prod.mk.inj (Option.some.inj hexec)
  rfl

/-- A `tell` without an exception leaves the trial in the state that it was told. -/
theorem safe_tell (inputs : TrialInputs) (studyLoaded : Bool) (state : TrialState)
    (fault : Option TellFault) :
    Keeps ev studyId optunaTrialNumber t delivery (fun a w => a = none →
      w.outside inputs.studyId inputs.optunaTrialNumber = state) E
      (tell inputs studyLoaded state fault) w := by
  refine safe_optuna fun w x' a _ hexec hnone => ?_
  rcases execOptuna_tell hexec with ⟨-, hsome, -⟩ | ⟨-, rfl⟩
  · simp [hnone] at hsome
  · simp [Optuna.update]

/-- After the `tell` of the handler the trial has failed. -/
theorem safe_tellFail (inputs : TrialInputs) (studyLoaded : Bool) (fault : Option TellFault) :
    Keeps ev studyId optunaTrialNumber t delivery (fun _ w =>
      inputs.studyId = studyId ∧ inputs.optunaTrialNumber = optunaTrialNumber →
        w.outside studyId optunaTrialNumber = .fail) E (tell inputs studyLoaded .fail fault) w := by
  refine safe_optuna fun w x' a hcond hexec htrial => ?_
  have hholds := of_decide_eq_true hcond htrial
  obtain ⟨rfl, rfl⟩ := htrial
  rcases execOptuna_tell hexec with ⟨rfl, -, hfailed⟩ | ⟨-, rfl⟩
  · refine hholds.resolve_right fun ⟨hloaded, hrunning, hfault⟩ => ?_
    obtain hunbound | ⟨message, rfl⟩ | hnot := hfailed
    · simp [hloaded] at hunbound
    · exact hfault rfl
    · exact hnot hrunning
  · simp [Optuna.update]

/-- A row is reconstructed from the state that the trial has. -/
theorem safe_reconstructFromOptuna {objectiveKey : String} {state : TrialState}
    (hstate : state = w.outside delivery.inputs.studyId delivery.inputs.optunaTrialNumber) :
    Keeps ev studyId optunaTrialNumber t delivery (fun _ _ => True) (fun _ _ => True)
      (reconstructFromOptuna delivery objectiveKey state) w := by
  unfold reconstructFromOptuna
  split
  · trivial
  · rename_i row hrow
    refine Safe.bind (safe_raiseIfAny (safe_createTrial fun hof => ?_))
    obtain ⟨hstudy, hnumber⟩ := reconstructedRow_of hrow
    rw [← hof.1, ← hof.2, hstudy, hnumber, ← hstate]
    exact agrees_reconstructedRow hrow

theorem safe_executeTrial (objectiveKey : String) :
    Keeps ev studyId optunaTrialNumber t delivery (fun _ _ => True) (fun _ _ => True)
      (executeTrial ev delivery objectiveKey) w := by
  refine Safe.bind (safe_raiseIfAny ?_)
  cases searchAndScore ev delivery.inputs objectiveKey with
  | error exc => trivial
  | ok result =>
    obtain ⟨primary, scored⟩ := result
    refine Safe.seq (safe_tell _ _ _ _) fun answer w htold => ?_
    cases answer with
    | some message => trivial
    | none =>
      refine Safe.bind (safe_raiseIfAny (safe_createTrial fun hof => ?_))
      have hstate := htold rfl
      rw [← hof.1, ← hof.2]
      exact hstate ▸ agrees_completeRow delivery.inputs primary scored

theorem safe_attemptTrial :
    Keeps ev studyId optunaTrialNumber t delivery (fun _ _ => True) (fun _ _ => True)
      (attemptTrial ev delivery) w := by
  refine Safe.bind (safe_raiseIfAny ?_)
  split
  · trivial
  refine Safe.seq (safe_existingTerminalAppRow _ _) fun existing w _ => ?_
  cases existing with
  | some row => trivial
  | none =>
    refine Safe.bind (safe_raiseIfAny ?_)
    cases objectiveMetricKey delivery.inputs.objective with
    | error e => trivial
    | ok objectiveKey =>
      refine Safe.bind (safe_raiseIfAny ?_)
      refine Safe.seq (safe_snapshotOptunaTrial _ _) fun state w hstate => ?_
      cases state.isFinished with
      | true => exact safe_reconstructFromOptuna hstate
      | false => exact safe_executeTrial objectiveKey

/-- The handler raises again, or tells the optimizer before it writes the row. -/
theorem safe_recordFailure (failure : TrialFailure) :
    Keeps ev studyId optunaTrialNumber t delivery (fun _ _ => True) (fun _ _ => True)
      (recordFailure delivery failure) w := by
  have hrecord : ∀ exc w, Keeps ev studyId optunaTrialNumber t delivery (fun _ _ => True)
      (fun _ _ => True) (do
        let _ ← tell delivery.inputs failure.studyLoaded .fail delivery.faults.tellFailFault
        raiseIfAny delivery.faults.recordRaises failure.studyLoaded false
        createTrial (failedRow delivery.inputs exc)) w := by
    intro exc w
    refine Safe.seq (safe_tellFail _ _ _) fun answer w hfailed => ?_
    refine Safe.bind (safe_raiseIfAny (safe_createTrial fun hof => ?_))
    rw [hfailed hof]
    exact agrees_failedRow delivery.inputs exc
  refine Safe.seq Discipline.safe_rollback fun _ w _ => ?_
  cases failure.exc with
  | operational message => trivial
  | _ =>
    cases failure.tellSucceeded with
    | true => trivial
    | false => exact hrecord _ w

/-- Deliveries of `run_trial` keep the discipline. -/
theorem agreement_met (ev : Evaluator) (studyId : ℕ) (optunaTrialNumber : ℤ) (T : Type)
    [DecidableEq T] :
    (agreement studyId optunaTrialNumber T).contract.Met (trialSystem T ev) := by
  refine Discipline.contract_met fun t delivery w _ _ _ => ?_
  have hbody : Keeps ev studyId optunaTrialNumber t delivery (fun _ _ => True) (fun _ _ => True)
      (tryCatch (attemptTrial ev delivery) (recordFailure delivery)) w :=
    Safe.handle (safe_attemptTrial.mono (fun _ _ h => h) fun failure _ _ =>
      safe_recordFailure failure)
  exact (Discipline.safe_inSession hbody (fun _ _ _ _ h => h) fun _ _ h => h).mono
    (fun _ _ _ => trivial) fun _ _ _ => trivial

end Code

/-! ## Whole runs -/

/-- The trial has at most one row, which agrees with the optimizer. -/
structure RecordsAgree {T : Type} (studyId : ℕ) (optunaTrialNumber : ℤ)
    (w : Beside T ℕ Trial Optuna) : Prop where
  single : ∀ key key' row row', w.table.committed key = some row →
    w.table.committed key' = some row' → OfTrial studyId optunaTrialNumber row →
    OfTrial studyId optunaTrialNumber row' → key = key'
  agrees : ∀ key row, w.table.committed key = some row → OfTrial studyId optunaTrialNumber row →
    Agrees row (w.outside studyId optunaTrialNumber)

/-- In every state that is reached from `w` by operations that meet `cond`, the
records of the trial agree. -/
def RecordsStayInAgreement (T : Type) [DecidableEq T] (ev : Evaluator) (studyId : ℕ)
    (optunaTrialNumber : ℤ)
    (cond : T → Beside T ℕ Trial Optuna → BesideOp ℕ Trial OptunaOp → Prop)
    (w : Beside T ℕ Trial Optuna) : Prop :=
  ∀ c, (trialSystem T ev).Run cond (System.idle w) c →
    RecordsAgree studyId optunaTrialNumber c.world

/-- Two deliveries of a trial. -/
def mrrDelivery (trialId : ℕ) : Delivery where
  inputs := { mrrTrial bothAnswered with trialId }

/-- The status of the rows of the two deliveries, and the state of their trial. -/
def recordsOf (c : Config ℕ Delivery (Beside ℕ ℕ Trial Optuna) (BesideOp ℕ Trial OptunaOp)
    (BesideOp.Res OptunaOp.Res) TrialFailure) : List (Option TrialStatus) × TrialState :=
  ([1, 2].map fun key => ((c.world.table.committed key).filter fun row => OfTrial 7 0 row).map
    Trial.status, c.world.outside 7 0)

end RelyLoop.Trials
